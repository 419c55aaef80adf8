import Homoiconic.Proofs.Evaluation.Assignments
import Homoiconic.Proofs.Session.AllOrNothing

/-! # What a session binds

A run changes the bindings of the names that its source assigns to, and only if it succeeds. Since
no evaluation takes a binding away, a session never loses a name that it started with.
-/

namespace Homoiconic

namespace Session

open Homoiconic.Evaluation (eval eval_assigns)

/-- The source is a program with an assignment to the name somewhere in it. -/
def SourceWrites (source name : String) : Prop :=
  ∃ program, read source = .ok program ∧ program.Writes name

variable {α : Type} {bound : Nat} {source : String} {present : Value → α}
  {action : Action RunError α} {context after : Context}

theorem AllOrNothing.changesOnly (atomic : AllOrNothing bound source present action)
    (ends : (action context).after? = some after) :
    Environment.ChangesOnly (SourceWrites source) context.env after.env := by
  cases reading : read source with
  | error cause =>
      rw [atomic.unreadable cause reading] at ends
      cases ends
      exact .refl context.env
  | ok program =>
      rw [atomic.readable program reading] at ends
      obtain ⟨last, evaluated, _, kept | putBack⟩ := settle_after ends
      · have changes := eval_assigns bound program (loaded source program context) last evaluated
        rw [kept]
        exact changes.mono fun name written => ⟨program, reading, written⟩
      · rw [putBack]
        exact .refl context.env

theorem bound_of_reachable {sink : Sink} {context : Context} (reachable : Reachable sink context)
    {name : String} (standard : (Environment.standard.get? name).isSome) :
    (context.env.get? name).isSome := by
  induction reachable with
  | start => exact standard
  | run _ ends ih => exact ((run_allOrNothing _ _).changesOnly ends).bound name ih
  | rep _ ends ih => exact ((rep_allOrNothing _ _).changesOnly ends).bound name ih

/-- An evaluation changes the bindings of no names but those that its atom writes down, a run those
    of no others than its source does, and neither takes a binding away. So in all states of a
    session the 25 names of its start are bound. -/
theorem only_written_names_change :
    (∀ bound code, (eval bound code).Assigns code.Writes) ∧
    (∀ bound source context after, (run bound source context).after? = some after →
      Environment.ChangesOnly (SourceWrites source) context.env after.env) ∧
    (∀ sink context, Reachable sink context → ∀ name, (Environment.standard.get? name).isSome →
      (context.env.get? name).isSome) ∧
    Environment.standard.size = 25 := by
  refine ⟨eval_assigns, ?_, ?_, rfl⟩
  · intro bound source context after ends
    exact (run_allOrNothing bound source).changesOnly ends
  · intro sink context reachable name standard
    exact bound_of_reachable reachable standard

end Session

end Homoiconic
