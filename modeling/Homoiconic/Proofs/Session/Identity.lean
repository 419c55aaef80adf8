import Homoiconic.Proofs.Evaluation.Identity
import Homoiconic.Proofs.Session.AllOrNothing
import Homoiconic.Proofs.Session.Provenance

/-! # The identity of closures in a session

In whatever contexts evaluations take place, equality tells closures apart: what a form for one
makes differs from all closures before it, and two closures that are the same are so in all
respects.
-/

namespace Homoiconic

open Homoiconic.Evaluation (MadeFresh HandsOn Opposite Point apply eval eval_making)

namespace Session

/-- The contexts that come up: where a session starts, in a run, in the course of an evaluation of
    any code, and after evaluations and runs, however they end. -/
inductive Occurs (sink : Sink) : Context → Prop where
  | start : Occurs sink (start sink)
  /-- A run evaluates its program on a snapshot. -/
  | running {source : String} {program : Atom} {context ready : Context} : Occurs sink context →
      load source context = .returned program ready →
      Occurs sink { ready with env := ready.env.snapshot }
  | within {point whole : Point} : Occurs sink whole.context → point.Within whole →
      Occurs sink point.context
  | evaluated {bound : Nat} {code : Atom} {context after : Context} : Occurs sink context →
      (eval bound code context).after? = some after → Occurs sink after
  | ran {bound : Nat} {source : String} {context after : Context} : Occurs sink context →
      (run bound source context).after? = some after → Occurs sink after
  | shown {bound : Nat} {source : String} {context after : Context} : Occurs sink context →
      (rep bound source context).after? = some after → Occurs sink after

variable {α : Type} {sink : Sink} {bound : Nat} {source : String} {present : Value → α}
  {action : Action RunError α} {context after : Context}

theorem numbered_start (sink : Sink) : (start sink).Numbered where
  distinct := List.nodup_nil
  below := by simp [Context.made, start]
  active := by
    -- Closures made of no code at all are none.
    have plain := (Environment.standard_madeOf fun _ => False).active
    intro name value bound
    cases value with
    | closure closure => exact absurd (plain name _ bound).1 id
    | nil | integer | boolean | atom | builtin => trivial
  saved := by simp [start, Environment.standard]

theorem made_remarked (source : String) (context : Context) :
    (remarked source context).made = context.made := by
  have none (remarks : List Juxtaposition) :
      (remarks.map Record.juxtaposed).reverse.filterMap Record.made? = [] := by
    simp [List.filterMap_eq_nil_iff, Record.made?]
  rw [Context.made, remarked, List.filterMap_append, none, List.nil_append]
  rfl

theorem made_loaded (source : String) (program : Atom) (context : Context) :
    (loaded source program context).made = context.made :=
  (Context.made_logging rfl).trans (made_remarked source context)

theorem numbered_loaded (source : String) (program : Atom) (numbered : context.Numbered) :
    (loaded source program context).Numbered :=
  numbered.alike rfl (made_loaded source program context) rfl

/-- After a run that fails, the closures that it has made are still known, and the bindings in force
    were in force before. -/
theorem AllOrNothing.numbered (atomic : AllOrNothing bound source present action)
    (numbered : context.Numbered) (ends : (action context).after? = some after) :
    after.Numbered := by
  cases reading : read source with
  | error cause =>
      rw [atomic.unreadable cause reading] at ends
      cases ends
      exact numbered.alike rfl (made_remarked source context) rfl
  | ok program =>
      rw [atomic.readable program reading] at ends
      have ready := numbered_loaded source program numbered
      have kept := Invariant.eval_keeps Invariant.lawful_identities bound program _ ready
      cases evaluated : eval bound program (loaded source program context) with
      | returned value last =>
          rw [evaluated] at ends kept
          cases ends
          exact (kept.leads rfl).1
      | failed error last =>
          rw [evaluated] at ends kept
          cases ends
          obtain ⟨ended, more⟩ := kept.leads rfl
          have logged : (last.logging (.rolledBack error)).Numbered := ended.logging rfl
          refine numbered.grown rfl ?_ logged.distinct logged.below
          have grown := more.subset
          rw [made_loaded] at grown
          exact grown
      | unfinished =>
          rw [evaluated] at ends
          cases ends

theorem numbered_of_occurs (occurs : Occurs sink context) : context.Numbered := by
  induction occurs with
  | start => exact numbered_start sink
  | @running source program _ _ _ loads ih =>
      cases reading : read source with
      | error cause =>
          rw [load_unreadable reading] at loads
          cases loads
      | ok found =>
          rw [load_readable reading] at loads
          cases loads
          exact (numbered_loaded source program ih).snapshot
  | within _ within ih => exact (Invariant.within Invariant.lawful_identities within ih).1
  | evaluated _ ends ih =>
      exact ((Invariant.eval_keeps Invariant.lawful_identities _ _ _ ih).leads ends).1
  | ran _ ends ih => exact (run_allOrNothing _ _).numbered ih ends
  | shown _ ends ih => exact (rep_allOrNothing _ _).numbered ih ends

/-- In every context that comes up, each value that is bound or saved is known, and so is each value
    that an evaluation yields, then and later on. A form for a closure makes one that is like no
    value known before, whatever its parameters and its body. Values that are known are the same to
    a program only if they are equal, and evaluations hand them on as they are. And whether two
    values are the same is always the opposite of whether they differ. -/
theorem equality_tells_closures_apart (occurs : Occurs sink context) :
    (∀ bindings ∈ context.env.active :: context.env.saved, bindings.KnownTo context) ∧
    (∀ bound code after, (eval bound code context).after? = some after →
      context.made <:+ after.made ∧
      (∀ value : Value, value.KnownTo context → value.KnownTo after) ∧
      ∀ value, eval bound code context = .returned value after → value.KnownTo after) ∧
    (∀ bound kind head names body middle,
      eval bound head (context.logging
        (.evaluating (.list [head, .list (names.map .symbol), body]))) =
          .returned (.builtin (ClosureKind.builtin kind)) middle →
      ∃ closure after, eval (bound + 1) (.list [head, .list (names.map .symbol), body]) context =
          .returned (.closure closure) after ∧
        MadeFresh kind names body middle closure after) ∧
    (∀ x y : Value, x.KnownTo context → y.KnownTo context → (x.same y ↔ x = y)) ∧
    (∀ bound, HandsOn bound context) ∧
    (∀ bound left right x y middle last,
      eval bound left (context.logging (.called .equal [left, right])) = .returned x middle →
      eval bound right middle = .returned y last →
      apply bound (.builtin .equal) [left, right] context =
        .returned (.boolean (x.same y))
          (last.logging (.resulted .equal (.boolean (x.same y))))) ∧
    ∀ bound left right,
      Opposite (apply bound (.builtin .equal) [left, right] context)
        (apply bound (.builtin .notEqual) [left, right] context) := by
  have numbered := numbered_of_occurs occurs
  have keeps := Invariant.eval_keeps Invariant.lawful_identities
  refine ⟨?_, ?_, ?_, ?_, ?_, ?_, ?_⟩
  · exact List.forall_mem_cons.mpr ⟨numbered.active, numbered.saved⟩
  · intro bound code after ends
    have kept := keeps bound code context numbered
    have more := (kept.leads ends).2
    refine ⟨more, fun value known => known.mono more.subset, ?_⟩
    intro value returned
    rw [returned] at kept
    cases kept with
    | returned _ known => exact known
  · intro bound kind head names body middle callee
    have begun : (context.logging
        (.evaluating (.list [head, .list (names.map .symbol), body]))).Numbered :=
      numbered.logging rfl
    have evaluated := keeps bound head _ begun
    rw [callee] at evaluated
    exact ⟨_, _, eval_making kind names body callee,
      Evaluation.madeFresh (evaluated.leads rfl).1 kind names body⟩
  · intro x y first second
    exact numbered.same_iff first second
  · intro bound
    exact Evaluation.handsOn bound context
  · intro bound left right x y middle last first second
    exact Evaluation.apply_equal first second
  · intro bound left right
    exact Evaluation.opposite_equality bound left right context

/-- The same form makes two closures, and the first is not bound to a name when the second is
    made. -/
theorem equality_tells_closures_apart_twins :
    let form : Atom := .list [.symbol "lambda", .list [], .number 1]
    ∃ f g middle after, eval 2 form (start {}) = .returned (.closure f) middle ∧
      eval 2 form middle = .returned (.closure g) after ∧
      (f.kind = g.kind ∧ f.parameters = g.parameters ∧ f.body = g.body) ∧
      (Value.closure g).same (.closure f) = false := by
  intro form
  have first : (start {}).env.get? "lambda" = some (.builtin .makeLambda) :=
    Environment.get?_standard .makeLambda
  have callee {context : Context}
      (found : context.env.get? "lambda" = some (.builtin .makeLambda)) :
      eval 1 (.symbol "lambda") (context.logging (.evaluating form)) =
        .returned (.builtin ClosureKind.lambda.builtin)
          ((context.logging (.evaluating form)).logging (.evaluating (.symbol "lambda"))) :=
    have found : (context.logging (.evaluating form)).env.get? "lambda" = _ := found
    Evaluation.eval_symbol found 0
  obtain ⟨_, keep, make, _⟩ := equality_tells_closures_apart (@Occurs.start {})
  obtain ⟨f, middle, evaluated, made⟩ :=
    make 1 .lambda (.symbol "lambda") [] (.number 1) _ (callee first)
  have ends : (eval 2 form (start {})).after? = some middle := by
    change (eval 2 (.list [.symbol "lambda", .list [], .number 1]) (start {})).after? = _
    exact congrArg Outcome.after? evaluated
  have known := (keep 2 form middle ends).2.2 _ evaluated
  have second : middle.env.get? "lambda" = some (.builtin .makeLambda) := by
    rw [made.env]
    exact first
  obtain ⟨_, _, makeAgain, _⟩ := equality_tells_closures_apart (.evaluated .start ends)
  obtain ⟨g, after, evaluated', made'⟩ :=
    makeAgain 1 .lambda (.symbol "lambda") [] (.number 1) _ (callee second)
  refine ⟨f, g, middle, after, evaluated, evaluated', ⟨?_, ?_, ?_⟩, made'.unlike _ known⟩
  · rw [made.kind, made'.kind]
  · rw [made.parameters, made'.parameters]
  · rw [made.body, made'.body]

end Session

end Homoiconic
