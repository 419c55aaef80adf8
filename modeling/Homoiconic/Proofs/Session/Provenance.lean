import Mathlib.Control.Monad.Basic
import Homoiconic.Proofs.Evaluation.Provenance
import Homoiconic.Proofs.Session.Program

/-! # The code of a session

A session knows the programs that it has read, and their parts. Nothing else is ever evaluated or
bound in it, and what is bound between two runs is of programs that have run successfully.
-/

namespace Homoiconic

open Homoiconic.Evaluation (Point)

/-- The atom is a part of the program that some of the sources is read as. -/
def Atom.IsPartOf (sources : List String) (code : Atom) : Prop :=
  ∃ source ∈ sources, ∃ program, read source = .ok program ∧ Part code program

theorem Atom.hereditary_isPartOf (sources : List String) : Hereditary (IsPartOf sources) := by
  rintro part whole inner ⟨source, member, program, reading, outer⟩
  exact ⟨source, member, program, reading, inner.trans outer⟩

theorem Atom.IsPartOf.cons {sources : List String} {code : Atom} (source : String)
    (part : code.IsPartOf sources) : code.IsPartOf (source :: sources) := by
  obtain ⟨earlier, member, program, reading, part⟩ := part
  exact ⟨earlier, List.mem_cons_of_mem source member, program, reading, part⟩

theorem Environment.standard_madeOf (known : Atom → Prop) : standard.MadeOf known where
  active := by
    refine .ofList fun binding member => ?_
    simp only [List.mem_append, List.mem_map, List.mem_cons, List.not_mem_nil, or_false] at member
    obtain ⟨builtin, _, rfl⟩ | rfl | rfl := member <;> trivial
  saved := by simp [standard]

namespace Session

/-- The states of a session, and the sources that have been run in it successfully, the latest
    first. -/
inductive Played (sink : Sink) : List String → Context → Prop where
  | start : Played sink [] (start sink)
  | ran {sources : List String} {bound : Nat} {source : String} {context after : Context}
      {value : Value} : Played sink sources context →
      run bound source context = .returned value after → Played sink (source :: sources) after
  | runFailed {sources : List String} {bound : Nat} {source : String} {context after : Context}
      {error : RunError} : Played sink sources context →
      run bound source context = .failed error after → Played sink sources after
  | shown {sources : List String} {bound : Nat} {source : String} {context after : Context}
      {text : Option String} : Played sink sources context →
      rep bound source context = .returned text after → Played sink (source :: sources) after
  | repFailed {sources : List String} {bound : Nat} {source : String} {context after : Context}
      {error : RunError} : Played sink sources context →
      rep bound source context = .failed error after → Played sink sources after

variable {α : Type} {sink : Sink} {sources : List String} {bound : Nat} {source : String}
  {present : Value → α} {action : Action RunError α} {context after : Context}

/-- A run that succeeds leaves what its evaluation has left. -/
theorem AllOrNothing.madeOf_returned (atomic : AllOrNothing bound source present action)
    {result : α} (returned : action context = .returned result after)
    (made : context.env.MadeOf (Atom.IsPartOf sources)) :
    after.env.MadeOf (Atom.IsPartOf (source :: sources)) := by
  cases reading : read source with
  | error cause =>
      rw [atomic.unreadable cause reading] at returned
      cases returned
  | ok program =>
      have known : program.IsPartOf (source :: sources) :=
        ⟨source, List.mem_cons_self, program, reading, .refl⟩
      let point : Point := ⟨bound, program, loaded source program context⟩
      have evaluated := point.madeOf (Atom.hereditary_isPartOf (source :: sources)) known
        (made.mono fun _ part => part.cons source)
      rw [atomic.readable program reading] at returned
      obtain ⟨last, ended, _, kept | putBack⟩ := settle_after (by rw [returned]; rfl)
      · rw [kept]
        exact evaluated.after last ended
      · rw [putBack]
        exact made.mono fun _ part => part.cons source

theorem madeOf_of_played (played : Played sink sources context) :
    context.env.MadeOf (Atom.IsPartOf sources) := by
  induction played with
  | start => exact Environment.standard_madeOf _
  | ran _ returned ih => exact (run_allOrNothing _ _).madeOf_returned returned ih
  | runFailed _ failed ih =>
      rw [(run_allOrNothing _ _).failed _ _ _ failed]
      exact ih
  | shown _ returned ih => exact (rep_allOrNothing _ _).madeOf_returned returned ih
  | repFailed _ failed ih =>
      rw [(rep_allOrNothing _ _).failed _ _ _ failed]
      exact ih

theorem of_load {program : Atom} {ready : Context}
    (loads : load source context = .returned program ready) :
    read source = .ok program ∧ ready.env = context.env := by
  cases reading : read source with
  | error cause =>
      rw [load_unreadable reading] at loads
      cases loads
  | ok found =>
      rw [load_readable reading] at loads
      cases loads
      exact ⟨rfl, rfl⟩

/-- No code is ever put together. Between two runs, all code that is bound is of programs that have
    run successfully. In a run, which evaluates its program on a snapshot, all code that is
    evaluated, bound, saved or yielded anywhere is of these or of the program itself. -/
theorem code_is_never_synthesized (played : Played sink sources context) :
    context.env.MadeOf (Atom.IsPartOf sources) ∧
      ∀ bound source program ready, load source context = .returned program ready →
        ∀ point : Point,
          point.Within ⟨bound, program, { ready with env := ready.env.snapshot }⟩ →
          point.MadeOf (Atom.IsPartOf (source :: sources)) := by
  have between := madeOf_of_played played
  refine ⟨between, ?_⟩
  intro bound source program ready loads point within
  obtain ⟨reading, env⟩ := of_load loads
  have known : program.IsPartOf (source :: sources) :=
    ⟨source, List.mem_cons_self, program, reading, .refl⟩
  have before : ready.env.MadeOf (Atom.IsPartOf (source :: sources)) := by
    rw [env]
    exact between.mono fun _ part => part.cons source
  exact within.madeOf (Atom.hereditary_isPartOf (source :: sources)) known before.snapshot

/-- The evaluation of the head of the second program of a session. -/
theorem code_is_never_synthesized_at_head :
    ∃ context program ready, ∃ point : Point,
      Played {} ["(set q \x60x)"] context ∧ load "q" context = .returned program ready ∧
        point.Within ⟨3, program, { ready with env := ready.env.snapshot }⟩ ∧
        point.code = .symbol "do" ∧ point.MadeOf (Atom.IsPartOf ["q", "(set q \x60x)"]) := by
  have first : read "(set q \x60x)" = .ok (.list [.symbol "do",
    .quoted (.list [.symbol "set", .symbol "q", .quoted (.symbol "x")])]) := by decide +kernel
  have second : read "q" = .ok (.list [.symbol "do", .quoted (.symbol "q")]) := by decide +kernel
  obtain ⟨context, ran, _⟩ := @run_assignment _ (start {}) (.atom (.symbol "x")) 1 _ _ first rfl rfl
    fun older => ⟨_, rfl⟩
  have played := Played.ran .start ran
  have loads := load_readable second context
  have within := Relation.ReflTransGen.single (Point.asks_head 2 (.symbol "do")
    [.quoted (.symbol "q")]
    { loaded "q" (.list [.symbol "do", .quoted (.symbol "q")]) context with
      env := context.env.snapshot })
  exact ⟨context, _, _, _, played, loads, within, rfl,
    (code_is_never_synthesized played).2 3 "q" _ _ loads _ within⟩

end Session

end Homoiconic
