import Homoiconic.Proofs.Evaluation.Program
import Homoiconic.Proofs.Reading.Soundness
import Homoiconic.Proofs.Session.AllOrNothing

/-! # The run of a program

A run reads a program and evaluates it, so it ends as the evaluation of the program's statements
does; with a larger bound, a run that has ended stays as it is.
-/

namespace Homoiconic

namespace Session

open Homoiconic.Action
open Homoiconic.Evaluation (eval sequence eval_assignment eval_of_le eval_program)

variable {bound bound' : Nat} {source : String} {context after : Context} {value : Value}

/-- What ends within a bound does the same within every larger bound. -/
theorem AllOrNothing.of_le {α : Type} {present : Value → α} {action action' : Action RunError α}
    (all : AllOrNothing bound source present action)
    (all' : AllOrNothing bound' source present action') (le : bound ≤ bound')
    (ends : action context ≠ .unfinished) : action' context = action context := by
  cases reading : read source with
  | error cause => rw [all.unreadable cause reading, all'.unreadable cause reading]
  | ok program =>
      rw [all.readable program reading] at ends
      rw [all.readable program reading, all'.readable program reading, eval_of_le le]
      intro unfinished
      rw [unfinished] at ends
      exact ends rfl

/-- A run that ends within a bound does the same within every larger bound. -/
theorem run_of_le (le : bound ≤ bound') (ends : run bound source context ≠ .unfinished) :
    run bound' source context = run bound source context :=
  (run_allOrNothing bound source).of_le (run_allOrNothing bound' source) le ends

theorem rep_of_le (le : bound ≤ bound') (ends : rep bound source context ≠ .unfinished) :
    rep bound' source context = rep bound source context :=
  (rep_allOrNothing bound source).of_le (rep_allOrNothing bound' source) le ends

theorem readable_of_returned (ran : run bound source context = .returned value after) :
    ∃ statements, read source = .ok (.list (.symbol "do" :: statements)) := by
  cases reading : read source with
  | error cause =>
      rw [run_unreadable _ reading] at ran
      cases ran
  | ok program =>
      cases program_of_read reading with
      | @mk statements => exact ⟨statements, rfl⟩

/-- Even the head of a program has to be evaluated. -/
theorem exists_bound_of_ends {statements : List Atom}
    (readable : read source = .ok (.list (.symbol "do" :: statements)))
    (ends : run bound source context ≠ .unfinished) : ∃ fewer, bound = fewer + 2 := by
  rw [run_readable _ readable] at ends
  match bound with
  | 0 => exact absurd rfl ends
  | 1 => exact absurd rfl ends
  | fewer + 2 => exact ⟨fewer, rfl⟩

theorem exists_bound_of_returned {statements : List Atom}
    (readable : read source = .ok (.list (.symbol "do" :: statements)))
    (ran : run bound source context = .returned value after) : ∃ fewer, bound = fewer + 2 := by
  have ends : run bound source context ≠ .unfinished := by simp [ran]
  exact exists_bound_of_ends readable ends

theorem settle_withoutLog {α : Type} (present : Value → α) (env : Environment)
    (outcome : Outcome EvalError Value) :
    (settle present env outcome).withoutLog =
      (settle present env outcome.withoutLog).withoutLog := by
  cases outcome <;> rfl

/-- What is done with the statements of a program, apart from the log. -/
theorem AllOrNothing.program {α : Type} {present : Value → α} {action : Action RunError α}
    (all : AllOrNothing (bound + 2) source present action) {statements : List Atom}
    (readable : read source = .ok (.list (.symbol "do" :: statements)))
    (head : context.env.get? "do" = some (.builtin .sequence)) :
    (action context).withoutLog =
      (settle present context.env
        (sequence (eval (bound + 1)) .nil statements context.withoutLog)).withoutLog := by
  have begun : (loaded source (.list (.symbol "do" :: statements)) context).env.get? "do" =
      some (.builtin .sequence) := head
  rw [all.readable _ readable, settle_withoutLog, eval_program bound statements begun,
    ← settle_withoutLog]
  rfl

theorem run_program (bound : Nat) {statements : List Atom}
    (readable : read source = .ok (.list (.symbol "do" :: statements)))
    (head : context.env.get? "do" = some (.builtin .sequence)) :
    (run (bound + 2) source context).withoutLog =
      (settle id context.env
        (sequence (eval (bound + 1)) .nil statements context.withoutLog)).withoutLog :=
  (run_allOrNothing (bound + 2) source).program readable head

theorem rep_program (bound : Nat) {statements : List Atom}
    (readable : read source = .ok (.list (.symbol "do" :: statements)))
    (head : context.env.get? "do" = some (.builtin .sequence)) :
    (rep (bound + 2) source context).withoutLog =
      (settle shown context.env
        (sequence (eval (bound + 1)) .nil statements context.withoutLog)).withoutLog :=
  (rep_allOrNothing (bound + 2) source).program readable head

/-- A program whose statements come to a value and change nothing is answered with that value. -/
theorem rep_of_value {statements : List Atom}
    (readable : read source = .ok (.list (.symbol "do" :: statements)))
    (head : context.env.get? "do" = some (.builtin .sequence))
    (evaluates : (sequence (eval (bound + 1)) .nil statements context.withoutLog).withoutLog =
      .returned value context.withoutLog) :
    ∃ log, rep (bound + 2) source context = .returned (shown value) { context with log } := by
  have ran := rep_program bound readable head
  rw [settle_withoutLog, evaluates] at ran
  exact @Outcome.eq_of_withoutLog _ _ _ (.returned (shown value) context) ran

/-- A program whose statements fail and change nothing is answered with the error. -/
theorem rep_of_error {statements : List Atom} {error : EvalError}
    (readable : read source = .ok (.list (.symbol "do" :: statements)))
    (head : context.env.get? "do" = some (.builtin .sequence))
    (fails : (sequence (eval (bound + 1)) .nil statements context.withoutLog).withoutLog =
      .failed error context.withoutLog) :
    ∃ log, rep (bound + 2) source context = .failed (.evaluation error) { context with log } := by
  have ran := rep_program bound readable head
  rw [settle_withoutLog, fails] at ran
  exact @Outcome.eq_of_withoutLog _ _ _ (.failed (RunError.evaluation error) context) ran

/-- A run leaves the same whether its value is printed or not. -/
theorem rep_after? (bound : Nat) (source : String) (context : Context) :
    (rep bound source context).after? = (run bound source context).after? := by
  simp only [rep, Bind.bind, Action.bind]
  cases run bound source context <;> rfl

/-- The run of a single assignment, if the evaluation of the value does nothing else. -/
theorem run_assignment (bound : Nat) {name : String} {code : Atom}
    (reads : read source =
      .ok (.list [.symbol "do", .quoted (.list [.symbol "set", .symbol name, code])]))
    (sequence : context.env.get? "do" = some (.builtin .sequence))
    (assign : context.env.get? "set" = some (.builtin .assign))
    (evaluates : ∀ older, ∃ log, eval (bound + 1) code { context with log := older } =
      .returned value { context with log }) :
    ∃ after, run (bound + 3) source context = .returned .nil after ∧
      after.env = context.env.set name value := by
  have ran := run_program (bound + 1) reads sequence
  have begun : context.withoutLog.env.get? "set" = some (.builtin .assign) := assign
  obtain ⟨log, assigned⟩ := eval_assignment bound name begun evaluates
  simp only [Evaluation.sequence, Atom.unquoted, Bind.bind, Action.bind, assigned] at ran
  obtain ⟨log, ended⟩ := Outcome.eq_of_withoutLog ran
  exact ⟨_, ended, rfl⟩

end Session

end Homoiconic
