import Mathlib.Control.Monad.Basic
import Homoiconic.Proofs.Evaluation.Calls
import Homoiconic.Proofs.Evaluation.Unwinding
import Homoiconic.Proofs.Session.AllOrNothing

/-! # How a run ends in the log

A run that succeeds has logged a result for each call of a built-in, and no failure. A run that
fails has logged, from the moment on in which its error was raised, the failures of the calls that
were open then, from the inside out, and after them that it was rolled back; and it has printed
nothing since.
-/

namespace Homoiconic

namespace Session

open Homoiconic.Action
open Homoiconic.Evaluation (eval apply eval_unwinds)

/-- What the log of a run says, where `evaluation` is the evaluation of its program, which begins in
    the context `begun`. -/
structure Unwound (evaluation : Action EvalError Value) (begun context : Context)
    (outcome : Outcome RunError Value) : Prop where
  /-- The records are nested, and none is a failure. -/
  returned : ∀ value after, outcome = .returned value after →
    ∃ records, after.log = records.reverse ++ context.log ∧ Record.LeaveOpen [] records
  failed : ∀ cause after, outcome = .failed cause after →
    ∃ error records calls, cause = .evaluation error ∧
      -- Where the error is raised, some calls are open and none has failed.
      (∃ point, evaluation.Raises begun error point ∧
        point.log = records.reverse ++ context.log) ∧
      Record.LeaveOpen calls records ∧
      -- These calls fail, which keeps the records nested, and then the run is over.
      after.log =
        (records ++ calls.map (Record.failed · error) ++ [Record.rolledBack error]).reverse ++
          context.log ∧
      Record.openAfterAll? [] (records ++ calls.map (Record.failed · error)) = some [] ∧
      ∀ point, evaluation.Raises begun error point → after.sink = point.sink

/-- Reading logs nothing about calls. -/
theorem log_loaded (source : String) (program : Atom) (context : Context) :
    ∃ records, (loaded source program context).log = records.reverse ++ context.log ∧
      Record.LeaveOpen [] records := by
  refine ⟨(Reading.ofSource source).remarks.map .juxtaposed ++ [.readProgram program], ?_, ?_⟩
  · simp [loaded, remarked]
  · refine .of_not_calls fun record member => ?_
    simp only [List.mem_append, List.mem_map, List.mem_singleton] at member
    obtain ⟨remark, _, rfl⟩ | rfl := member <;> rfl

theorem settle_unwound {evaluation : Action EvalError Value} (unwinds : evaluation.Unwinds)
    {begun context : Context} {before : List Record}
    (log : begun.log = before.reverse ++ context.log) (quiet : Record.LeaveOpen [] before) :
    Unwound evaluation begun context (settle id context.env (evaluation begun)) where
  returned value after ends := by
    cases outcome : evaluation begun with
    | returned found last =>
        rw [outcome] at ends
        cases ends
        obtain ⟨records, logged, settled⟩ := unwinds.returned _ _ _ outcome
        exact ⟨before ++ records, by simp [logged, log], quiet.append settled⟩
    | failed | unfinished =>
        rw [outcome] at ends
        cases ends
  failed cause after ends := by
    cases outcome : evaluation begun with
    | failed error last =>
        rw [outcome] at ends
        cases ends
        obtain ⟨point, records, calls, raised, upTo, leave, unwound⟩ :=
          unwinds.failed _ _ _ outcome
        have leave := quiet.append leave
        refine ⟨error, before ++ records, calls, rfl, ⟨point, raised, by simp [upTo, log]⟩, leave,
          by simp [unwound, upTo, log], ?_, ?_⟩
        · rw [Record.openAfterAll?_append, leave.nested]
          exact Record.openAfterAll?_failures calls [] error
        · intro point raised
          obtain ⟨last', fails, sink⟩ := raised.sink_eq
          rw [outcome] at fails
          cases fails
          exact sink
    | returned | unfinished =>
        rw [outcome] at ends
        cases ends

theorem run_unwound (bound : Nat) {source : String} {program : Atom}
    (readable : read source = .ok program) (context : Context) :
    Unwound (eval bound program) (loaded source program context) context
      (run bound source context) := by
  obtain ⟨before, log, quiet⟩ := log_loaded source program context
  rw [run_readable bound readable]
  exact settle_unwound (eval_unwinds bound program) log quiet

/-- How the failures of some calls and the end of the run read. -/
theorem texts_of_failures (calls : List Builtin) (error : EvalError) :
    (calls.map (Record.failed · error) ++ [Record.rolledBack error]).map Record.text =
      calls.map (fun builtin => "Call to " ++ builtin.name ++ " failed: " ++ error.message) ++
        ["rolled back after error: " ++ error.message] := by
  rw [List.map_append, List.map_map]
  rfl

/-- So the log of a run that fails in its evaluation ends with such a text for each call that was
    open where the error was raised, and with that of the end. -/
theorem texts_of_failed_run {bound : Nat} {source : String} {program : Atom}
    (readable : read source = .ok program) {context after : Context} {cause : RunError}
    (fails : run bound source context = .failed cause after) :
    ∃ (error : EvalError) (records : List Record) (calls : List Builtin),
      cause = .evaluation error ∧ Record.LeaveOpen calls records ∧
      after.log.reverse.map Record.text =
        context.log.reverse.map Record.text ++ records.map Record.text ++
          calls.map (fun builtin => "Call to " ++ builtin.name ++ " failed: " ++ error.message) ++
          ["rolled back after error: " ++ error.message] := by
  obtain ⟨error, records, calls, evaluation, _, leave, log, _⟩ :=
    (run_unwound bound readable context).failed _ _ fails
  refine ⟨error, records, calls, evaluation, leave, ?_⟩
  rw [List.append_assoc _ (calls.map _), ← texts_of_failures, log]
  simp

end Session

end Homoiconic
