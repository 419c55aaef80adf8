import Homoiconic.Evaluation.Bound
import Homoiconic.Proofs.Evaluation.Unseen

/-! # The evaluation of a program

A program is a call of `do`. As long as `do` means what it should, evaluating the program comes to
evaluating its statements in order, apart from what is logged about the call. That makes no
difference to the statements, because the log is only written: on top of older records, an
evaluation does the same.
-/

namespace Homoiconic

namespace Context

/-- The same context, with older records below those in the log. -/
def onTopOf (context : Context) (older : List Record) : Context :=
  { context with log := context.log ++ older }

def withoutLog (context : Context) : Context :=
  { context with log := [] }

theorem Unseen.onTopOf (older : List Record) : Unseen (·.onTopOf older) := by
  constructor <;> intros <;> rfl

end Context

/-- How an action has ended, whatever it has logged. -/
def Outcome.withoutLog {ε α : Type} (outcome : Outcome ε α) : Outcome ε α :=
  outcome.onContext Context.withoutLog

theorem Outcome.eq_of_withoutLog {ε α : Type} {outcome other : Outcome ε α}
    (same : outcome.withoutLog = other.withoutLog) :
    ∃ log, outcome = other.onContext fun context => { context with log } := by
  obtain ⟨log, back⟩ :
      ∃ log, outcome = outcome.withoutLog.onContext fun context => { context with log } := by
    cases outcome with
    | returned value after => exact ⟨after.log, rfl⟩
    | failed error after => exact ⟨after.log, rfl⟩
    | unfinished => exact ⟨[], rfl⟩
  refine ⟨log, ?_⟩
  rw [back, same, withoutLog, onContext_onContext]
  rfl

namespace Action

variable {ε α : Type}

/-- Whatever has been logged before, the action does the same, and its own records come on top. -/
def IgnoresLog (action : Action ε α) : Prop :=
  ∀ older, action.Commutes (·.onTopOf older)

namespace IgnoresLog

theorem withoutLog_eq {action : Action ε α} (ignores : action.IgnoresLog) (context : Context) :
    (action context).withoutLog = (action context.withoutLog).withoutLog := by
  have onTop : action context = (action context.withoutLog).onContext (·.onTopOf context.log) :=
    ignores context.log context.withoutLog
  rw [onTop, Outcome.withoutLog, Outcome.onContext_onContext]
  rfl

theorem inSnapshot {action : Action ε α} (ignores : action.IgnoresLog) :
    action.inSnapshot.IgnoresLog := by
  intro older context
  have onCopy := ignores older { context with env := context.env.snapshot }
  rw [inSnapshot_eq, inSnapshot_eq, Outcome.onContext_onContext]
  exact (congrArg (Outcome.onContext _) onCopy).trans (Outcome.onContext_onContext _ _ _)

theorem closed : Closed (@IgnoresLog EvalError) where
  toStepwise := Commutes.stepwise Context.Unseen.onTopOf
  bindAll bindings older := Commutes.bindAll (.onTopOf older) bindings
  inSnapshot := inSnapshot

end IgnoresLog

theorem withoutLog_reported (builtin : Builtin) (action : Action EvalError Value)
    (context : Context) :
    (reported builtin action context).withoutLog = (action context).withoutLog := by
  unfold reported
  cases action context <;> rfl

end Action

namespace Evaluation

open Homoiconic.Action

theorem eval_ignoresLog (bound : Nat) (code : Atom) : (eval bound code).IgnoresLog :=
  eval_closed IgnoresLog.closed bound code

theorem sequence_ignoresLog (bound : Nat) (last : Value) (statements : List Atom) :
    (sequence (eval bound) last statements).IgnoresLog :=
  @sequence_congr _ IgnoresLog.closed.toStepwise (eval bound) (eval bound) statements last
    fun code _ => eval_ignoresLog bound code

/-- Statements that follow others are evaluated after them. -/
theorem sequence_append (ev : Evaluator) (last : Value) (first second : List Atom) :
    sequence ev last (first ++ second) =
      (do let value ← sequence ev last first; sequence ev value second) := by
  induction first generalizing last with
  | nil => rfl
  | cons statement rest ih =>
      simp only [List.cons_append, sequence, ih, bind_assoc]

/-- The evaluation of a call by name. -/
theorem eval_call (bound : Nat) {name : String} {callee : Value} (args : List Atom)
    {context : Context} (head : context.env.get? name = some callee) :
    eval (bound + 2) (.list (.symbol name :: args)) context =
      call (eval (bound + 1)) (bound + 1) callee args
        { context with log := [.evaluating (.symbol name),
          .evaluating (.list (.symbol name :: args))] ++ context.log } := by
  simp only [eval, meaning, record, lookup, Environment.fetch, head, Bind.bind, Action.bind]
  rfl

/-- The evaluation of a program, apart from the log. -/
theorem eval_program (bound : Nat) (statements : List Atom) {context : Context}
    (head : context.env.get? "do" = some (.builtin .sequence)) :
    (eval (bound + 2) (.list (.symbol "do" :: statements)) context).withoutLog =
      (sequence (eval (bound + 1)) .nil statements context.withoutLog).withoutLog := by
  have called : eval (bound + 2) (.list (.symbol "do" :: statements)) context =
      reported .sequence (sequence (eval (bound + 1)) .nil statements)
        { context with log := [.called .sequence statements, .evaluating (.symbol "do"),
          .evaluating (.list (.symbol "do" :: statements))] ++ context.log } := by
    rw [eval_call bound statements head]
    rfl
  rw [called, withoutLog_reported]
  exact (sequence_ignoresLog _ _ _).withoutLog_eq _

/-- The evaluation of an assignment, if that of the value does nothing else. -/
theorem eval_assignment (bound : Nat) (name : String) {code : Atom} {value : Value}
    {context : Context} (head : context.env.get? "set" = some (.builtin .assign))
    (evaluates : ∀ older, ∃ log, eval (bound + 1) code { context with log := older } =
      .returned value { context with log }) :
    ∃ log, eval (bound + 2) (.list [.symbol "set", .symbol name, code]) context =
      .returned .nil { context with env := context.env.set name value, log } := by
  let ready : Context := { context with
    log := [.called .assign [.symbol name, code], .evaluating (.symbol "set"),
      .evaluating (.list [.symbol "set", .symbol name, code])] ++ context.log }
  obtain ⟨log, evaluated⟩ := evaluates ready.log
  have assigned : perform (eval (bound + 1)) (bound + 1) (.assignment (.symbol name) code) ready =
      .returned .nil { ready with
        env := ready.env.set name value, log := .assigned name value :: log } := by
    simp only [perform, Atom.symbol?, expect, Bind.bind, Action.bind, Pure.pure, Action.pure]
    rw [evaluated]
    rfl
  have called : eval (bound + 2) (.list [.symbol "set", .symbol name, code]) context =
      reported .assign (perform (eval (bound + 1)) (bound + 1) (.assignment (.symbol name) code))
        ready := by
    rw [eval_call bound [.symbol name, code] head]
    rfl
  rw [called, reported, assigned]
  exact ⟨_, rfl⟩

end Evaluation

end Homoiconic
