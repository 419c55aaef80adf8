import Homoiconic.Evaluation.Bound
import Homoiconic.Proofs.Evaluation.Program

/-! # Calls that are evaluated

What is evaluated within some bound is evaluated to the same within every larger one, so one can
speak of what an atom evaluates to without a bound. A call of a built-in by a name comes to what the
built-in does with its arguments, after the records of the call.
-/

namespace Homoiconic

/-- The same context after one more record. -/
def Context.logging (context : Context) (entry : Record) : Context :=
  { context with log := entry :: context.log }

/-- The context in which a built-in that is called by a name begins its work. -/
def Context.calling (context : Context) (name : String) (builtin : Builtin) (args : List Atom) :
    Context :=
  { context with log := [.called builtin args, .evaluating (.symbol name),
      .evaluating (.list (.symbol name :: args))] ++ context.log }

theorem Builtin.mem_every (builtin : Builtin) : builtin ∈ every := by
  cases builtin <;> decide

/-- At first, every built-in is bound to its name: no two have the same one. -/
theorem Environment.get?_standard (builtin : Builtin) :
    standard.get? builtin.name = some (.builtin builtin) := by
  refine Std.ExtTreeMap.getElem?_ofList_of_mem (k := builtin.name)
    (Std.compare_eq_iff_eq.mpr rfl) ?_ ?_
  · simp only [Std.compare_eq_iff_eq]
    decide +kernel
  · exact List.mem_append_left _ (List.mem_map.mpr ⟨builtin, builtin.mem_every, rfl⟩)

theorem Action.bind_eq_returned_iff {ε α β : Type} {action : Action ε α} {next : α → Action ε β}
    {context after : Context} {result : β} :
    (action >>= next) context = .returned result after ↔
      ∃ value middle, action context = .returned value middle ∧
        next value middle = .returned result after := by
  simp only [Bind.bind, Action.bind]
  cases action context with
  | returned value middle =>
      constructor
      · intro ends
        exact ⟨value, middle, rfl, ends⟩
      · rintro ⟨_, _, ⟨⟩, ends⟩
        exact ends
  | failed | unfinished => simp

namespace Evaluation

/-- The evaluation of the atom ends with a value, if it is given enough steps. -/
def Evaluates (code : Atom) (context : Context) (value : Value) (after : Context) : Prop :=
  ∃ bound, eval bound code context = .returned value after

namespace Evaluates

variable {code : Atom} {context after after' : Context} {value value' : Value}

theorem eval_eq (evaluates : Evaluates code context value after) :
    ∃ least, ∀ bound, least ≤ bound → eval bound code context = .returned value after := by
  obtain ⟨least, returned⟩ := evaluates
  refine ⟨least, ?_⟩
  intro bound le
  rw [eval_of_le le (by simp [returned]), returned]

/-- Within any bound, the evaluation ends so or not at all. -/
theorem eval_eq_or (evaluates : Evaluates code context value after) (bound : Nat) :
    eval bound code context = .unfinished ∨ eval bound code context = .returned value after := by
  obtain ⟨least, returned⟩ := evaluates
  by_cases ends : eval bound code context = .unfinished
  · exact .inl ends
  · refine .inr ?_
    rcases Nat.le_total bound least with le | le
    · rw [← eval_of_le le ends, returned]
    · rw [eval_of_le le (by simp [returned]), returned]

theorem unique (evaluates : Evaluates code context value after)
    (again : Evaluates code context value' after') : value = value' ∧ after = after' := by
  obtain ⟨bound, returned⟩ := again
  rcases evaluates.eval_eq_or bound with endless | same
  · rw [endless] at returned
    cases returned
  · rw [same] at returned
    cases returned
    exact ⟨rfl, rfl⟩

/-- What goes on after the evaluation of an atom does not end if it does not end where that
    evaluation leads. -/
theorem bind_eq_unfinished {α : Type} (evaluates : Evaluates code context value after)
    (bound : Nat) {next : Value → Action EvalError α} (later : next value after = .unfinished) :
    (eval bound code >>= next) context = .unfinished := by
  simp only [Bind.bind, Action.bind]
  rcases evaluates.eval_eq_or bound with endless | returned
  · rw [endless]
  · rw [returned]
    exact later

end Evaluates

/-- What a call of a built-in on as many arguments as it takes comes to. -/
theorem callBuiltin_eq {ev : Evaluator} {bound : Nat} {builtin : Builtin} {args : List Atom}
    {operation : Operation} (call : builtin.operation? args = some operation)
    (context : Context) :
    callBuiltin ev bound builtin args context =
      Action.reported builtin (perform ev bound operation)
        (context.logging (.called builtin args)) := by
  simp only [callBuiltin, call]
  rfl

/-- A call of a built-in with a number of arguments that it does not take fails at once, whatever
    evaluation would do. -/
theorem call_builtin_refused {ev : Evaluator} {builtin : Builtin} {args : List Atom}
    (refused : builtin.arity.admits args.length = false) (bound : Nat) :
    call ev bound (.builtin builtin) args =
      Action.fail (.badArgCount builtin.name builtin.arity args.length) := by
  rw [← builtin.operation?_isSome args, Option.isSome_eq_false_iff,
    Option.isNone_iff_eq_none] at refused
  rw [call, callBuiltin, refused]

theorem call_closure_refused {ev : Evaluator} {closure : Closure} {args : List Atom}
    (refused : closure.arity.admits args.length = false) (bound : Nat) :
    call ev bound (.closure closure) args =
      Action.fail (.badArgCount closure.kind.name closure.arity args.length) := by
  simp only [call, callClosure, refused, Bool.false_eq_true, if_false]

theorem eval_symbol {name : String} {value : Value} {context : Context}
    (bound : context.env.get? name = some value) (steps : Nat) :
    eval (steps + 1) (.symbol name) context =
      .returned value (context.logging (.evaluating (.symbol name))) := by
  have found : (context.logging (.evaluating (.symbol name))).env.fetch name = .ok value := by
    simp only [Environment.fetch, Context.logging, bound]
  change Action.lookup name (context.logging (.evaluating (.symbol name))) = _
  rw [Action.lookup, found]

theorem eval_unknown {name : String} {context : Context}
    (unknown : context.env.get? name = none) (steps : Nat) :
    eval (steps + 1) (.symbol name) context =
      .failed (.undefinedVariable name) (context.logging (.evaluating (.symbol name))) := by
  have missing : (context.logging (.evaluating (.symbol name))).env.fetch name =
      .error ⟨name⟩ := by
    simp only [Environment.fetch, Context.logging, unknown]
  change Action.lookup name (context.logging (.evaluating (.symbol name))) = _
  rw [Action.lookup, missing]

/-- The evaluation of a list, once its head is evaluated. -/
theorem eval_list {bound : Nat} {head : Atom} {args : List Atom} {callee : Value}
    {context middle : Context}
    (evaluated : eval bound head (context.logging (.evaluating (.list (head :: args)))) =
      .returned callee middle) :
    eval (bound + 1) (.list (head :: args)) context =
      call (eval bound) bound callee args middle := by
  change (do let callee ← eval bound head; call (eval bound) bound callee args)
    (context.logging (.evaluating (.list (head :: args)))) = _
  simp only [Bind.bind, Action.bind, evaluated]

theorem eval_list_failed {bound : Nat} {head : Atom} {args : List Atom} {error : EvalError}
    {context middle : Context}
    (fails : eval bound head (context.logging (.evaluating (.list (head :: args)))) =
      .failed error middle) :
    eval (bound + 1) (.list (head :: args)) context = .failed error middle := by
  change (do let callee ← eval bound head; call (eval bound) bound callee args)
    (context.logging (.evaluating (.list (head :: args)))) = _
  simp only [Bind.bind, Action.bind, fails]

/-- The evaluation of a call of a built-in by a name. -/
theorem eval_builtin {name : String} {builtin : Builtin} {args : List Atom}
    {operation : Operation} {context : Context}
    (head : context.env.get? name = some (.builtin builtin))
    (call : builtin.operation? args = some operation) (bound : Nat) :
    eval (bound + 2) (.list (.symbol name :: args)) context =
      Action.reported builtin (perform (eval (bound + 1)) (bound + 1) operation)
        (context.calling name builtin args) := by
  rw [eval_call bound args head]
  exact callBuiltin_eq call _

end Evaluation

end Homoiconic
