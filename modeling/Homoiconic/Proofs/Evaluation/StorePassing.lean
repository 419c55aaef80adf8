import Homoiconic.Proofs.Evaluation.SavedStack

/-! # Calls without snapshots

A second evaluator passes the bindings from one evaluation to the next and knows no stack. A call of
a closure in it is spelled out: where the arguments and the body are evaluated, what the parameters
override, and that the caller goes on with its own bindings. `eval_eq` says that it agrees with the
evaluator that takes snapshots, at all depths of nesting: a stack is one way to implement it.
-/

namespace Homoiconic

/-- The same context, with other bindings in force. -/
def Context.withActive (context : Context) (active : Bindings) : Context :=
  { context with env := { context.env with active } }

/-- Bindings on top of others. Of several for one name the last counts. -/
def Bindings.override (base : Bindings) (bindings : List (String × Value)) : Bindings :=
  base.insertMany bindings

theorem Bindings.getElem?_override (base : Bindings) (bindings : List (String × Value))
    (name : String) :
    (base.override bindings)[name]? = (bindings.reverse.lookup name).or base[name]? := by
  induction bindings generalizing base with
  | nil => simp [override]
  | cons binding rest ih =>
      obtain ⟨bound, value⟩ := binding
      have later := ih (base.insert bound value)
      simp only [override, Std.ExtTreeMap.insertMany_cons, List.reverse_cons,
        List.lookup_append] at later ⊢
      rw [later, Option.or_assoc, Std.ExtTreeMap.getElem?_insert]
      by_cases same : bound = name
      · simp [same]
      · have other : (name == bound) = false := by
          rw [beq_eq_false_iff_ne]
          exact fun h => same h.symm
        simp [same, List.lookup_cons, other]

theorem Environment.setAll_eq (env : Environment) (bindings : List (String × Value)) :
    env.setAll bindings = { env with active := env.active.override bindings } := by
  induction bindings generalizing env with
  | nil => rfl
  | cons binding rest ih =>
      obtain ⟨bound, value⟩ := binding
      have later := ih (env.set bound value)
      simp only [setAll, List.foldl_cons] at later ⊢
      rw [later]
      simp only [set, Bindings.override, Std.ExtTreeMap.insertMany_cons]

open Homoiconic.Action
open Homoiconic.Evaluation (Evaluator callBuiltin callClosure)

namespace StorePassing

section Rules

variable (ev : Evaluator)

/-- Evaluate arguments from left to right, each in the bindings that those before it have left. -/
def arguments : List Atom → Context → Outcome EvalError (List Value)
  | [], context => .returned [] context
  | code :: rest, context =>
      match ev code context with
      | .returned value next =>
          match arguments rest next with
          | .returned values after => .returned (value :: values) after
          | .failed error after => .failed error after
          | .unfinished => .unfinished
      | .failed error after => .failed error after
      | .unfinished => .unfinished

/-- The arguments of a lambda are evaluated in the caller's bindings, and its body in those that
    the arguments have left, overridden by the parameters. -/
def lambda (closure : Closure) (args : List Atom) (context : Context) : Outcome EvalError Value :=
  match arguments ev args context with
  | .returned values after =>
      ev closure.body
        (after.withActive (after.env.active.override (closure.parameters.zip values)))
  | .failed error after => .failed error after
  | .unfinished => .unfinished

/-- The body of an expander is evaluated in the caller's bindings, overridden by the parameters as
    code. It has to yield code, which is evaluated in the bindings that the body has left. -/
def expander (closure : Closure) (args : List Atom) (context : Context) :
    Outcome EvalError Value :=
  let inside := context.withActive
    (context.env.active.override (closure.parameters.zip (args.map .atom)))
  match ev closure.body inside with
  | .returned (.atom expansion) after =>
      ev expansion { after with log := .expanded expansion :: after.log }
  | .returned _ after => .failed (.typeMismatch .quotedAtom) after
  | .failed error after => .failed error after
  | .unfinished => .unfinished

/-- A call of a closure on as many arguments as it takes: however it ends, the caller goes on with
    the bindings that it had. -/
def call (closure : Closure) (args : List Atom) : Action EvalError Value :=
  fun context =>
    let entered := { context with log := .entered closure args :: context.log }
    let outcome :=
      match closure.kind with
      | .lambda => lambda ev closure args entered
      | .expander => expander ev closure args entered
    outcome.onContext (·.withActive context.env.active)

end Rules

/-- Evaluate an atom within a bound, without snapshots. -/
def eval : Nat → Evaluator
  | 0 => fun _ => unfinished
  | bound + 1 => fun code => do
      record (.evaluating code)
      match code with
      | .number n => return .integer n
      | .symbol name => lookup name
      | .quoted inner => return .atom inner
      | .list [] => return .nil
      | .list (head :: args) =>
          match ← eval bound head with
          | .builtin builtin => callBuiltin (eval bound) bound builtin args
          | .closure closure =>
              if closure.arity.admits args.length then call (eval bound) closure args
              else fail (.badArgCount closure.kind.name closure.arity args.length)
          | value => fail (.notCallable value)

section Agreement

variable {ev : Evaluator}

theorem values_eq (codes : List Atom) (context : Context) :
    Evaluation.values ev codes context = arguments ev codes context := by
  induction codes generalizing context with
  | nil => rfl
  | cons code rest ih =>
      simp only [Evaluation.values, arguments, Bind.bind, Action.bind]
      cases ev code context with
      | returned value next =>
          simp only [ih next]
          cases arguments ev rest next <;> rfl
      | failed error after => rfl
      | unfinished => rfl

theorem bindAll_eq (bindings : List (String × Value)) (context : Context) :
    (bindAll bindings : Action EvalError Unit) context =
      .returned () (context.withActive (context.env.active.override bindings)) := by
  simp only [bindAll, Environment.setAll_eq]
  rfl

theorem enter_lambda {closure : Closure} (isLambda : closure.kind = .lambda) (args : List Atom)
    (context : Context) :
    Evaluation.enter ev closure args context = lambda ev closure args context := by
  simp only [Evaluation.enter, isLambda, lambda, Bind.bind, Action.bind, values_eq]
  cases arguments ev args context with
  | returned values after => simp only [bindAll_eq]
  | failed error after => rfl
  | unfinished => rfl

theorem enter_expander {closure : Closure} (isExpander : closure.kind = .expander)
    (args : List Atom) (context : Context) :
    Evaluation.enter ev closure args context = expander ev closure args context := by
  simp only [Evaluation.enter, isExpander, expander, Bind.bind, Action.bind, bindAll_eq]
  cases ev closure.body (context.withActive
      (context.env.active.override (closure.parameters.zip (args.map .atom)))) with
  | returned value after => cases value <;> rfl
  | failed error after => rfl
  | unfinished => rfl

/-- Among evaluations that ignore the saved bindings, a call that takes a snapshot is one that puts
    the caller's bindings back. -/
theorem callClosure_eq (ignores : ∀ code, (ev code).IgnoresSaved) {closure : Closure}
    {args : List Atom} (admitted : closure.arity.admits args.length) :
    callClosure ev closure args = call ev closure args := by
  funext context
  have entering : (Evaluation.enter ev closure args).IgnoresSaved :=
    Evaluation.enter_closed IgnoresSaved.closed ignores closure args
  let entered : Context := { context with log := .entered closure args :: context.log }
  have onCopy : callClosure ev closure args context =
      (Evaluation.enter ev closure args entered).onContext
        fun after => { after with env := context.env } := by
    rw [callClosure, if_pos admitted]
    exact entering.inSnapshot_eq entered
  have spelledOut : call ev closure args context =
      (Evaluation.enter ev closure args entered).onContext (·.withActive context.env.active) := by
    unfold call
    cases kind : closure.kind with
    | lambda => rw [enter_lambda kind]
    | expander => rw [enter_expander kind]
  -- One brings all bindings back, the other only those in force: the saved ones never changed.
  rw [onCopy, spelledOut]
  refine Outcome.onContext_congr ?_
  intro after ends
  have saved : after.env.saved = entered.env.saved := entering.saved_after ends
  simp only [Context.withActive, saved, entered]

/-- The two evaluators agree on every atom and within every bound. -/
theorem eval_eq (bound : Nat) : Evaluation.eval bound = eval bound := by
  induction bound with
  | zero => rfl
  | succ bound ih =>
      funext code
      have ignores := Evaluation.eval_ignoresSaved bound
      rw [ih] at ignores
      simp only [Evaluation.eval, eval, Evaluation.meaning, ih]
      congr 1
      funext _
      cases code with
      | number | symbol | quoted => rfl
      | list items =>
          cases items with
          | nil => rfl
          | cons head args =>
              simp only
              congr 1
              funext callee
              cases callee with
              | closure closure =>
                  simp only [Evaluation.call]
                  split
                  · exact callClosure_eq ignores ‹_›
                  · rename_i refused
                    rw [callClosure, if_neg refused]
              | nil | integer | boolean | atom | builtin => rfl

theorem apply_closure_eq (bound : Nat) {closure : Closure} {args : List Atom}
    (admitted : closure.arity.admits args.length) :
    Evaluation.apply bound (.closure closure) args = call (eval bound) closure args := by
  have agreed : callClosure (Evaluation.eval bound) closure args =
      call (Evaluation.eval bound) closure args :=
    callClosure_eq (Evaluation.eval_ignoresSaved bound) admitted
  rw [Evaluation.apply, Evaluation.call, agreed, eval_eq]

end Agreement

/-- A call of a closure on as many arguments as it takes does what `call` spells out, and so do the
    calls inside it. However it ends, the caller has its bindings again. Of several parameters of
    one name the last counts, and the other names keep their values. -/
theorem closure_call_refines (bound : Nat) (closure : Closure) (args : List Atom)
    (context : Context) (admitted : closure.arity.admits args.length) :
    Evaluation.apply bound (.closure closure) args context =
        call (eval bound) closure args context ∧
      (∀ code, Evaluation.eval bound code = eval bound code) ∧
      (∀ after, (Evaluation.apply bound (.closure closure) args context).after? = some after →
        after.env = context.env) ∧
      ∀ (base : Bindings) bindings name,
        (base.override bindings)[name]? = (bindings.reverse.lookup name).or base[name]? := by
  refine ⟨?_, ?_, ?_, Bindings.getElem?_override⟩
  · rw [apply_closure_eq bound admitted]
  · intro code
    rw [eval_eq]
  · intro after ends
    have stack : after.env.saved = context.env.saved :=
      (Evaluation.apply_ignoresSaved bound (.closure closure) args).saved_after ends
    rw [apply_closure_eq bound admitted, call, Outcome.after?_onContext] at ends
    obtain ⟨last, _, rfl⟩ := Option.map_eq_some_iff.mp ends
    simp only [Context.withActive] at stack ⊢
    rw [stack]

/-- With two parameters of one name, the body sees the second argument. -/
theorem closure_call_refines_repeated :
    (Arity.exactly 2).admits 2 ∧
      Evaluation.apply 2 (.closure ⟨0, .lambda, ["x", "x"], .symbol "x"⟩) [.number 1, .number 2]
          { env := .empty } =
        call (eval 2) ⟨0, .lambda, ["x", "x"], .symbol "x"⟩ [.number 1, .number 2]
          { env := .empty } ∧
      ∃ after, call (eval 2) ⟨0, .lambda, ["x", "x"], .symbol "x"⟩ [.number 1, .number 2]
          { env := .empty } = .returned (.integer 2) after :=
  ⟨rfl, (closure_call_refines 2 _ _ _ rfl).1, _, rfl⟩

end StorePassing

end Homoiconic
