import Homoiconic.Environment
import Homoiconic.Evaluation.Record

/-! # Actions

An action works on a context: the environment, the sink, the log, and the supply of identities for
closures. It ends with a value or an error, and both leave a context behind; or it does not end
within the steps that it was allowed, which is no answer at all and never mistaken for one.
-/

namespace Homoiconic

/-- What an evaluation works on. -/
structure Context where
  env : Environment
  sink : Sink := {}
  /-- What has been done, the latest first. -/
  log : List Record := []
  /-- All closures made so far have identities below this number. -/
  nextIdentity : Nat := 0

inductive Outcome (ε α : Type) where
  | returned (value : α) (after : Context)
  | failed (error : ε) (after : Context)
  /-- The action did not end within the steps that it was allowed. -/
  | unfinished

def Action (ε α : Type) : Type :=
  Context → Outcome ε α

namespace Action

variable {ε α β : Type}

@[inline]
protected def pure (value : α) : Action ε α :=
  fun context => .returned value context

/-- Do one thing and then another, unless the first fails. -/
@[inline]
protected def bind (first : Action ε α) (next : α → Action ε β) : Action ε β :=
  fun context =>
    match first context with
    | .returned value after => next value after
    | .failed error after => .failed error after
    | .unfinished => .unfinished

instance : Monad (Action ε) where
  pure := Action.pure
  bind := Action.bind

instance : LawfulMonad (Action ε) :=
  .mk' _
    (by
      intro α action
      funext context
      simp only [Functor.map, Action.bind]
      cases action context <;> rfl)
    (fun _ _ => rfl)
    (by
      intro α β γ action f g
      funext context
      simp only [Bind.bind, Action.bind]
      cases action context <;> rfl)

def fail (error : ε) : Action ε α :=
  fun context => .failed error context

def unfinished : Action ε α :=
  fun _ => .unfinished

def record (entry : Record) : Action ε Unit :=
  fun context => .returned () { context with log := entry :: context.log }

def bindAll (bindings : List (String × Value)) : Action ε Unit :=
  fun context => .returned () { context with env := context.env.setAll bindings }

/-- Take an identity that no closure has. -/
def freshIdentity : Action ε Nat :=
  fun context =>
    .returned context.nextIdentity { context with nextIdentity := context.nextIdentity + 1 }

def lookup (name : String) : Action EvalError Value :=
  fun context =>
    match context.env.fetch name with
    | .ok value => .returned value context
    | .error unknown => .failed (.undefinedVariable unknown.name) context

/-- Ask the sink for something. -/
def ask (request : Sink → Except SinkError Unit × Sink) : Action EvalError Unit :=
  fun context =>
    match request context.sink with
    | (.ok (), sink) => .returned () { context with sink }
    | (.error cause, sink) => .failed (.output cause) { context with sink }

def write (text : String) : Action EvalError Unit :=
  ask (·.write text)

def flush : Action EvalError Unit :=
  ask Sink.flush

/-- Insist on something being of the expected kind. -/
def expect (expected : Expectation) : Option α → Action EvalError α
  | some value => pure value
  | none => fail (.typeMismatch expected)

/-- Do something on a snapshot of the bindings, and bring the bindings back in any case. -/
def inSnapshot (action : Action ε α) : Action ε α :=
  fun context =>
    match action { context with env := context.env.snapshot } with
    | .returned value after => .returned value { after with env := after.env.restore }
    | .failed error after => .failed error { after with env := after.env.restore }
    | .unfinished => .unfinished

/-- Do the work of a built-in, and log how it ends. -/
def reported (builtin : Builtin) (action : Action EvalError Value) : Action EvalError Value :=
  fun context =>
    match action context with
    | .returned value after =>
        .returned value { after with log := .resulted builtin value :: after.log }
    | .failed error after => .failed error { after with log := .failed builtin error :: after.log }
    | .unfinished => .unfinished

end Action

end Homoiconic
