import Homoiconic.Evaluation.Basic
import Homoiconic.Reading.Basic

/-! # Sessions

A session runs one program text after the other on the same context. A run is all or nothing for the
bindings: one that fails leaves them as they were. What has been printed stays printed.
-/

namespace Homoiconic

inductive RunError where
  | unreadable (cause : ReadError)
  | evaluation (cause : EvalError)
  deriving Repr, DecidableEq

def RunError.message : RunError → String
  | .unreadable cause => "syntax error: " ++ cause.message
  | .evaluation cause => cause.message

namespace Session

/-- A bound that no run reaches. -/
def ample : Nat :=
  1 <<< 62

/-- The context in which a session begins. -/
def start (sink : Sink) : Context where
  env := .standard
  sink := sink

/-- Do something to the bindings for good, or, if it fails, not at all. -/
def atomically (action : Action EvalError Value) : Action RunError Value :=
  fun context =>
    match action { context with env := context.env.snapshot } with
    | .returned value after => .returned value { after with env := after.env.commit }
    | .failed error after =>
        .failed (.evaluation error)
          { after with env := after.env.restore, log := .rolledBack error :: after.log }
    | .unfinished => .unfinished

/-- Read a program text, and log what is remarkable about it. -/
def load (source : String) : Action RunError Atom :=
  fun context =>
    let reading := Reading.ofSource source
    let remarked := (reading.remarks.map Record.juxtaposed).reverse ++ context.log
    match reading.result with
    | .ok program => .returned program { context with log := .readProgram program :: remarked }
    | .error cause => .failed (.unreadable cause) { context with log := remarked }

/-- Run a program text; its value is that of its last statement. -/
def run (bound : Nat) (source : String) : Action RunError Value := do
  let program ← load source
  atomically (Evaluation.eval bound program)

/-- Run a program text and print its value, unless it is nil. -/
def rep (bound : Nat) (source : String) : Action RunError (Option String) := do
  let value ← run bound source
  return if value.isNil then none else some value.text

end Session

end Homoiconic
