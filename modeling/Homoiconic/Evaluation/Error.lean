import Homoiconic.Sink
import Homoiconic.Value.Basic

/-! # Why an evaluation fails -/

namespace Homoiconic

/-- What was wanted where something else was found. -/
inductive Expectation where
  | integer
  | boolean
  /-- A symbol in the code. -/
  | symbol
  /-- A list in the code. -/
  | list
  /-- An atom as a value. -/
  | quotedAtom
  deriving Repr, DecidableEq

def Expectation.describe : Expectation → String
  | .integer => "expected an integer"
  | .boolean => "expected a boolean"
  | .symbol => "expected a symbol"
  | .list => "expected a list"
  | .quotedAtom => "expected a quoted atom"

inductive EvalError where
  | undefinedVariable (name : String)
  /-- A call of a value that is neither a built-in nor a closure. -/
  | notCallable (value : Value)
  /-- A call with a number of arguments that the callable, known by `callee`, does not take. -/
  | badArgCount (callee : String) (arity : Arity) (count : Nat)
  /-- A value or a piece of code of the wrong kind. -/
  | typeMismatch (expected : Expectation)
  | divisionByZero
  | output (cause : SinkError)
  deriving Repr, DecidableEq

def EvalError.message : EvalError → String
  | .undefinedVariable name => s!"undefined variable '{name}'"
  | .notCallable value => value.text ++ " is not callable"
  | .badArgCount callee arity count =>
      "When evaluating " ++ callee ++ " expected " ++ arity.describe ++
        s!" arguments, but received {count} arguments"
  | .typeMismatch expected => "type mismatch: " ++ expected.describe
  | .divisionByZero => "cannot divide by zero!"
  | .output cause => "io error: " ++ cause.message

end Homoiconic
