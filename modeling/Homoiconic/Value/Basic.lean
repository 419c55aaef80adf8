import Homoiconic.Atom.Basic
import Homoiconic.Value.Builtin

/-! # Values

What evaluation yields and names are bound to. Two closures are the same value only if one is a
copy of the other: every closure is made with an identity of its own, and `Value.same` looks at
nothing else.
-/

namespace Homoiconic

/-- How a closure treats its arguments. -/
inductive ClosureKind where
  /-- The arguments are evaluated before the call. -/
  | lambda
  /-- The arguments are taken as code, and so is the result. -/
  | expander
  deriving Repr, DecidableEq

def ClosureKind.name : ClosureKind → String
  | .lambda => "lambda"
  | .expander => "macro"

structure Closure where
  /-- The number that tells this closure from all others. -/
  identity : Nat
  kind : ClosureKind
  parameters : List String
  body : Atom
  deriving Repr, DecidableEq

namespace Closure

/-- A closure takes one argument for each parameter. -/
def arity (closure : Closure) : Arity :=
  .exactly closure.parameters.length

/-- The printed text: the kind and the parameters. -/
def text (closure : Closure) : String :=
  "#<" ++ closure.kind.name ++ " (" ++ " ".intercalate closure.parameters ++ ")>"

end Closure

inductive Value where
  | nil
  | integer (value : Int64)
  | boolean (value : Bool)
  /-- An atom, held as data. -/
  | atom (code : Atom)
  | builtin (operation : Builtin)
  | closure (function : Closure)
  deriving Repr, DecidableEq

namespace Value

/-- Whether two values are the same to a program. -/
def same : Value → Value → Bool
  | .nil, .nil => true
  | .integer x, .integer y => x == y
  | .boolean x, .boolean y => x == y
  | .atom x, .atom y => x == y
  | .builtin x, .builtin y => x == y
  | .closure x, .closure y => x.identity == y.identity
  | _, _ => false

def integer? : Value → Option Int64
  | .integer n => some n
  | _ => none

def boolean? : Value → Option Bool
  | .boolean b => some b
  | _ => none

def atom? : Value → Option Atom
  | .atom code => some code
  | _ => none

def isNil : Value → Bool
  | .nil => true
  | _ => false

def isBuiltin : Value → Bool
  | .builtin _ => true
  | _ => false

/-- Whether a call of the value is more than an error. -/
def isCallable : Value → Bool
  | .builtin _ | .closure _ => true
  | _ => false

def text : Value → String
  | .nil => "nil"
  | .integer value => toString value.toInt
  | .boolean true => "true"
  | .boolean false => "false"
  | .atom code => code.text
  | .builtin operation => "#<builtin " ++ operation.name ++ ">"
  | .closure function => function.text

end Value

end Homoiconic
