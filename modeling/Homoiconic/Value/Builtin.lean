/-! # Built-in operations

The operations that a program can call before it has defined anything, with the numbers of
arguments they take. A built-in is known to a program only through the name it is bound to.
-/

namespace Homoiconic

inductive Arity where
  /-- Any number from `least` to `most`. -/
  | between (least most : Nat)
  /-- Any number from `least` on. -/
  | atLeast (least : Nat)
  deriving Repr, DecidableEq

namespace Arity

def exactly (count : Nat) : Arity :=
  .between count count

/-- Whether a call with this many arguments is allowed. -/
def admits (count : Nat) : Arity → Bool
  | .between least most => least ≤ count && count ≤ most
  | .atLeast least => least ≤ count

def describe : Arity → String
  | .between least most =>
      if least = most then s!"exactly {least}" else s!"from {least} to {most}"
  | .atLeast least => s!"at least {least}"

end Arity

inductive Builtin where
  | add
  | subtract
  | multiply
  | divide
  | equal
  | notEqual
  | less
  | atMost
  | greater
  | atLeast
  | sequence
  | choose
  | all
  | any
  | negate
  | loop
  | assign
  | increment
  | decrement
  | makeLambda
  | makeExpander
  | evaluate
  | print
  deriving Repr, DecidableEq

namespace Builtin

def every : List Builtin :=
  [.add, .subtract, .multiply, .divide, .equal, .notEqual, .less, .atMost, .greater, .atLeast,
    .sequence, .choose, .all, .any, .negate, .loop, .assign, .increment, .decrement, .makeLambda,
    .makeExpander, .evaluate, .print]

/-- The name that the operation is bound to at first. -/
def name : Builtin → String
  | .add => "+"
  | .subtract => "-"
  | .multiply => "*"
  | .divide => "/"
  | .equal => "="
  | .notEqual => "!="
  | .less => "<"
  | .atMost => "<="
  | .greater => ">"
  | .atLeast => ">="
  | .sequence => "do"
  | .choose => "if"
  | .all => "and"
  | .any => "or"
  | .negate => "not"
  | .loop => "for"
  | .assign => "set"
  | .increment => "incr"
  | .decrement => "decr"
  | .makeLambda => "lambda"
  | .makeExpander => "macro"
  | .evaluate => "eval"
  | .print => "print"

def arity : Builtin → Arity
  | .add | .subtract | .multiply | .divide => .atLeast 1
  | .equal | .notEqual | .less | .atMost | .greater | .atLeast => .exactly 2
  | .sequence | .all | .any | .print => .atLeast 0
  | .choose => .exactly 3
  | .loop => .exactly 4
  | .assign | .makeLambda | .makeExpander => .exactly 2
  | .negate | .increment | .decrement | .evaluate => .exactly 1

def describe (builtin : Builtin) : String :=
  s!"builtin function #<{builtin.name}>"

end Builtin

end Homoiconic
