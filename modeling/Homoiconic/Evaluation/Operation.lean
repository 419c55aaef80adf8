import Homoiconic.Value.Basic

/-! # Calls of built-ins

An `Operation` is a call of a built-in with its arguments in their roles. `Builtin.operation?` sorts
the arguments of a call into their roles, and refuses just those calls that the arity refuses, as
`operation?_isSome` says. The arguments are still code.
-/

namespace Homoiconic

inductive Arithmetic where
  | add
  | subtract
  | multiply
  | divide
  deriving Repr, DecidableEq

/-- The result of an operation on 64-bit integers, which wraps around, and rounds toward zero. There
    is none for a division by zero. -/
def Arithmetic.apply? : Arithmetic → Int64 → Int64 → Option Int64
  | .add, x, y => some (x + y)
  | .subtract, x, y => some (x - y)
  | .multiply, x, y => some (x * y)
  | .divide, x, y => if y = 0 then none else some (x / y)

inductive Comparison where
  | less
  | atMost
  | greater
  | atLeast
  deriving Repr, DecidableEq

def Comparison.holds : Comparison → Int64 → Int64 → Bool
  | .less, x, y => x < y
  | .atMost, x, y => x ≤ y
  | .greater, x, y => y < x
  | .atLeast, x, y => y ≤ x

namespace Atom

/-- The atoms that an evaluation of this one may evaluate itself. -/
def operands : Atom → List Atom
  | .list (head :: args) => head :: (args ++ args.map unquoted)
  | _ => []

/-- The name that a call on these arguments may bind: the first of one or two, if it is a symbol. -/
def targetOf? : List Atom → Option String
  | [.symbol name] | [.symbol name, _] => some name
  | _ => none

/-- The name that an evaluation of this atom may bind itself. -/
def target? : Atom → Option String
  | .list (_ :: args) => targetOf? args
  | _ => none

end Atom

/-- A call of a built-in, with each argument in its role. -/
inductive Operation where
  /-- An operation on the operands, from the first on. -/
  | arithmetic (kind : Arithmetic) (first : Atom) (rest : List Atom)
  | comparison (order : Comparison) (left right : Atom)
  /-- Whether two values are the same, or, if `negated`, whether they differ. -/
  | equality (negated : Bool) (left right : Atom)
  | sequence (statements : List Atom)
  | choice (condition consequent alternative : Atom)
  | conjunction (conditions : List Atom)
  | disjunction (conditions : List Atom)
  | negation (condition : Atom)
  /-- A loop: `first` once, then, as long as the condition holds, the body and `advance`. -/
  | loop (first condition advance body : Atom)
  | assignment (target value : Atom)
  /-- Adding a number to the integer that a name is bound to. -/
  | stepping (amount : Int64) (target : Atom)
  | closure (kind : ClosureKind) (parameters body : Atom)
  | evaluation (code : Atom)
  /-- Printing values on a line. -/
  | printing (items : List Atom)
  deriving Repr

namespace Operation

/-- The atoms that the operation may evaluate. -/
def parts : Operation → List Atom
  | .arithmetic _ first rest => first :: rest
  | .comparison _ left right | .equality _ left right => [left, right]
  | .sequence statements => statements.map Atom.unquoted
  | .choice condition consequent alternative => [condition, consequent, alternative]
  | .conjunction conditions | .disjunction conditions => conditions
  | .negation condition => [condition]
  | .loop first condition advance body => [first, condition, advance, body]
  | .assignment _ value => [value]
  | .stepping .. | .closure .. => []
  | .evaluation code => [code]
  | .printing items => items

/-- The name that the operation may bind. -/
def target? : Operation → Option String
  | .assignment target _ | .stepping _ target => target.symbol?
  | _ => none

end Operation

/-- The call of a built-in on some arguments, if it takes that many. -/
def Builtin.operation? : Builtin → List Atom → Option Operation
  | .add, first :: rest => some (.arithmetic .add first rest)
  | .subtract, first :: rest => some (.arithmetic .subtract first rest)
  | .multiply, first :: rest => some (.arithmetic .multiply first rest)
  | .divide, first :: rest => some (.arithmetic .divide first rest)
  | .equal, [left, right] => some (.equality false left right)
  | .notEqual, [left, right] => some (.equality true left right)
  | .less, [left, right] => some (.comparison .less left right)
  | .atMost, [left, right] => some (.comparison .atMost left right)
  | .greater, [left, right] => some (.comparison .greater left right)
  | .atLeast, [left, right] => some (.comparison .atLeast left right)
  | .sequence, statements => some (.sequence statements)
  | .choose, [condition, consequent, alternative] =>
      some (.choice condition consequent alternative)
  | .all, conditions => some (.conjunction conditions)
  | .any, conditions => some (.disjunction conditions)
  | .negate, [condition] => some (.negation condition)
  | .loop, [first, condition, advance, body] => some (.loop first condition advance body)
  | .assign, [target, value] => some (.assignment target value)
  | .increment, [target] => some (.stepping 1 target)
  | .decrement, [target] => some (.stepping (-1) target)
  | .makeLambda, [parameters, body] => some (.closure .lambda parameters body)
  | .makeExpander, [parameters, body] => some (.closure .expander parameters body)
  | .evaluate, [code] => some (.evaluation code)
  | .print, items => some (.printing items)
  | _, _ => none

/-- An operation evaluates only arguments, and what they quote. -/
theorem Builtin.parts_subset {builtin : Builtin} {args : List Atom} {operation : Operation}
    (call : builtin.operation? args = some operation) :
    operation.parts ⊆ args ++ args.map Atom.unquoted := by
  unfold operation? at call
  split at call <;> cases call <;> simp only [Operation.parts]
  case h_11 => exact List.subset_append_right _ _
  all_goals grind

theorem Atom.eq_of_symbol?_eq_some {code : Atom} {name : String}
    (named : code.symbol? = some name) : code = .symbol name := by
  cases code <;> simp_all [symbol?]

theorem Builtin.target?_of_operation? {builtin : Builtin} {args : List Atom}
    {operation : Operation} (call : builtin.operation? args = some operation) {name : String}
    (target : operation.target? = some name) : Atom.targetOf? args = some name := by
  unfold operation? at call
  split at call <;> cases call <;> simp only [Operation.target?, reduceCtorEq] at target
  all_goals rw [Atom.eq_of_symbol?_eq_some target]; rfl

/-- A call is an operation just if the arity of the built-in admits its number of arguments. -/
theorem Builtin.operation?_isSome (builtin : Builtin) (args : List Atom) :
    (builtin.operation? args).isSome = builtin.arity.admits args.length := by
  cases builtin <;> rcases args with _ | ⟨a, _ | ⟨b, _ | ⟨c, _ | ⟨d, _ | ⟨e, rest⟩⟩⟩⟩⟩ <;>
    simp [operation?, arity, Arity.admits, Arity.exactly]

end Homoiconic
