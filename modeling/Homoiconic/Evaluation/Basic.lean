import Homoiconic.Evaluation.Action
import Homoiconic.Evaluation.Operation

/-! # Evaluation

`eval` gives atoms their meaning. Its first argument bounds how deep evaluations may nest and how
often a loop may turn, so that it is a function on all atoms; with a larger bound, an evaluation
that has ended stays as it is. Each rule is stated over the evaluation `ev` of the atoms that it
calls for.
-/

namespace Homoiconic

namespace Evaluation

open Homoiconic.Action

abbrev Evaluator := Atom → Action EvalError Value

section Rules

variable (ev : Evaluator)

/-- The integer that an atom evaluates to. -/
def integer (code : Atom) : Action EvalError Int64 := do
  expect .integer (← ev code).integer?

/-- The truth value that an atom evaluates to. -/
def boolean (code : Atom) : Action EvalError Bool := do
  expect .boolean (← ev code).boolean?

/-- The values of several atoms, from left to right. -/
def values : List Atom → Action EvalError (List Value)
  | [] => pure []
  | code :: rest => do
      let value ← ev code
      return value :: (← values rest)

/-- Go on with an arithmetic operation, one operand after the other. -/
def accumulate (kind : Arithmetic) : Int64 → List Atom → Action EvalError Int64
  | total, [] => pure total
  | total, code :: rest => do
      let operand ← integer ev code
      match kind.apply? total operand with
      | some total => accumulate kind total rest
      | none => fail .divisionByZero

/-- Evaluate statements in order; the value of the last one counts, and `last` if there is none. -/
def sequence : Value → List Atom → Action EvalError Value
  | last, [] => pure last
  | _, statement :: rest => do
      let value ← ev statement.unquoted
      sequence value rest

/-- Whether all conditions hold; those after one that fails are not evaluated. -/
def conjunction : List Atom → Action EvalError Bool
  | [] => pure true
  | condition :: rest => do
      if ← boolean ev condition then conjunction rest else return false

/-- Whether some condition holds; those after it are not evaluated. -/
def disjunction : List Atom → Action EvalError Bool
  | [] => pure false
  | condition :: rest => do
      if ← boolean ev condition then return true else disjunction rest

/-- As long as the condition holds, evaluate the body and then `advance`. -/
def iterate (condition advance body : Atom) : Nat → Action EvalError Unit
  | 0 => unfinished
  | bound + 1 => do
      if ← boolean ev condition then
        let _ ← ev body
        let _ ← ev advance
        iterate condition advance body bound

/-- Print the values of some atoms, each as soon as it is known, and nothing between them. -/
def printAll : List Atom → Action EvalError Unit
  | [] => pure ()
  | item :: rest => do
      let value ← ev item
      write value.text
      printAll rest

/-- What a call of a built-in does. -/
def perform (bound : Nat) : Operation → Action EvalError Value
  | .arithmetic kind first rest => do
      let start ← integer ev first
      return .integer (← accumulate ev kind start rest)
  | .comparison order left right => do
      let x ← integer ev left
      let y ← integer ev right
      return .boolean (order.holds x y)
  | .equality negated left right => do
      let x ← ev left
      let y ← ev right
      return .boolean (x.same y != negated)
  | .sequence statements => sequence ev .nil statements
  | .choice condition consequent alternative => do
      if ← boolean ev condition then ev consequent else ev alternative
  | .conjunction conditions => return .boolean (← conjunction ev conditions)
  | .disjunction conditions => return .boolean (← disjunction ev conditions)
  | .negation condition => return .boolean (!(← boolean ev condition))
  | .loop first condition advance body => do
      let _ ← ev first
      iterate ev condition advance body bound
      return .nil
  | .assignment target code => do
      let name ← expect .symbol target.symbol?
      let value ← ev code
      record (.assigned name value)
      bindAll [(name, value)]
      return .nil
  | .stepping amount target => do
      let name ← expect .symbol target.symbol?
      let n ← expect .integer (← lookup name).integer?
      bindAll [(name, .integer (n + amount))]
      return .integer (n + amount)
  | .closure kind parameters body => do
      let items ← expect .list parameters.items?
      let names ← expect .symbol (items.mapM Atom.symbol?)
      return .closure ⟨← freshIdentity, kind, names, body⟩
  | .evaluation code => ev code
  | .printing items => do
      printAll ev items
      write "\n"
      flush
      return .nil

/-- Call a built-in. Its arguments are counted before anything else happens. -/
def callBuiltin (bound : Nat) (builtin : Builtin) (args : List Atom) :
    Action EvalError Value :=
  match builtin.operation? args with
  | none => fail (.badArgCount builtin.name builtin.arity args.length)
  | some operation => do
      record (.called builtin args)
      reported builtin (perform ev bound operation)

/-- Do what a closure says, in bindings that are already a copy of the caller's. A lambda evaluates
    all arguments before it binds a parameter; an expander binds its parameters to the arguments as
    code, and evaluates the code that its body yields. -/
def enter (closure : Closure) (args : List Atom) : Action EvalError Value :=
  match closure.kind with
  | .lambda => do
      let values ← values ev args
      bindAll (closure.parameters.zip values)
      ev closure.body
  | .expander => do
      bindAll (closure.parameters.zip (args.map .atom))
      let expansion ← expect .quotedAtom (← ev closure.body).atom?
      record (.expanded expansion)
      ev expansion

/-- Call a closure. Its arguments are counted before anything else happens, and whatever it binds
    is gone after the call. -/
def callClosure (closure : Closure) (args : List Atom) : Action EvalError Value :=
  if closure.arity.admits args.length then do
    record (.entered closure args)
    inSnapshot (enter ev closure args)
  else fail (.badArgCount closure.kind.name closure.arity args.length)

/-- Call a value on arguments that are not evaluated yet. -/
def call (bound : Nat) (callee : Value) (args : List Atom) : Action EvalError Value :=
  match callee with
  | .builtin builtin => callBuiltin ev bound builtin args
  | .closure closure => callClosure ev closure args
  | value => fail (.notCallable value)

/-- What an atom means: a number itself, a quotation what it quotes, a symbol its value, the empty
    list nothing, and any other list the call of its first item on the others. -/
def meaning (bound : Nat) (code : Atom) : Action EvalError Value := do
  record (.evaluating code)
  match code with
  | .number n => return .integer n
  | .symbol name => lookup name
  | .quoted inner => return .atom inner
  | .list [] => return .nil
  | .list (head :: args) => do
      let callee ← ev head
      call ev bound callee args

end Rules

def eval : Nat → Evaluator
  | 0 => fun _ => unfinished
  | bound + 1 => meaning (eval bound) bound

def apply (bound : Nat) (callee : Value) (args : List Atom) : Action EvalError Value :=
  call (eval bound) bound callee args

end Evaluation

end Homoiconic
