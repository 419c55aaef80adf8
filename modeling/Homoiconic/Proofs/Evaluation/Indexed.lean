import Homoiconic.Evaluation.Basic

/-! # Evaluation by positions

A built-in can also take its arguments out of the list by their positions, relying on the arity
that has been checked before, and a division can rely on a divisor that is not zero. An evaluation
of this sort stops with a fault where something is not as it has to be. It never does:
`Indexed.eval_eq` says that it does what the evaluation does that gets its arguments sorted into
their roles, whatever the context.
-/

namespace Homoiconic

namespace Indexed

open Homoiconic.Action

/-- Why an evaluation stops. -/
inductive Stop where
  | failed (cause : EvalError)
  /-- Something is not as it has to be. -/
  | fault

/-- An action in which there is no fault. -/
def faultless {α : Type} (action : Action EvalError α) : Action Stop α :=
  fun context =>
    match action context with
    | .returned value after => .returned value after
    | .failed cause after => .failed (.failed cause) after
    | .unfinished => .unfinished

abbrev Evaluator := Atom → Action Stop Value

section Steps

variable {α : Type}

/-- The item at a position that has to be in the list. -/
def item (items : List α) (position : Nat) : Action Stop α :=
  match items[position]? with
  | some found => pure found
  | none => fail .fault

/-- The items from a position on that must not be beyond the end of the list. -/
def itemsFrom (items : List α) (position : Nat) : Action Stop (List α) :=
  if position ≤ items.length then pure (items.drop position) else fail .fault

/-- The quotient, rounded toward zero and wrapped around, by a divisor that must not be zero. -/
def quotient (dividend divisor : Int64) : Action Stop Int64 :=
  if divisor = 0 then fail .fault else pure (dividend / divisor)

/-- Add to the integer that the first argument is bound to. -/
def step (args : List Atom) (amount : Int64) : Action Stop Value := do
  let name ← faultless (expect .symbol (← item args 0).symbol?)
  let n ← faultless (expect .integer (← faultless (lookup name)).integer?)
  bindAll [(name, .integer (n + amount))]
  return .integer (n + amount)

def makeClosure (args : List Atom) (kind : ClosureKind) : Action Stop Value := do
  let items ← faultless (expect .list (← item args 0).items?)
  let names ← faultless (expect .symbol (items.mapM Atom.symbol?))
  let body ← item args 1
  return .closure ⟨← freshIdentity, kind, names, body⟩

/-- Arguments as code, with the only one taken out of its list. -/
def describeArgs (args : List Atom) : Action Stop String :=
  match args.length with
  | 0 => return "no args"
  | 1 => return (← item args 0).text
  | _ => return "\n\t" ++ "\n\t".intercalate (args.map Atom.text)

/-- Do the work of a built-in, and log how it ends, unless it ends with a fault. -/
def reported (builtin : Builtin) (action : Action Stop Value) : Action Stop Value :=
  fun context =>
    match action context with
    | .returned value after =>
        .returned value { after with log := .resulted builtin value :: after.log }
    | .failed (.failed error) after =>
        .failed (.failed error) { after with log := .failed builtin error :: after.log }
    | .failed .fault after => .failed .fault after
    | .unfinished => .unfinished

end Steps

section Rules

variable (ev : Evaluator)

def integer (code : Atom) : Action Stop Int64 := do
  faultless (expect .integer (← ev code).integer?)

def boolean (code : Atom) : Action Stop Bool := do
  faultless (expect .boolean (← ev code).boolean?)

/-- Divide by an operand, which is looked at first. -/
def divide (total : Int64) (code : Atom) : Action Stop Int64 := do
  let divisor ← integer ev code
  if divisor = 0 then fail (.failed .divisionByZero) else quotient total divisor

/-- Compare two integers; there have to be two. -/
def compare (order : Comparison) (args : List Atom) : Action Stop Value := do
  match ← args.mapM (integer ev) with
  | [x, y] => return .boolean (order.holds x y)
  | _ => fail .fault

def iterate (condition advance body : Atom) : Nat → Action Stop Unit
  | 0 => unfinished
  | bound + 1 => do
      if ← boolean ev condition then
        let _ ← ev body
        let _ ← ev advance
        iterate condition advance body bound

/-- What a built-in does with its arguments, in the number that it takes. -/
def work (bound : Nat) (args : List Atom) : Builtin → Action Stop Value
  | .add => return .integer ((← args.mapM (integer ev)).foldl (· + ·) 0)
  | .subtract => do
      let ints ← args.mapM (integer ev)
      return .integer ((← itemsFrom ints 1).foldl (· - ·) (← item ints 0))
  | .multiply => return .integer ((← args.mapM (integer ev)).foldl (· * ·) 1)
  | .divide => do
      let total ← integer ev (← item args 0)
      return .integer (← (← itemsFrom args 1).foldlM (divide ev) total)
  | .equal => return .boolean ((← ev (← item args 0)).same (← ev (← item args 1)))
  | .notEqual => return .boolean (!(← ev (← item args 0)).same (← ev (← item args 1)))
  | .less => compare ev .less args
  | .atMost => compare ev .atMost args
  | .greater => compare ev .greater args
  | .atLeast => compare ev .atLeast args
  | .sequence => args.foldlM (fun _ statement => ev statement.unquoted) .nil
  | .choose => do
      if ← boolean ev (← item args 0) then ev (← item args 1) else ev (← item args 2)
  | .all => return .boolean (← args.allM (boolean ev))
  | .any => return .boolean (← args.anyM (boolean ev))
  | .negate => return .boolean (!(← boolean ev (← item args 0)))
  | .loop => do
      let first ← item args 0
      let condition ← item args 1
      let advance ← item args 2
      let body ← item args 3
      let _ ← ev first
      iterate ev condition advance body bound
      return .nil
  | .assign => do
      let name ← faultless (expect .symbol (← item args 0).symbol?)
      let value ← ev (← item args 1)
      record (.assigned name value)
      bindAll [(name, value)]
      return .nil
  | .increment => step args 1
  | .decrement => step args (-1)
  | .makeLambda => makeClosure args .lambda
  | .makeExpander => makeClosure args .expander
  | .evaluate => do ev (← item args 0)
  | .print => do
      args.forM fun code => do faultless (write (← ev code).text)
      faultless (write "\n")
      faultless flush
      return .nil

def callBuiltin (bound : Nat) (builtin : Builtin) (args : List Atom) : Action Stop Value :=
  if builtin.arity.admits args.length then do
    let _ ← describeArgs args
    record (.called builtin args)
    reported builtin (work ev bound args builtin)
  else fail (.failed (.badArgCount builtin.name builtin.arity args.length))

def enter (closure : Closure) (args : List Atom) : Action Stop Value :=
  match closure.kind with
  | .lambda => do
      let values ← args.mapM ev
      bindAll (closure.parameters.zip values)
      ev closure.body
  | .expander => do
      bindAll (closure.parameters.zip (args.map .atom))
      let expansion ← faultless (expect .quotedAtom (← ev closure.body).atom?)
      record (.expanded expansion)
      ev expansion

def callClosure (closure : Closure) (args : List Atom) : Action Stop Value :=
  if closure.arity.admits args.length then do
    let _ ← describeArgs args
    record (.entered closure args)
    inSnapshot (enter ev closure args)
  else fail (.failed (.badArgCount closure.kind.name closure.arity args.length))

def call (bound : Nat) (callee : Value) (args : List Atom) : Action Stop Value :=
  match callee with
  | .builtin builtin => callBuiltin ev bound builtin args
  | .closure closure => callClosure ev closure args
  | value => fail (.failed (.notCallable value))

def meaning (bound : Nat) (code : Atom) : Action Stop Value := do
  record (.evaluating code)
  match code with
  | .number n => return .integer n
  | .symbol name => faultless (lookup name)
  | .quoted inner => return .atom inner
  | .list [] => return .nil
  | .list (head :: args) => do
      let callee ← ev head
      call ev bound callee args

end Rules

def eval : Nat → Evaluator
  | 0 => fun _ => unfinished
  | bound + 1 => meaning (eval bound) bound

def apply (bound : Nat) (callee : Value) (args : List Atom) : Action Stop Value :=
  call (eval bound) bound callee args

section Laws

variable {α β : Type}

@[simp]
theorem faultless_pure (value : α) : faultless (pure value) = pure value :=
  rfl

@[simp]
theorem faultless_fail (cause : EvalError) :
    faultless (fail cause : Action EvalError α) = fail (.failed cause) :=
  rfl

@[simp]
theorem faultless_record (entry : Record) : faultless (record entry) = record entry :=
  rfl

@[simp]
theorem faultless_bindAll (bindings : List (String × Value)) :
    faultless (bindAll bindings) = bindAll bindings :=
  rfl

@[simp]
theorem faultless_freshIdentity : faultless freshIdentity = freshIdentity :=
  rfl

@[simp]
theorem faultless_bind (action : Action EvalError α) (next : α → Action EvalError β) :
    faultless (action >>= next) = faultless action >>= fun value => faultless (next value) := by
  funext context
  simp only [faultless, Bind.bind, Action.bind]
  cases action context <;> rfl

@[simp]
theorem faultless_inSnapshot (action : Action EvalError α) :
    faultless action.inSnapshot = (faultless action).inSnapshot := by
  funext context
  simp only [faultless, inSnapshot]
  cases action { context with env := context.env.snapshot } <;> rfl

@[simp]
theorem faultless_reported (builtin : Builtin) (action : Action EvalError Value) :
    faultless (Action.reported builtin action) = reported builtin (faultless action) := by
  funext context
  simp only [faultless, reported, Action.reported]
  cases action context <;> rfl

@[simp]
theorem faultless_ite (condition : Prop) [Decidable condition] (action other : Action EvalError α) :
    faultless (if condition then action else other) =
      if condition then faultless action else faultless other := by
  split <;> rfl

@[simp]
theorem item_zero (first : α) (items : List α) : item (first :: items) 0 = pure first :=
  rfl

@[simp]
theorem item_succ (first : α) (items : List α) (position : Nat) :
    item (first :: items) (position + 1) = item items position :=
  rfl

@[simp]
theorem itemsFrom_one (first : α) (items : List α) : itemsFrom (first :: items) 1 = pure items := by
  simp [itemsFrom]

/-- Describing arguments is possible whatever their number. -/
theorem describeArgs_eq (args : List Atom) :
    describeArgs args = pure (Record.describeArgs args) := by
  rcases args with _ | ⟨arg, _ | ⟨second, rest⟩⟩ <;> rfl

end Laws

section Correspondence

variable {ev : Evaluation.Evaluator} {bound : Nat}

@[simp]
theorem integer_eq (code : Atom) :
    integer (fun code => faultless (ev code)) code = faultless (Evaluation.integer ev code) := by
  simp only [integer, Evaluation.integer, faultless_bind]

@[simp]
theorem boolean_eq (code : Atom) :
    boolean (fun code => faultless (ev code)) code = faultless (Evaluation.boolean ev code) := by
  simp only [boolean, Evaluation.boolean, faultless_bind]

theorem values_eq (codes : List Atom) :
    codes.mapM (fun code => faultless (ev code)) = faultless (Evaluation.values ev codes) := by
  induction codes with
  | nil => rfl
  | cons code rest ih =>
      simp only [List.mapM_cons, ih, Evaluation.values, faultless_bind, faultless_pure]

/-- Evaluating all operands and then combining their values is the same as combining each with those
    before it, as long as they can be combined. -/
theorem integers_eq {kind : Arithmetic} {combine : Int64 → Int64 → Int64}
    (combines : ∀ x y, kind.apply? x y = some (combine x y)) (codes : List Atom)
    (start : Int64) :
    (do
      let ints ← codes.mapM (integer fun code => faultless (ev code))
      pure (Value.integer (ints.foldl combine start))) =
      (do
        let total ← faultless (Evaluation.accumulate ev kind start codes)
        pure (Value.integer total)) := by
  induction codes generalizing start with
  | nil => rfl
  | cons code rest ih =>
      simp only [List.mapM_cons, bind_assoc, pure_bind, List.foldl_cons, integer_eq,
        Evaluation.accumulate, faultless_bind, combines, ih]

theorem arithmetic_eq {kind : Arithmetic} {combine : Int64 → Int64 → Int64}
    (combines : ∀ x y, kind.apply? x y = some (combine x y)) (first : Atom) (rest : List Atom) :
    (do
      let start ← faultless (Evaluation.integer ev first)
      let ints ← rest.mapM (integer fun code => faultless (ev code))
      pure (Value.integer (ints.foldl combine start))) =
      faultless (Evaluation.perform ev bound (.arithmetic kind first rest)) := by
  simp only [integers_eq combines, Evaluation.perform, faultless_bind, faultless_pure]

theorem divide_eq (codes : List Atom) (total : Int64) :
    codes.foldlM (divide fun code => faultless (ev code)) total =
      faultless (Evaluation.accumulate ev .divide total codes) := by
  induction codes generalizing total with
  | nil => rfl
  | cons code rest ih =>
      rw [List.foldlM_cons, divide, bind_assoc, integer_eq, Evaluation.accumulate, faultless_bind]
      refine bind_congr ?_
      intro divisor
      by_cases zero : divisor = 0
      · simp only [if_pos zero, Arithmetic.apply?]
        rfl
      · simp only [if_neg zero, Arithmetic.apply?, quotient, pure_bind, ih]

theorem sequence_eq (statements : List Atom) (last : Value) :
    statements.foldlM (fun _ statement => faultless (ev statement.unquoted)) last =
      faultless (Evaluation.sequence ev last statements) := by
  induction statements generalizing last with
  | nil => rfl
  | cons statement rest ih =>
      simp only [List.foldlM_cons, ih, Evaluation.sequence, faultless_bind]

theorem conjunction_eq (conditions : List Atom) :
    conditions.allM (boolean fun code => faultless (ev code)) =
      faultless (Evaluation.conjunction ev conditions) := by
  induction conditions with
  | nil => rfl
  | cons condition rest ih =>
      rw [List.allM, boolean_eq, Evaluation.conjunction, faultless_bind]
      refine bind_congr ?_
      intro holds
      cases holds with
      | true => exact ih
      | false => rfl

theorem disjunction_eq (conditions : List Atom) :
    conditions.anyM (boolean fun code => faultless (ev code)) =
      faultless (Evaluation.disjunction ev conditions) := by
  induction conditions with
  | nil => rfl
  | cons condition rest ih =>
      rw [List.anyM, boolean_eq, Evaluation.disjunction, faultless_bind]
      refine bind_congr ?_
      intro holds
      cases holds with
      | true => rfl
      | false => exact ih

theorem iterate_eq (condition advance body : Atom) (bound : Nat) :
    iterate (fun code => faultless (ev code)) condition advance body bound =
      faultless (Evaluation.iterate ev condition advance body bound) := by
  induction bound with
  | zero => rfl
  | succ bound ih =>
      rw [iterate, boolean_eq, Evaluation.iterate, faultless_bind]
      refine bind_congr ?_
      intro holds
      cases holds with
      | true => simp only [if_true, faultless_bind, ih]
      | false => rfl

theorem printAll_eq (items : List Atom) :
    (items.forM fun code => do
      let value ← faultless (ev code)
      faultless (write value.text)) = faultless (Evaluation.printAll ev items) := by
  induction items with
  | nil => rfl
  | cons code rest ih =>
      simp only [List.forM, bind_assoc, ih, Evaluation.printAll, faultless_bind]

/-- With two arguments, there are two integers to compare. -/
theorem compare_eq (order : Comparison) (left right : Atom) :
    compare (fun code => faultless (ev code)) order [left, right] =
      faultless (Evaluation.perform ev bound (.comparison order left right)) := by
  simp only [compare, List.mapM_cons, List.mapM_nil, bind_assoc, pure_bind, integer_eq,
    Evaluation.perform, faultless_bind, faultless_pure]

theorem step_eq (target : Atom) (amount : Int64) :
    step [target] amount = faultless (Evaluation.perform ev bound (.stepping amount target)) := by
  simp only [step, item_zero, pure_bind, Evaluation.perform, faultless_bind, faultless_pure,
    faultless_bindAll]

theorem makeClosure_eq (parameters body : Atom) (kind : ClosureKind) :
    makeClosure [parameters, body] kind =
      faultless (Evaluation.perform ev bound (.closure kind parameters body)) := by
  simp only [makeClosure, item_zero, item_succ, pure_bind, Evaluation.perform, faultless_bind,
    faultless_pure, faultless_freshIdentity]

/-- Where the arity admits a call, every argument that the built-in takes out is there. -/
theorem work_eq {builtin : Builtin} {args : List Atom} {operation : Operation}
    (call : builtin.operation? args = some operation) :
    work (fun code => faultless (ev code)) bound args builtin =
      faultless (Evaluation.perform ev bound operation) := by
  unfold Builtin.operation? at call
  split at call <;> cases call
  -- Sums, differences and products are of integers that are all known.
  case h_1 | h_2 | h_3 =>
    simp only [work, List.mapM_cons, bind_assoc, pure_bind, integer_eq, item_zero, itemsFrom_one,
      List.foldl_cons, Int64.zero_add, Int64.one_mul]
    exact arithmetic_eq (fun _ _ => rfl) _ _
  -- Comparisons, steps up and down, and the two kinds of closures.
  case h_7 | h_8 | h_9 | h_10 => exact compare_eq _ _ _
  case h_18 | h_19 => exact step_eq _ _
  case h_20 | h_21 => exact makeClosure_eq _ _ _
  all_goals simp only [work, pure_bind, integer_eq, boolean_eq, item_zero, item_succ,
    itemsFrom_one, divide_eq, sequence_eq, conjunction_eq, disjunction_eq, iterate_eq, printAll_eq,
    Evaluation.perform, faultless_bind, faultless_pure, faultless_ite, faultless_record,
    faultless_bindAll, Bool.bne_true, Bool.bne_false]

theorem callBuiltin_eq (builtin : Builtin) (args : List Atom) :
    callBuiltin (fun code => faultless (ev code)) bound builtin args =
      faultless (Evaluation.callBuiltin ev bound builtin args) := by
  have admitted := builtin.operation?_isSome args
  unfold callBuiltin Evaluation.callBuiltin
  cases called : builtin.operation? args with
  | none =>
      rw [called, Option.isSome_none] at admitted
      simp only [← admitted, Bool.false_eq_true, if_false, faultless_fail]
  | some operation =>
      rw [called, Option.isSome_some] at admitted
      simp only [← admitted, if_true, describeArgs_eq, pure_bind, work_eq called, faultless_bind,
        faultless_record, faultless_reported]

theorem enter_eq (closure : Closure) (args : List Atom) :
    enter (fun code => faultless (ev code)) closure args =
      faultless (Evaluation.enter ev closure args) := by
  unfold enter Evaluation.enter
  cases closure.kind with
  | lambda => simp only [values_eq, faultless_bind, faultless_bindAll]
  | expander => simp only [faultless_bind, faultless_bindAll, faultless_record]

theorem callClosure_eq (closure : Closure) (args : List Atom) :
    callClosure (fun code => faultless (ev code)) closure args =
      faultless (Evaluation.callClosure ev closure args) := by
  simp only [callClosure, Evaluation.callClosure, describeArgs_eq, pure_bind, enter_eq,
    faultless_ite, faultless_bind, faultless_record, faultless_inSnapshot, faultless_fail]

theorem call_eq (callee : Value) (args : List Atom) :
    call (fun code => faultless (ev code)) bound callee args =
      faultless (Evaluation.call ev bound callee args) := by
  cases callee with
  | builtin builtin => exact callBuiltin_eq builtin args
  | closure closure => exact callClosure_eq closure args
  | nil | integer | boolean | atom => rfl

theorem meaning_eq (code : Atom) :
    meaning (fun code => faultless (ev code)) bound code =
      faultless (Evaluation.meaning ev bound code) := by
  unfold meaning Evaluation.meaning
  rw [faultless_bind, faultless_record]
  refine bind_congr ?_
  intro _
  rcases code with _ | _ | (_ | ⟨head, args⟩) | _
  case list.cons => simp only [faultless_bind, call_eq]
  all_goals rfl

end Correspondence

/-- An evaluation by positions does what the evaluation by roles does: there is no fault. -/
theorem eval_eq (bound : Nat) :
    eval bound = fun code => faultless (Evaluation.eval bound code) := by
  induction bound with
  | zero => rfl
  | succ bound ih =>
      funext code
      rw [eval, ih]
      exact meaning_eq code

theorem apply_eq (bound : Nat) (callee : Value) (args : List Atom) :
    apply bound callee args = faultless (Evaluation.apply bound callee args) := by
  rw [apply, eval_eq]
  exact call_eq callee args

/-- Without the arity, a built-in may miss an argument. -/
example (ev : Evaluator) (bound : Nat) (context : Context) :
    work ev bound [] .subtract context = .failed .fault context :=
  rfl

end Indexed

end Homoiconic
