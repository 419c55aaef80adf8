import Homoiconic.Evaluation.Basic

/-! # Relations that evaluation respects

The rules of evaluation put elementary actions together, one after the other. A relation between
actions is stepwise if elementary actions are related to themselves and doing one thing after the
other keeps it; a call of a built-in counts as one thing, with what is logged about it. Then the
meaning of an atom under one evaluator is related to that under another as soon as the evaluations
of its parts, its assignments and its calls of closures are. A congruence is kept by those calls as
well, whatever they evaluate, so that it relates all evaluations within a bound to those within a
larger one. A property of actions is closed if it is a congruence that looks at one side only.
-/

namespace Homoiconic

/-- Records of calls of built-ins, which are made in pairs. -/
def Record.isOfCall : Record → Bool
  | .called .. | .resulted .. | .failed .. => true
  | _ => false

/-- What neither binds a name nor calls a closure is related to itself, and to do one thing after
    another keeps the relation. Running out of steps is related to anything. -/
structure Action.Stepwise
    (R : ∀ {α : Type}, Action EvalError α → Action EvalError α → Prop) : Prop where
  pure : ∀ {α : Type} (value : α), R (pure value) (pure value)
  bind : ∀ {α β : Type} {action other : Action EvalError α}
    {next next' : α → Action EvalError β}, R action other →
    (∀ value, R (next value) (next' value)) → R (action >>= next) (other >>= next')
  fail : ∀ {α : Type} (error : EvalError), R (α := α) (fail error) (fail error)
  unfinished : ∀ {α : Type} (other : Action EvalError α), R unfinished other
  record : ∀ entry, entry.isOfCall = false → R (record entry) (record entry)
  freshIdentity : R freshIdentity freshIdentity
  lookup : ∀ name, R (lookup name) (lookup name)
  write : ∀ text, R (write text) (write text)
  flush : R flush flush
  called : ∀ {action other : Action EvalError Value} builtin args, R action other →
    R (do Action.record (.called builtin args); reported builtin action)
      (do Action.record (.called builtin args); reported builtin other)

/-- Elementary actions are related to themselves, and each way of putting actions together keeps
    the relation. -/
structure Action.Congruence
    (R : ∀ {α : Type}, Action EvalError α → Action EvalError α → Prop) : Prop
    extends Stepwise R where
  bindAll : ∀ bindings, R (bindAll bindings) (bindAll bindings)
  inSnapshot : ∀ {action other : Action EvalError Value},
    R action other → R action.inSnapshot other.inSnapshot

/-- The elementary actions have the property, and each way of putting actions together keeps it. -/
def Action.Closed (P : ∀ {α : Type}, Action EvalError α → Prop) : Prop :=
  Congruence fun action _ => P action

namespace Evaluation

open Homoiconic.Action

section Rules

variable {R : ∀ {α : Type}, Action EvalError α → Action EvalError α → Prop}
  (steps : Stepwise R)

include steps

theorem expect_congr {α : Type} (expected : Expectation) (found : Option α) :
    R (expect expected found) (expect expected found) := by
  cases found with
  | none => exact steps.fail _
  | some value => exact steps.pure value

/-- What follows has to be related only for what is found. -/
theorem expect_bind_congr {α β : Type} {expected : Expectation} {found : Option α}
    {next next' : α → Action EvalError β} (later : ∀ value ∈ found, R (next value) (next' value)) :
    R (expect expected found >>= next) (expect expected found >>= next') := by
  cases found with
  | none => exact steps.fail (.typeMismatch expected)
  | some value => exact later value rfl

variable {ev ev' : Evaluator} {code : Atom} {codes : List Atom} {bound bound' : Nat}

theorem integer_congr (part : R (ev code) (ev' code)) :
    R (integer ev code) (integer ev' code) := by
  refine steps.bind part ?_
  intro value
  exact expect_congr steps _ _

theorem boolean_congr (part : R (ev code) (ev' code)) :
    R (boolean ev code) (boolean ev' code) := by
  refine steps.bind part ?_
  intro value
  exact expect_congr steps _ _

theorem values_congr (parts : ∀ code ∈ codes, R (ev code) (ev' code)) :
    R (values ev codes) (values ev' codes) := by
  induction codes with
  | nil => exact steps.pure _
  | cons code rest ih =>
      obtain ⟨part, parts⟩ := List.forall_mem_cons.mp parts
      refine steps.bind part ?_
      intro value
      exact steps.bind (ih parts) fun others => steps.pure _

theorem accumulate_congr (kind : Arithmetic) (total : Int64)
    (parts : ∀ code ∈ codes, R (ev code) (ev' code)) :
    R (accumulate ev kind total codes) (accumulate ev' kind total codes) := by
  induction codes generalizing total with
  | nil => exact steps.pure _
  | cons code rest ih =>
      obtain ⟨part, parts⟩ := List.forall_mem_cons.mp parts
      refine steps.bind (integer_congr steps part) ?_
      intro operand
      cases kind.apply? total operand with
      | some total => exact ih total parts
      | none => exact steps.fail _

theorem sequence_congr (last : Value)
    (parts : ∀ code ∈ codes.map Atom.unquoted, R (ev code) (ev' code)) :
    R (sequence ev last codes) (sequence ev' last codes) := by
  induction codes generalizing last with
  | nil => exact steps.pure _
  | cons code rest ih =>
      obtain ⟨part, parts⟩ := List.forall_mem_cons.mp parts
      refine steps.bind part ?_
      intro value
      exact ih value parts

theorem conjunction_congr (parts : ∀ code ∈ codes, R (ev code) (ev' code)) :
    R (conjunction ev codes) (conjunction ev' codes) := by
  induction codes with
  | nil => exact steps.pure _
  | cons code rest ih =>
      obtain ⟨part, parts⟩ := List.forall_mem_cons.mp parts
      refine steps.bind (boolean_congr steps part) ?_
      intro holds
      cases holds with
      | true => exact ih parts
      | false => exact steps.pure _

theorem disjunction_congr (parts : ∀ code ∈ codes, R (ev code) (ev' code)) :
    R (disjunction ev codes) (disjunction ev' codes) := by
  induction codes with
  | nil => exact steps.pure _
  | cons code rest ih =>
      obtain ⟨part, parts⟩ := List.forall_mem_cons.mp parts
      refine steps.bind (boolean_congr steps part) ?_
      intro holds
      cases holds with
      | true => exact steps.pure _
      | false => exact ih parts

theorem iterate_congr {condition advance body : Atom} (le : bound ≤ bound')
    (first : R (ev condition) (ev' condition)) (second : R (ev body) (ev' body))
    (third : R (ev advance) (ev' advance)) :
    R (iterate ev condition advance body bound) (iterate ev' condition advance body bound') := by
  -- The loop that may go on longer has a step left whenever the other one has.
  induction bound generalizing bound' with
  | zero => exact steps.unfinished _
  | succ bound ih =>
      obtain ⟨bound', rfl⟩ := Nat.exists_eq_succ_of_ne_zero (Nat.ne_zero_of_lt le)
      refine steps.bind (boolean_congr steps first) ?_
      intro holds
      cases holds with
      | true =>
          exact steps.bind second fun _ => steps.bind third fun _ =>
            ih (Nat.le_of_succ_le_succ le)
      | false => exact steps.pure _

theorem printAll_congr (parts : ∀ code ∈ codes, R (ev code) (ev' code)) :
    R (printAll ev codes) (printAll ev' codes) := by
  induction codes with
  | nil => exact steps.pure _
  | cons item rest ih =>
      obtain ⟨part, parts⟩ := List.forall_mem_cons.mp parts
      refine steps.bind part ?_
      intro value
      exact steps.bind (steps.write _) fun _ => ih parts

/-- An operation evaluates its parts and binds its target, and nothing else. -/
theorem perform_congr (le : bound ≤ bound') {operation : Operation}
    (parts : ∀ code ∈ operation.parts, R (ev code) (ev' code))
    (assigned : ∀ name ∈ operation.target?, ∀ value,
      R (bindAll [(name, value)]) (bindAll [(name, value)])) :
    R (perform ev bound operation) (perform ev' bound' operation) := by
  cases operation with
  | arithmetic kind first rest =>
      obtain ⟨part, parts⟩ := List.forall_mem_cons.mp parts
      refine steps.bind (integer_congr steps part) ?_
      intro start
      exact steps.bind (accumulate_congr steps kind start parts) fun _ => steps.pure _
  | comparison order left right =>
      refine steps.bind (integer_congr steps (parts left (by simp [Operation.parts]))) ?_
      intro x
      exact steps.bind (integer_congr steps (parts right (by simp [Operation.parts])))
        fun _ => steps.pure _
  | equality negated left right =>
      refine steps.bind (parts left (by simp [Operation.parts])) ?_
      intro x
      exact steps.bind (parts right (by simp [Operation.parts])) fun _ => steps.pure _
  | sequence statements => exact sequence_congr steps .nil parts
  | choice condition consequent alternative =>
      refine steps.bind (boolean_congr steps (parts condition (by simp [Operation.parts]))) ?_
      intro holds
      cases holds with
      | true => exact parts consequent (by simp [Operation.parts])
      | false => exact parts alternative (by simp [Operation.parts])
  | conjunction conditions =>
      exact steps.bind (conjunction_congr steps parts) fun _ => steps.pure _
  | disjunction conditions =>
      exact steps.bind (disjunction_congr steps parts) fun _ => steps.pure _
  | negation condition =>
      exact steps.bind (boolean_congr steps (parts condition (by simp [Operation.parts])))
        fun _ => steps.pure _
  | loop first condition advance body =>
      refine steps.bind (parts first (by simp [Operation.parts])) ?_
      intro value
      refine steps.bind (iterate_congr steps le ?_ ?_ ?_) fun _ => steps.pure _
      all_goals exact parts _ (by simp [Operation.parts])
  | assignment target code =>
      refine expect_bind_congr steps fun name named => ?_
      refine steps.bind (parts code (by simp [Operation.parts])) ?_
      intro value
      exact steps.bind (steps.record _ rfl) fun _ =>
        steps.bind (assigned name named value) fun _ => steps.pure _
  | stepping amount target =>
      refine expect_bind_congr steps fun name named => ?_
      refine steps.bind (steps.lookup name) ?_
      intro value
      refine steps.bind (expect_congr steps _ _) ?_
      intro n
      exact steps.bind (assigned name named _) fun _ => steps.pure _
  | closure kind parameters body =>
      refine steps.bind (expect_congr steps _ _) ?_
      intro items
      refine steps.bind (expect_congr steps _ _) ?_
      intro names
      exact steps.bind steps.freshIdentity fun _ => steps.pure _
  | evaluation code => exact parts code (by simp [Operation.parts])
  | printing items =>
      refine steps.bind (printAll_congr steps parts) ?_
      intro _
      exact steps.bind (steps.write _) fun _ => steps.bind steps.flush fun _ => steps.pure _

theorem callBuiltin_congr (le : bound ≤ bound') (builtin : Builtin) {args : List Atom}
    (parts : ∀ code ∈ args ++ args.map Atom.unquoted, R (ev code) (ev' code))
    (assigned : ∀ name ∈ Atom.targetOf? args, ∀ value,
      R (bindAll [(name, value)]) (bindAll [(name, value)])) :
    R (callBuiltin ev bound builtin args) (callBuiltin ev' bound' builtin args) := by
  unfold callBuiltin
  cases call : builtin.operation? args with
  | none => exact steps.fail _
  | some operation =>
      refine steps.called builtin args (perform_congr steps le ?_ ?_)
      · intro code member
        exact parts code (Builtin.parts_subset call member)
      · intro name target
        exact assigned name (Builtin.target?_of_operation? call target)

theorem call_congr (le : bound ≤ bound') (callee : Value) {args : List Atom}
    (parts : ∀ code ∈ args ++ args.map Atom.unquoted, R (ev code) (ev' code))
    (assigned : ∀ name ∈ Atom.targetOf? args, ∀ value,
      R (bindAll [(name, value)]) (bindAll [(name, value)]))
    (entered : ∀ closure, R (callClosure ev closure args) (callClosure ev' closure args)) :
    R (call ev bound callee args) (call ev' bound' callee args) := by
  cases callee with
  | builtin operation => exact callBuiltin_congr steps le operation parts assigned
  | closure function => exact entered function
  | nil | integer | boolean | atom => exact steps.fail _

/-- The meaning of an atom depends on the evaluations of its items, and of what they quote, on the
    assignment that it may be, and on calls of closures. -/
theorem meaning_congr (le : bound ≤ bound')
    (parts : ∀ part ∈ code.operands, R (ev part) (ev' part))
    (assigned : ∀ name ∈ code.target?, ∀ value,
      R (bindAll [(name, value)]) (bindAll [(name, value)]))
    (entered : ∀ closure args, R (callClosure ev closure args) (callClosure ev' closure args)) :
    R (meaning ev bound code) (meaning ev' bound' code) := by
  refine steps.bind (steps.record _ rfl) ?_
  intro _
  match code, parts, assigned with
  | .number n, _, _ => exact steps.pure _
  | .symbol name, _, _ => exact steps.lookup name
  | .quoted inner, _, _ => exact steps.pure _
  | .list [], _, _ => exact steps.pure _
  | .list (head :: args), parts, assigned =>
      obtain ⟨part, parts⟩ := List.forall_mem_cons.mp parts
      exact steps.bind part fun callee =>
        call_congr steps le callee parts assigned fun closure => entered closure args

end Rules

section Calls

variable {R : ∀ {α : Type}, Action EvalError α → Action EvalError α → Prop}
  (congruence : Congruence R) {ev ev' : Evaluator} (each : ∀ code, R (ev code) (ev' code))

include congruence each

theorem enter_congr (closure : Closure) (args : List Atom) :
    R (enter ev closure args) (enter ev' closure args) := by
  unfold enter
  cases closure.kind with
  | lambda =>
      refine congruence.bind (values_congr congruence.toStepwise fun code _ => each code) ?_
      intro values
      exact congruence.bind (congruence.bindAll _) fun _ => each closure.body
  | expander =>
      refine congruence.bind (congruence.bindAll _) ?_
      intro _
      refine congruence.bind (each closure.body) ?_
      intro value
      refine congruence.bind (expect_congr congruence.toStepwise _ _) ?_
      intro expansion
      exact congruence.bind (congruence.record _ rfl) fun _ => each expansion

theorem callClosure_congr (closure : Closure) (args : List Atom) :
    R (callClosure ev closure args) (callClosure ev' closure args) := by
  unfold callClosure
  split
  · exact congruence.bind (congruence.record _ rfl) fun _ =>
      congruence.inSnapshot (enter_congr congruence each closure args)
  · exact congruence.fail _

end Calls

variable {R : ∀ {α : Type}, Action EvalError α → Action EvalError α → Prop}

/-- An evaluation is related to the one of the same atom within a larger bound. -/
theorem eval_congr (congruence : Congruence R) {bound bound' : Nat} (le : bound ≤ bound')
    (code : Atom) : R (eval bound code) (eval bound' code) := by
  induction bound generalizing bound' code with
  | zero => exact congruence.unfinished _
  | succ bound ih =>
      obtain ⟨bound', rfl⟩ := Nat.exists_eq_succ_of_ne_zero (Nat.ne_zero_of_lt le)
      have smaller := Nat.le_of_succ_le_succ le
      exact meaning_congr congruence.toStepwise smaller (fun part _ => ih smaller part)
        (fun _ _ _ => congruence.bindAll _) (callClosure_congr congruence (ih smaller))

theorem apply_congr (congruence : Congruence R) {bound bound' : Nat} (le : bound ≤ bound')
    (callee : Value) (args : List Atom) :
    R (apply bound callee args) (apply bound' callee args) :=
  call_congr congruence.toStepwise le callee (fun part _ => eval_congr congruence le part)
    (fun _ _ _ => congruence.bindAll _)
    fun closure => callClosure_congr congruence (eval_congr congruence le) closure args

variable {P : ∀ {α : Type}, Action EvalError α → Prop}

theorem eval_closed (closed : Closed P) (bound : Nat) (code : Atom) : P (eval bound code) :=
  eval_congr closed (Nat.le_refl bound) code

theorem apply_closed (closed : Closed P) (bound : Nat) (callee : Value) (args : List Atom) :
    P (apply bound callee args) :=
  apply_congr closed (Nat.le_refl bound) callee args

theorem enter_closed (closed : Closed P) {ev : Evaluator} (each : ∀ code, P (ev code))
    (closure : Closure) (args : List Atom) : P (enter ev closure args) :=
  @enter_congr _ closed ev ev each closure args

end Evaluation

end Homoiconic
