import Homoiconic.Proofs.Evaluation.Correspondence

/-! # Evaluations simulate each other

The rules of evaluation are the same for both sides of a lawful correspondence, so each rule keeps
it as soon as the evaluations that the rule asks for do. By induction on the bound, evaluations
within a bound keep it.
-/

namespace Homoiconic

namespace Correspondence

open Homoiconic.Evaluation (Evaluator)

variable {k : Correspondence}

/-- Two calls of a built-in of the same sort, on corresponding atoms. -/
inductive Operations (k : Correspondence) : Operation → Operation → Prop where
  | arithmetic (kind : Arithmetic) {first first' : Atom} {rest rest' : List Atom} :
      k.codes first first' → List.Forall₂ k.codes rest rest' →
      Operations k (.arithmetic kind first rest) (.arithmetic kind first' rest')
  | comparison (order : Comparison) {left left' right right' : Atom} :
      k.codes left left' → k.codes right right' →
      Operations k (.comparison order left right) (.comparison order left' right')
  | equality (negated : Bool) {left left' right right' : Atom} :
      k.codes left left' → k.codes right right' →
      Operations k (.equality negated left right) (.equality negated left' right')
  | sequence {statements statements' : List Atom} :
      List.Forall₂ k.codes statements statements' →
      Operations k (.sequence statements) (.sequence statements')
  | choice {condition condition' consequent consequent' alternative alternative' : Atom} :
      k.codes condition condition' → k.codes consequent consequent' →
      k.codes alternative alternative' →
      Operations k (.choice condition consequent alternative)
        (.choice condition' consequent' alternative')
  | conjunction {conditions conditions' : List Atom} :
      List.Forall₂ k.codes conditions conditions' →
      Operations k (.conjunction conditions) (.conjunction conditions')
  | disjunction {conditions conditions' : List Atom} :
      List.Forall₂ k.codes conditions conditions' →
      Operations k (.disjunction conditions) (.disjunction conditions')
  | negation {condition condition' : Atom} :
      k.codes condition condition' → Operations k (.negation condition) (.negation condition')
  | loop {first first' condition condition' advance advance' body body' : Atom} :
      k.codes first first' → k.codes condition condition' → k.codes advance advance' →
      k.codes body body' →
      Operations k (.loop first condition advance body) (.loop first' condition' advance' body')
  | assignment {target target' value value' : Atom} :
      k.codes target target' → k.codes value value' →
      Operations k (.assignment target value) (.assignment target' value')
  | stepping (amount : Int64) {target target' : Atom} :
      k.codes target target' → Operations k (.stepping amount target) (.stepping amount target')
  | closure (kind : ClosureKind) {parameters parameters' body body' : Atom} :
      k.codes parameters parameters' → k.codes body body' →
      Operations k (.closure kind parameters body) (.closure kind parameters' body')
  | evaluation {code code' : Atom} :
      k.codes code code' → Operations k (.evaluation code) (.evaluation code')
  | printing {items items' : List Atom} :
      List.Forall₂ k.codes items items' → Operations k (.printing items) (.printing items')

theorem operation?_related (builtin : Builtin) {args args' : List Atom}
    (related : List.Forall₂ k.codes args args') :
    Option.Rel k.Operations (builtin.operation? args) (builtin.operation? args') := by
  cases builtin with
  | add | subtract | multiply | divide =>
      rcases related with _ | ⟨first, rest⟩
      · exact .none
      · exact .some (.arithmetic _ first rest)
  | less | atMost | greater | atLeast =>
      rcases related with _ | ⟨left, _ | ⟨right, _ | _⟩⟩
      · exact .none
      · exact .none
      · exact .some (.comparison _ left right)
      · exact .none
  | equal | notEqual =>
      rcases related with _ | ⟨left, _ | ⟨right, _ | _⟩⟩
      · exact .none
      · exact .none
      · exact .some (.equality _ left right)
      · exact .none
  | sequence => exact .some (.sequence related)
  | choose =>
      rcases related with _ | ⟨condition, _ | ⟨consequent, _ | ⟨alternative, _ | _⟩⟩⟩
      · exact .none
      · exact .none
      · exact .none
      · exact .some (.choice condition consequent alternative)
      · exact .none
  | all => exact .some (.conjunction related)
  | any => exact .some (.disjunction related)
  | negate =>
      rcases related with _ | ⟨condition, _ | _⟩
      · exact .none
      · exact .some (.negation condition)
      · exact .none
  | loop =>
      rcases related with _ | ⟨first, _ | ⟨condition, _ | ⟨advance, _ | ⟨body, _ | _⟩⟩⟩⟩
      · exact .none
      · exact .none
      · exact .none
      · exact .none
      · exact .some (.loop first condition advance body)
      · exact .none
  | assign =>
      rcases related with _ | ⟨target, _ | ⟨value, _ | _⟩⟩
      · exact .none
      · exact .none
      · exact .some (.assignment target value)
      · exact .none
  | increment | decrement =>
      rcases related with _ | ⟨target, _ | _⟩
      · exact .none
      · exact .some (.stepping _ target)
      · exact .none
  | makeLambda | makeExpander =>
      rcases related with _ | ⟨parameters, _ | ⟨body, _ | _⟩⟩
      · exact .none
      · exact .none
      · exact .some (.closure _ parameters body)
      · exact .none
  | evaluate =>
      rcases related with _ | ⟨code, _ | _⟩
      · exact .none
      · exact .some (.evaluation code)
      · exact .none
  | print => exact .some (.printing related)

section Rules

variable (lawful : k.Lawful) {ev ev' : Evaluator}
  (each : ∀ code code', k.codes code code' → k.Actions k.Values (ev code) (ev' code'))
  {code code' : Atom} {codes codes' : List Atom}

include lawful in
theorem unquoted_related (related : k.codes code code') : k.codes code.unquoted code'.unquoted := by
  cases lawful.shape related with
  | quoted inner => exact inner
  | number | symbol | list => exact related

include lawful in
theorem mapM_symbol?_related (related : List.Forall₂ k.codes codes codes') :
    Option.Rel (List.Forall₂ k.names) (codes.mapM Atom.symbol?) (codes'.mapM Atom.symbol?) := by
  induction related with
  | nil => exact .some .nil
  | @cons item item' rest rest' head _ ih =>
      have first := (lawful.shape head).symbol?
      simp only [List.mapM_cons, Option.bind_eq_bind, Option.pure_def]
      generalize item.symbol? = found, item'.symbol? = found' at first ⊢
      generalize rest.mapM Atom.symbol? = others, rest'.mapM Atom.symbol? = others' at ih ⊢
      cases first with
      | none => exact .none
      | some name =>
          cases ih with
          | none => exact .none
          | some names => exact .some (.cons name names)

theorem zip_related {names names' : List String} {values values' : List Value}
    (bound : List.Forall₂ k.names names names') (related : List.Forall₂ k.Values values values') :
    List.Forall₂ k.Named (names.zip values) (names'.zip values') := by
  induction bound generalizing values values' with
  | nil => exact .nil
  | cons name _ ih =>
      cases related with
      | nil => exact .nil
      | cons value rest => exact .cons ⟨name, value⟩ (ih rest)

section Parts

include each

theorem integer_related (related : k.codes code code') :
    k.Actions Eq (Evaluation.integer ev code) (Evaluation.integer ev' code') := by
  apply (each _ _ related).bind
  intro value value' values
  exact .expect .integer values.integer?

theorem boolean_related (related : k.codes code code') :
    k.Actions Eq (Evaluation.boolean ev code) (Evaluation.boolean ev' code') := by
  apply (each _ _ related).bind
  intro value value' values
  exact .expect .boolean values.boolean?

theorem values_related (related : List.Forall₂ k.codes codes codes') :
    k.Actions (List.Forall₂ k.Values) (Evaluation.values ev codes)
      (Evaluation.values ev' codes') := by
  induction related with
  | nil => exact .pure .nil
  | cons head _ ih =>
      apply (each _ _ head).bind
      intro value value' first
      apply ih.bind
      intro others others' rest
      exact .pure (.cons first rest)

theorem accumulate_related (kind : Arithmetic) (total : Int64)
    (related : List.Forall₂ k.codes codes codes') :
    k.Actions Eq (Evaluation.accumulate ev kind total codes)
      (Evaluation.accumulate ev' kind total codes') := by
  induction related generalizing total with
  | nil => exact .pure rfl
  | cons head _ ih =>
      apply (integer_related each head).bind
      rintro operand _ rfl
      cases kind.apply? total operand with
      | some total => exact ih total
      | none => exact .fail .divisionByZero

theorem conjunction_related (related : List.Forall₂ k.codes codes codes') :
    k.Actions Eq (Evaluation.conjunction ev codes) (Evaluation.conjunction ev' codes') := by
  induction related with
  | nil => exact .pure rfl
  | cons head _ ih =>
      apply (boolean_related each head).bind
      rintro holds _ rfl
      cases holds with
      | true => exact ih
      | false => exact .pure rfl

theorem disjunction_related (related : List.Forall₂ k.codes codes codes') :
    k.Actions Eq (Evaluation.disjunction ev codes) (Evaluation.disjunction ev' codes') := by
  induction related with
  | nil => exact .pure rfl
  | cons head _ ih =>
      apply (boolean_related each head).bind
      rintro holds _ rfl
      cases holds with
      | true => exact .pure rfl
      | false => exact ih

theorem iterate_related {condition condition' advance advance' body body' : Atom}
    (first : k.codes condition condition') (second : k.codes advance advance')
    (third : k.codes body body') (bound : Nat) :
    k.Actions Eq (Evaluation.iterate ev condition advance body bound)
      (Evaluation.iterate ev' condition' advance' body' bound) := by
  induction bound with
  | zero => exact .unfinished
  | succ bound ih =>
      apply (boolean_related each first).bind
      rintro holds _ rfl
      cases holds with
      | true =>
          apply (each _ _ third).seq
          exact (each _ _ second).seq ih
      | false => exact .pure rfl

end Parts

include lawful each

theorem sequence_related {last last' : Value} (result : k.Values last last')
    (related : List.Forall₂ k.codes codes codes') :
    k.Actions k.Values (Evaluation.sequence ev last codes)
      (Evaluation.sequence ev' last' codes') := by
  induction related generalizing last last' with
  | nil => exact .pure result
  | cons head _ ih => exact (each _ _ (unquoted_related lawful head)).bind fun _ _ value => ih value

theorem printAll_related (related : List.Forall₂ k.codes codes codes') :
    k.Actions Eq (Evaluation.printAll ev codes) (Evaluation.printAll ev' codes') := by
  induction related with
  | nil => exact .pure rfl
  | cons head _ ih =>
      apply (each _ _ head).bind
      intro value value' values
      exact (Actions.ask (lawful.printed values)).seq ih

theorem perform_related (bound : Nat) {operation operation' : Operation}
    (related : k.Operations operation operation') :
    k.Actions k.Values (Evaluation.perform ev bound operation)
      (Evaluation.perform ev' bound operation') := by
  cases related with
  | arithmetic kind first rest =>
      apply (integer_related each first).bind
      rintro start _ rfl
      apply (accumulate_related each kind start rest).bind
      rintro total _ rfl
      exact .pure (.integer total)
  | comparison order left right =>
      apply (integer_related each left).bind
      rintro x _ rfl
      apply (integer_related each right).bind
      rintro y _ rfl
      exact .pure (.boolean _)
  | equality negated left right =>
      apply (each _ _ left).bind
      intro x x' one
      apply (each _ _ right).bind
      intro y y' two
      rw [one.same lawful two]
      exact .pure (.boolean _)
  | sequence statements => exact sequence_related lawful each .nil statements
  | choice condition consequent alternative =>
      apply (boolean_related each condition).bind
      rintro holds _ rfl
      cases holds with
      | true => exact each _ _ consequent
      | false => exact each _ _ alternative
  | conjunction conditions =>
      apply (conjunction_related each conditions).bind
      rintro holds _ rfl
      exact .pure (.boolean holds)
  | disjunction conditions =>
      apply (disjunction_related each conditions).bind
      rintro holds _ rfl
      exact .pure (.boolean holds)
  | negation condition =>
      apply (boolean_related each condition).bind
      rintro holds _ rfl
      exact .pure (.boolean _)
  | loop first condition advance body =>
      apply (each _ _ first).seq
      exact (iterate_related each condition advance body bound).seq (.pure .nil)
  | assignment target value =>
      apply (Actions.expect .symbol (lawful.shape target).symbol?).bind
      intro name name' named
      apply (each _ _ value).bind
      intro found found' values
      apply (Actions.record lawful (.assigned named values)).seq
      exact (Actions.bindAll lawful (.cons ⟨named, values⟩ .nil)).seq (.pure .nil)
  | stepping amount target =>
      apply (Actions.expect .symbol (lawful.shape target).symbol?).bind
      intro name name' named
      apply (Actions.lookup lawful named).bind
      intro value value' values
      apply (Actions.expect .integer values.integer?).bind
      rintro n _ rfl
      exact (Actions.bindAll lawful (.cons ⟨named, .integer _⟩ .nil)).seq (.pure (.integer _))
  | closure kind parameters body =>
      apply (Actions.expect .list (lawful.shape parameters).items?).bind
      intro items items' row
      apply (Actions.expect .symbol (mapM_symbol?_related lawful row)).bind
      intro names names' parameters
      apply (Actions.freshIdentity lawful).bind
      intro identity identity' fresh
      exact .pure (.closure { identity := fresh, kind := rfl, parameters, body })
  | evaluation code => exact each _ _ code
  | printing items =>
      apply (printAll_related lawful each items).seq
      apply (Actions.ask lawful.newline).seq
      exact (Actions.ask lawful.flushed).seq (.pure .nil)

theorem callBuiltin_related (bound : Nat) (builtin : Builtin) {args args' : List Atom}
    (related : List.Forall₂ k.codes args args') :
    k.Actions k.Values (Evaluation.callBuiltin ev bound builtin args)
      (Evaluation.callBuiltin ev' bound builtin args') := by
  have roles := operation?_related builtin related
  unfold Evaluation.callBuiltin
  generalize builtin.operation? args = found, builtin.operation? args' = found' at roles ⊢
  cases roles with
  | none =>
      rw [related.length_eq]
      exact .fail (.badArgCount _ _ _)
  | some operation =>
      apply (Actions.record lawful (.called builtin related)).seq
      exact .reported lawful builtin (perform_related lawful each bound operation)

theorem enter_related {closure closure' : Closure} (related : k.Closures closure closure')
    {args args' : List Atom} (row : List.Forall₂ k.codes args args') :
    k.Actions k.Values (Evaluation.enter ev closure args)
      (Evaluation.enter ev' closure' args') := by
  unfold Evaluation.enter
  rw [related.kind]
  cases closure'.kind with
  | lambda =>
      apply (values_related each row).bind
      intro found found' values
      apply (Actions.bindAll lawful (zip_related related.parameters values)).seq
      exact each _ _ related.body
  | expander =>
      have atoms : List.Forall₂ k.Values (args.map .atom) (args'.map .atom) := by
        rw [List.forall₂_map_left_iff, List.forall₂_map_right_iff]
        exact row.imp fun _ _ code => .atom code
      apply (Actions.bindAll lawful (zip_related related.parameters atoms)).seq
      apply (each _ _ related.body).bind
      intro value value' values
      apply (Actions.expect .quotedAtom values.atom?).bind
      intro expansion expansion' code
      exact (Actions.record lawful (.expanded code)).seq (each _ _ code)

theorem callClosure_related {closure closure' : Closure} (related : k.Closures closure closure')
    {args args' : List Atom} (row : List.Forall₂ k.codes args args') :
    k.Actions k.Values (Evaluation.callClosure ev closure args)
      (Evaluation.callClosure ev' closure' args') := by
  have arity : closure.arity = closure'.arity := by
    rw [Closure.arity, Closure.arity, related.parameters.length_eq]
  unfold Evaluation.callClosure
  rw [arity, row.length_eq, related.kind]
  split
  · apply (Actions.record lawful (.entered related row)).seq
    exact .inSnapshot (enter_related lawful each related row)
  · exact .fail (.badArgCount _ _ _)

theorem call_related (bound : Nat) {callee callee' : Value} (related : k.Values callee callee')
    {args args' : List Atom} (row : List.Forall₂ k.codes args args') :
    k.Actions k.Values (Evaluation.call ev bound callee args)
      (Evaluation.call ev' bound callee' args') := by
  cases related with
  | builtin operation => exact callBuiltin_related lawful each bound operation row
  | closure function => exact callClosure_related lawful each function row
  | nil => exact .fail (.notCallable rfl .nil)
  | integer value => exact .fail (.notCallable rfl (.integer value))
  | boolean value => exact .fail (.notCallable rfl (.boolean value))
  | atom code => exact .fail (.notCallable rfl (.atom code))

/-- The meanings of corresponding atoms correspond if the evaluations that they ask for do. -/
theorem meaning_related (bound : Nat) (related : k.codes code code') :
    k.Actions k.Values (Evaluation.meaning ev bound code)
      (Evaluation.meaning ev' bound code') := by
  apply (Actions.record lawful (.evaluating related)).seq
  cases lawful.shape related with
  | number value => exact .pure (.integer value)
  | symbol name => exact .lookup lawful name
  | quoted inner => exact .pure (.atom inner)
  | list items =>
      cases items with
      | nil => exact .pure .nil
      | cons head args =>
          exact (each _ _ head).bind fun _ _ callee => call_related lawful each bound callee args

end Rules

/-- Evaluations of corresponding atoms correspond, within every bound. -/
theorem eval_related (lawful : k.Lawful) (bound : Nat) {code code' : Atom}
    (related : k.codes code code') :
    k.Actions k.Values (Evaluation.eval bound code) (Evaluation.eval bound code') := by
  induction bound generalizing code code' with
  | zero => exact .unfinished
  | succ bound ih => exact meaning_related lawful (fun _ _ => ih) bound related

end Correspondence

end Homoiconic
