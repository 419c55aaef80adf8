import Mathlib.Tactic.ByContra
import Homoiconic.Proofs.Evaluation.Calls
import Homoiconic.Proofs.Evaluation.Points

/-! # What evaluations maintain

An invariant says which contexts are in order, which values fit into a context, and how contexts
may develop, such that values go on fitting. It is lawful if each elementary action maintains it;
then each rule of evaluation does as soon as the evaluations that the rule asks for do, and by
induction on the bound, all evaluations do: `Invariant.eval_keeps`.

The rules are stated for two evaluators that agree wherever the invariant holds. So the rules ask
for evaluations in contexts only where it holds: `Invariant.within`.
-/

namespace Homoiconic

open Homoiconic.Evaluation (Evaluator Point eval)

/-- The built-in that makes closures of the kind. -/
def ClosureKind.builtin : ClosureKind → Builtin
  | .lambda => .makeLambda
  | .expander => .makeExpander

/-- The closure that was made, in the record of a call that makes one. -/
def Record.made? : Record → Option Closure
  | .resulted .makeLambda (.closure closure) | .resulted .makeExpander (.closure closure) =>
      some closure
  | _ => none

/-- The same context after a closure has been made, and that has been logged. -/
def Context.making (context : Context) (closure : Closure) : Context :=
  { context with
    log := .resulted closure.kind.builtin (.closure closure) :: context.log
    nextIdentity := context.nextIdentity + 1 }

/-- Which contexts are in order, which values fit into them, and which contexts may come later. -/
structure Invariant where
  holds : Context → Prop
  fits : Context → Value → Prop
  later : Context → Context → Prop

namespace Invariant

variable {α β : Type} {inv : Invariant}

/-- One context may lead to another, which is in order. -/
def Leads (inv : Invariant) (before after : Context) : Prop :=
  inv.holds after ∧ inv.later before after

/-- Each elementary action keeps the contexts in order, and comes upon values that fit. What is
    about closures is required only where one fits, and what is about making closures only where
    the built-in for it does. -/
structure Lawful (inv : Invariant) : Prop where
  refl : ∀ context, inv.later context context
  trans : ∀ {first second third}, inv.later first second → inv.later second third →
    inv.later first third
  fits_later : ∀ {before after value}, inv.later before after → inv.fits before value →
    inv.fits after value
  plain : ∀ context value, value.isCallable = false → inv.fits context value
  bound : ∀ {context name value}, inv.holds context → context.env.get? name = some value →
    inv.fits context value
  assigned : ∀ {context value} name, inv.holds context → inv.fits context value →
    inv.Leads context { context with env := context.env.set name value }
  recorded : ∀ {context} entry, entry.made? = none → inv.holds context →
    inv.Leads context (context.logging entry)
  written : ∀ {context} sink, inv.holds context → inv.Leads context { context with sink }
  copied : ∀ {context closure}, inv.fits context (.closure closure) → inv.holds context →
    inv.Leads context { context with env := context.env.snapshot }
  restored : ∀ {context closure}, inv.fits context (.closure closure) → inv.holds context →
    inv.Leads context { context with env := context.env.restore }
  made : ∀ {context} closure, inv.fits context (.builtin closure.kind.builtin) →
    inv.holds context → closure.identity = context.nextIdentity →
    inv.Leads context (context.making closure) ∧
      inv.fits (context.making closure) (.closure closure)

theorem Leads.trans (lawful : inv.Lawful) {first second third : Context}
    (one : inv.Leads first second) (more : inv.Leads second third) : inv.Leads first third :=
  ⟨more.1, lawful.trans one.2 more.2⟩

/-- Two outcomes are the same, and what they leave and yield is as it should be. -/
inductive Kept (inv : Invariant) (before : Context) (good : Context → α → Prop) :
    Outcome EvalError α → Outcome EvalError α → Prop where
  | returned {value : α} {after : Context} : inv.Leads before after → good after value →
      Kept inv before good (.returned value after) (.returned value after)
  | failed {error : EvalError} {after : Context} : inv.Leads before after →
      Kept inv before good (.failed error after) (.failed error after)
  | unfinished : Kept inv before good .unfinished .unfinished

theorem Kept.eq {before : Context} {good : Context → α → Prop} {outcome other : Outcome EvalError α}
    (kept : inv.Kept before good outcome other) : outcome = other := by
  cases kept <;> rfl

theorem Kept.since {before middle : Context} {good : Context → α → Prop}
    {outcome other : Outcome EvalError α} (lawful : inv.Lawful)
    (kept : inv.Kept middle good outcome other) (leads : inv.Leads before middle) :
    inv.Kept before good outcome other := by
  cases kept with
  | returned more fits => exact .returned (leads.trans lawful more) fits
  | failed more => exact .failed (leads.trans lawful more)
  | unfinished => exact .unfinished

theorem Kept.leads {before after : Context} {good : Context → α → Prop}
    {outcome other : Outcome EvalError α} (kept : inv.Kept before good outcome other)
    (ends : outcome.after? = some after) : inv.Leads before after := by
  cases kept with
  | returned leads | failed leads =>
      cases ends
      exact leads
  | unfinished => cases ends

/-- Two actions do the same in the context, if it is in order, and keep the invariant. -/
def Keeps (inv : Invariant) (good : Context → α → Prop) (context : Context)
    (action other : Action EvalError α) : Prop :=
  inv.holds context → inv.Kept context good (action context) (other context)

/-- Nothing is required of a result. -/
def always : Context → α → Prop :=
  fun _ _ => True

namespace Keeps

variable {context : Context} {good : Context → α → Prop} {good' : Context → β → Prop}

theorem pure (lawful : inv.Lawful) {value : α} (fits : good context value) :
    inv.Keeps good context (pure value) (pure value) :=
  fun holds => .returned ⟨holds, lawful.refl context⟩ fits

theorem fail (lawful : inv.Lawful) (error : EvalError) :
    inv.Keeps good context (.fail error) (.fail error) :=
  fun holds => .failed ⟨holds, lawful.refl context⟩

theorem unfinished : inv.Keeps good context .unfinished .unfinished :=
  fun _ => .unfinished

theorem bind (lawful : inv.Lawful) {action other : Action EvalError α}
    {next next' : α → Action EvalError β} (first : inv.Keeps good context action other)
    (rest : ∀ value after, inv.later context after → good after value →
      inv.Keeps good' after (next value) (next' value)) :
    inv.Keeps good' context (action >>= next) (other >>= next') := by
  intro holds
  have kept := first holds
  simp only [Bind.bind, Action.bind]
  generalize action context = outcome, other context = outcome' at kept
  cases kept with
  | @returned value middle leads fits =>
      exact (rest value middle leads.2 fits leads.1).since lawful leads
  | failed leads => exact .failed leads
  | unfinished => exact .unfinished

theorem expect (lawful : inv.Lawful) (expected : Expectation) (found : Option α) :
    inv.Keeps always context (.expect expected found) (.expect expected found) := by
  cases found with
  | none => exact fail lawful _
  | some value => exact pure lawful trivial

theorem record (lawful : inv.Lawful) {entry : Record} (plain : entry.made? = none) :
    inv.Keeps always context (.record entry) (.record entry) :=
  fun holds => .returned (lawful.recorded entry plain holds) trivial

theorem lookup (lawful : inv.Lawful) (name : String) :
    inv.Keeps inv.fits context (.lookup name) (.lookup name) := by
  intro holds
  simp only [Action.lookup, Environment.fetch]
  cases bound : context.env.get? name with
  | none => exact .failed ⟨holds, lawful.refl context⟩
  | some value => exact .returned ⟨holds, lawful.refl context⟩ (lawful.bound holds bound)

theorem bindAll (lawful : inv.Lawful) {bindings : List (String × Value)}
    (fit : ∀ binding ∈ bindings, inv.fits context binding.2) :
    inv.Keeps always context (.bindAll bindings) (.bindAll bindings) := by
  intro holds
  suffices leads : inv.Leads context { context with env := context.env.setAll bindings } from
    .returned leads trivial
  induction bindings generalizing context with
  | nil => exact ⟨holds, lawful.refl context⟩
  | cons binding rest ih =>
      obtain ⟨first, others⟩ := List.forall_mem_cons.mp fit
      have one := lawful.assigned binding.1 holds first
      have fit := fun binding member => lawful.fits_later one.2 (others binding member)
      exact one.trans lawful (ih fit one.1)

theorem ask (lawful : inv.Lawful) (request : Sink → Except SinkError Unit × Sink) :
    inv.Keeps always context (.ask request) (.ask request) := by
  intro holds
  unfold Action.ask
  split
  · exact .returned (lawful.written _ holds) trivial
  · exact .failed (lawful.written _ holds)

/-- Whatever a closure does on a copy of the bindings, they can be brought back. -/
theorem inSnapshot (lawful : inv.Lawful) {closure : Closure} {action other : Action EvalError Value}
    (callee : inv.fits context (.closure closure))
    (inner : ∀ after, inv.later context after → inv.Keeps inv.fits after action other) :
    inv.Keeps inv.fits context action.inSnapshot other.inSnapshot := by
  intro holds
  let copy : Context := { context with env := context.env.snapshot }
  have copied : inv.Leads context copy := lawful.copied callee holds
  have kept := inner copy copied.2 copied.1
  have back {after : Context} (leads : inv.Leads copy after) :
      inv.Leads after { after with env := after.env.restore } ∧
        inv.Leads context { after with env := after.env.restore } := by
    have since := copied.trans lawful leads
    have restored := lawful.restored (lawful.fits_later since.2 callee) since.1
    exact ⟨restored, since.trans lawful restored⟩
  simp only [Action.inSnapshot]
  change inv.Kept copy inv.fits (action copy) (other copy) at kept
  generalize action copy = outcome, other copy = outcome' at kept
  cases kept with
  | returned leads fits => exact .returned (back leads).2 (lawful.fits_later (back leads).1.2 fits)
  | failed leads => exact .failed (back leads).2
  | unfinished => exact .unfinished

theorem reported (lawful : inv.Lawful) {builtin : Builtin}
    (plain : ∀ value, (Record.resulted builtin value).made? = none)
    {action other : Action EvalError Value} (inner : inv.Keeps inv.fits context action other) :
    inv.Keeps inv.fits context (.reported builtin action) (.reported builtin other) := by
  intro holds
  have kept := inner holds
  simp only [Action.reported]
  generalize action context = outcome, other context = outcome' at kept
  cases kept with
  | @returned value after leads fits =>
      have logged := lawful.recorded _ (plain value) leads.1
      exact .returned (leads.trans lawful logged) (lawful.fits_later logged.2 fits)
  | @failed error after leads =>
      have logged := lawful.recorded (.failed builtin error) rfl leads.1
      exact .failed (leads.trans lawful logged)
  | unfinished => exact .unfinished

end Keeps

section Rules

variable (lawful : inv.Lawful) {ev ev' : Evaluator}
  (each : ∀ code context, inv.Keeps inv.fits context (ev code) (ev' code)) {context : Context}

include lawful each

theorem integer_keeps (code : Atom) :
    inv.Keeps always context (Evaluation.integer ev code) (Evaluation.integer ev' code) := by
  refine (each code context).bind lawful ?_
  intro value after _ _
  exact .expect lawful _ _

theorem boolean_keeps (code : Atom) :
    inv.Keeps always context (Evaluation.boolean ev code) (Evaluation.boolean ev' code) := by
  refine (each code context).bind lawful ?_
  intro value after _ _
  exact .expect lawful _ _

theorem values_keeps (codes : List Atom) :
    inv.Keeps (fun after values => ∀ value ∈ values, inv.fits after value) context
      (Evaluation.values ev codes) (Evaluation.values ev' codes) := by
  induction codes generalizing context with
  | nil => exact .pure lawful (by simp)
  | cons code rest ih =>
      refine (each code context).bind lawful ?_
      intro value middle _ first
      refine ih.bind lawful ?_
      intro values after later others
      exact .pure lawful (List.forall_mem_cons.mpr ⟨lawful.fits_later later first, others⟩)

theorem accumulate_keeps (kind : Arithmetic) (total : Int64) (codes : List Atom) :
    inv.Keeps always context (Evaluation.accumulate ev kind total codes)
      (Evaluation.accumulate ev' kind total codes) := by
  induction codes generalizing context total with
  | nil => exact .pure lawful trivial
  | cons code rest ih =>
      refine (integer_keeps lawful each code).bind lawful ?_
      intro operand after _ _
      cases kind.apply? total operand with
      | none => exact .fail lawful _
      | some total => exact ih total

theorem sequence_keeps {last : Value} (fits : inv.fits context last) (statements : List Atom) :
    inv.Keeps inv.fits context (Evaluation.sequence ev last statements)
      (Evaluation.sequence ev' last statements) := by
  induction statements generalizing context last with
  | nil => exact .pure lawful fits
  | cons statement rest ih =>
      refine (each statement.unquoted context).bind lawful ?_
      intro value after _ fits
      exact ih fits

theorem conjunction_keeps (conditions : List Atom) :
    inv.Keeps always context (Evaluation.conjunction ev conditions)
      (Evaluation.conjunction ev' conditions) := by
  induction conditions generalizing context with
  | nil => exact .pure lawful trivial
  | cons condition rest ih =>
      refine (boolean_keeps lawful each condition).bind lawful ?_
      intro holds after _ _
      cases holds with
      | true => exact ih
      | false => exact .pure lawful trivial

theorem disjunction_keeps (conditions : List Atom) :
    inv.Keeps always context (Evaluation.disjunction ev conditions)
      (Evaluation.disjunction ev' conditions) := by
  induction conditions generalizing context with
  | nil => exact .pure lawful trivial
  | cons condition rest ih =>
      refine (boolean_keeps lawful each condition).bind lawful ?_
      intro holds after _ _
      cases holds with
      | true => exact .pure lawful trivial
      | false => exact ih

theorem iterate_keeps (condition advance body : Atom) (bound : Nat) :
    inv.Keeps always context (Evaluation.iterate ev condition advance body bound)
      (Evaluation.iterate ev' condition advance body bound) := by
  induction bound generalizing context with
  | zero => exact .unfinished
  | succ bound ih =>
      refine (boolean_keeps lawful each condition).bind lawful ?_
      intro holds middle _ _
      cases holds with
      | true =>
          refine (each body middle).bind lawful ?_
          intro value next _ _
          refine (each advance next).bind lawful ?_
          intro step after _ _
          exact ih
      | false => exact .pure lawful trivial

theorem printAll_keeps (items : List Atom) :
    inv.Keeps always context (Evaluation.printAll ev items) (Evaluation.printAll ev' items) := by
  induction items generalizing context with
  | nil => exact .pure lawful trivial
  | cons item rest ih =>
      refine (each item context).bind lawful ?_
      intro value middle _ _
      refine (Keeps.ask lawful _).bind lawful ?_
      intro _ after _ _
      exact ih

/-- All operations maintain the invariant, but for the making of closures, which maintains it only
    together with its record. -/
theorem perform_keeps (bound : Nat) {operation : Operation}
    (other : ∀ kind parameters body, operation ≠ .closure kind parameters body) :
    inv.Keeps inv.fits context (Evaluation.perform ev bound operation)
      (Evaluation.perform ev' bound operation) := by
  have plain {context : Context} {value : Value} (plain : value.isCallable = false) :
      inv.Keeps inv.fits context (pure value) (pure value) :=
    .pure lawful (lawful.plain context value plain)
  cases operation with
  | arithmetic kind first rest =>
      refine (integer_keeps lawful each first).bind lawful ?_
      intro start middle _ _
      refine (accumulate_keeps lawful each kind start rest).bind lawful ?_
      intro total after _ _
      exact plain rfl
  | comparison order left right =>
      refine (integer_keeps lawful each left).bind lawful ?_
      intro x middle _ _
      refine (integer_keeps lawful each right).bind lawful ?_
      intro y after _ _
      exact plain rfl
  | equality negated left right =>
      refine (each left context).bind lawful ?_
      intro x middle _ _
      refine (each right middle).bind lawful ?_
      intro y after _ _
      exact plain rfl
  | sequence statements =>
      exact sequence_keeps lawful each (lawful.plain context .nil rfl) statements
  | choice condition consequent alternative =>
      refine (boolean_keeps lawful each condition).bind lawful ?_
      intro holds after _ _
      cases holds with
      | true => exact each consequent after
      | false => exact each alternative after
  | conjunction conditions =>
      refine (conjunction_keeps lawful each conditions).bind lawful ?_
      intro holds after _ _
      exact plain rfl
  | disjunction conditions =>
      refine (disjunction_keeps lawful each conditions).bind lawful ?_
      intro holds after _ _
      exact plain rfl
  | negation condition =>
      refine (boolean_keeps lawful each condition).bind lawful ?_
      intro holds after _ _
      exact plain rfl
  | loop first condition advance body =>
      refine (each first context).bind lawful ?_
      intro value middle _ _
      refine (iterate_keeps lawful each condition advance body bound).bind lawful ?_
      intro _ after _ _
      exact plain rfl
  | assignment target code =>
      refine (Keeps.expect lawful .symbol target.symbol?).bind lawful ?_
      intro name begun _ _
      refine (each code begun).bind lawful ?_
      intro value middle _ fits
      refine (Keeps.record lawful rfl).bind lawful ?_
      intro _ logged later _
      have fits := lawful.fits_later later fits
      refine (Keeps.bindAll lawful (by simpa using fits)).bind lawful ?_
      intro _ after _ _
      exact plain rfl
  | stepping amount target =>
      refine (Keeps.expect lawful .symbol target.symbol?).bind lawful ?_
      intro name begun _ _
      refine (Keeps.lookup lawful name).bind lawful ?_
      intro value found _ _
      refine (Keeps.expect lawful .integer value.integer?).bind lawful ?_
      intro n middle _ _
      have fits : inv.fits middle (.integer (n + amount)) := lawful.plain _ _ rfl
      refine (Keeps.bindAll lawful (by simpa using fits)).bind lawful ?_
      intro _ after _ _
      exact plain rfl
  | closure kind parameters body => exact absurd rfl (other kind parameters body)
  | evaluation code => exact each code context
  | printing items =>
      refine (printAll_keeps lawful each items).bind lawful ?_
      intro _ printed _ _
      refine (Keeps.ask lawful _).bind lawful ?_
      intro _ written _ _
      refine (Keeps.ask lawful _).bind lawful ?_
      intro _ after _ _
      exact plain rfl

omit each in
/-- The making of a closure maintains the invariant together with its record. -/
theorem making_keeps {kind : ClosureKind} (bound : Nat) (parameters body : Atom)
    (callee : inv.fits context (.builtin kind.builtin)) :
    inv.Keeps inv.fits context
      (.reported kind.builtin (Evaluation.perform ev bound (.closure kind parameters body)))
      (.reported kind.builtin (Evaluation.perform ev' bound (.closure kind parameters body))) := by
  intro holds
  have refused (error : EvalError) :
      inv.Leads context (context.logging (.failed kind.builtin error)) :=
    lawful.recorded _ rfl holds
  simp only [Action.reported, Evaluation.perform, Bind.bind, Action.bind]
  cases parameters.items? with
  | none => exact .failed (refused _)
  | some items =>
      simp only [Action.expect, Pure.pure, Action.pure]
      cases items.mapM Atom.symbol? with
      | none => exact .failed (refused _)
      | some names =>
          have made := lawful.made ⟨context.nextIdentity, kind, names, body⟩ callee holds rfl
          exact .returned made.1 made.2

omit lawful each in
/-- The calls that make a closure are the calls of the two built-ins for it. -/
theorem operation?_closure {builtin : Builtin} {args : List Atom} {operation : Operation}
    (call : builtin.operation? args = some operation) :
    (∃ kind parameters body, builtin = ClosureKind.builtin kind ∧
      operation = .closure kind parameters body) ∨
    ((∀ kind parameters body, operation ≠ .closure kind parameters body) ∧
      ∀ value, (Record.resulted builtin value).made? = none) := by
  unfold Builtin.operation? at call
  split at call <;> cases call
  case h_20 => exact .inl ⟨.lambda, _, _, rfl, rfl⟩
  case h_21 => exact .inl ⟨.expander, _, _, rfl, rfl⟩
  all_goals exact .inr ⟨by simp, fun _ => rfl⟩

theorem callBuiltin_keeps (bound : Nat) {builtin : Builtin} (args : List Atom)
    (callee : inv.fits context (.builtin builtin)) :
    inv.Keeps inv.fits context (Evaluation.callBuiltin ev bound builtin args)
      (Evaluation.callBuiltin ev' bound builtin args) := by
  unfold Evaluation.callBuiltin
  cases call : builtin.operation? args with
  | none => exact .fail lawful _
  | some operation =>
      refine (Keeps.record lawful rfl).bind lawful ?_
      intro _ begun later _
      rcases operation?_closure call with ⟨kind, parameters, body, rfl, rfl⟩ | ⟨other, plain⟩
      · exact making_keeps lawful bound parameters body (lawful.fits_later later callee)
      · exact .reported lawful plain (perform_keeps lawful each bound other)

theorem enter_keeps (closure : Closure) (args : List Atom) :
    inv.Keeps inv.fits context (Evaluation.enter ev closure args)
      (Evaluation.enter ev' closure args) := by
  unfold Evaluation.enter
  cases closure.kind with
  | lambda =>
      refine (values_keeps lawful each args).bind lawful ?_
      intro values ready _ fit
      have fit : ∀ binding ∈ closure.parameters.zip values, inv.fits ready binding.2 :=
        fun binding member => fit binding.2 (List.of_mem_zip member).2
      refine (Keeps.bindAll lawful fit).bind lawful ?_
      intro _ bound _ _
      exact each closure.body bound
  | expander =>
      have fit : ∀ binding ∈ closure.parameters.zip (args.map Value.atom),
          inv.fits context binding.2 := by
        intro binding member
        obtain ⟨code, _, atom⟩ := List.mem_map.mp (List.of_mem_zip member).2
        rw [← atom]
        exact lawful.plain context (.atom code) rfl
      refine (Keeps.bindAll lawful fit).bind lawful ?_
      intro _ bound _ _
      refine (each closure.body bound).bind lawful ?_
      intro value yielded _ _
      refine (Keeps.expect lawful .quotedAtom value.atom?).bind lawful ?_
      intro expansion expected _ _
      refine (Keeps.record lawful rfl).bind lawful ?_
      intro _ logged _ _
      exact each expansion logged

theorem callClosure_keeps {closure : Closure} (args : List Atom)
    (callee : inv.fits context (.closure closure)) :
    inv.Keeps inv.fits context (Evaluation.callClosure ev closure args)
      (Evaluation.callClosure ev' closure args) := by
  unfold Evaluation.callClosure
  split
  · refine (Keeps.record lawful rfl).bind lawful ?_
    intro _ begun later _
    refine .inSnapshot lawful (lawful.fits_later later callee) ?_
    intro copy _
    exact enter_keeps lawful each closure args
  · exact .fail lawful _

theorem call_keeps (bound : Nat) {callee : Value} (args : List Atom)
    (fits : inv.fits context callee) :
    inv.Keeps inv.fits context (Evaluation.call ev bound callee args)
      (Evaluation.call ev' bound callee args) := by
  cases callee with
  | builtin builtin => exact callBuiltin_keeps lawful each bound args fits
  | closure closure => exact callClosure_keeps lawful each args fits
  | nil | integer | boolean | atom => exact .fail lawful _

theorem meaning_keeps (bound : Nat) (code : Atom) :
    inv.Keeps inv.fits context (Evaluation.meaning ev bound code)
      (Evaluation.meaning ev' bound code) := by
  refine (Keeps.record lawful rfl).bind lawful ?_
  intro _ begun _ _
  cases code with
  | number n => exact .pure lawful (lawful.plain begun (.integer n) rfl)
  | symbol name => exact .lookup lawful name
  | quoted inner => exact .pure lawful (lawful.plain begun (.atom inner) rfl)
  | list items =>
      cases items with
      | nil => exact .pure lawful (lawful.plain begun .nil rfl)
      | cons head args =>
          refine (each head begun).bind lawful ?_
          intro callee after _ fits
          exact call_keeps lawful each bound args fits

end Rules

/-- All evaluations maintain a lawful invariant. -/
theorem eval_keeps (lawful : inv.Lawful) (bound : Nat) (code : Atom) (context : Context) :
    inv.Keeps inv.fits context (eval bound code) (eval bound code) := by
  induction bound generalizing code context with
  | zero => exact .unfinished
  | succ bound ih => exact meaning_keeps lawful ih bound code

/-- The same invariant, in contexts that may come later than a certain one. -/
def since (inv : Invariant) (start : Context) : Invariant where
  holds context := inv.Leads start context
  fits := inv.fits
  later := inv.later

theorem Lawful.since (lawful : inv.Lawful) (start : Context) : (inv.since start).Lawful := by
  have leads {context after : Context} (before : inv.Leads start context)
      (leads : inv.Leads context after) : (inv.since start).Leads context after :=
    ⟨before.trans lawful leads, leads.2⟩
  exact {
    refl := lawful.refl
    trans := lawful.trans
    fits_later := lawful.fits_later
    plain := lawful.plain
    bound := fun holds => lawful.bound holds.1
    assigned := fun name holds fits => leads holds (lawful.assigned name holds.1 fits)
    recorded := fun entry plain holds => leads holds (lawful.recorded entry plain holds.1)
    written := fun sink holds => leads holds (lawful.written sink holds.1)
    copied := fun callee holds => leads holds (lawful.copied callee holds.1)
    restored := fun callee holds => leads holds (lawful.restored callee holds.1)
    made := fun closure callee holds fresh =>
      have made := lawful.made closure callee holds.1 fresh
      ⟨leads holds made.1, made.2⟩ }

/-- The rules ask for evaluations only where the invariant has led: elsewhere the evaluator could do
    anything. -/
theorem asks (lawful : inv.Lawful) {outer inner : Point} (step : outer.Asks inner)
    (holds : inv.holds outer.context) : inv.Leads outer.context inner.context := by
  obtain ⟨bound, other, elsewhere, differs⟩ := step
  by_contra astray
  have start : (inv.since outer.context).holds outer.context :=
    ⟨holds, lawful.refl outer.context⟩
  have lawful := lawful.since outer.context
  have each (code : Atom) (context : Context) :
      (inv.since outer.context).Keeps inv.fits context (other code) (eval inner.bound code) := by
    intro led
    have same : other code context = eval inner.bound code context := by
      refine elsewhere code context fun same => astray ?_
      obtain ⟨rfl, rfl⟩ := Prod.mk.inj same
      exact led
    rw [same]
    exact eval_keeps lawful inner.bound code context led
  have kept := meaning_keeps lawful each inner.bound outer.code start
  apply differs
  rw [Point.outcome, bound]
  exact kept.eq

theorem within (lawful : inv.Lawful) {whole point : Point} (within : point.Within whole)
    (holds : inv.holds whole.context) : inv.Leads whole.context point.context := by
  induction within with
  | refl => exact ⟨holds, lawful.refl whole.context⟩
  | tail _ step led => exact led.trans lawful (asks lawful step led.1)

end Invariant

end Homoiconic
