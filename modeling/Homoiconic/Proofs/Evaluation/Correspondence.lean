import Mathlib.Data.List.Forall2
import Homoiconic.Proofs.Evaluation.Unseen

/-! # Two evaluations side by side

A correspondence says what stands in a second evaluation for the names, the code, the identities and
the state of a first one. Values, errors, records and contexts correspond if their parts do. A
correspondence is lawful if it survives what an evaluation does with these parts: to look up and to
bind names, to take identities, to print and to log. Then evaluations of corresponding atoms in
corresponding contexts end in the same way, with what corresponds: `Correspondence.eval_related`.
-/

namespace Homoiconic

/-- Two outcomes of the same sort, with related contents. -/
inductive Outcome.Related {ε δ α β : Type} (errors : ε → δ → Prop) (values : α → β → Prop)
    (contexts : Context → Context → Prop) : Outcome ε α → Outcome δ β → Prop where
  | returned {value : α} {value' : β} {after after' : Context} :
      values value value' → contexts after after' →
      Related errors values contexts (.returned value after) (.returned value' after')
  | failed {error : ε} {error' : δ} {after after' : Context} :
      errors error error' → contexts after after' →
      Related errors values contexts (.failed error after) (.failed error' after')
  | unfinished : Related errors values contexts .unfinished .unfinished

theorem Outcome.Related.onContext {ε δ α β : Type} {errors : ε → δ → Prop} {values : α → β → Prop}
    {contexts later : Context → Context → Prop} {outcome : Outcome ε α} {other : Outcome δ β}
    (related : Related errors values contexts outcome other) {change change' : Context → Context}
    (kept : ∀ context context', contexts context context' →
      later (change context) (change' context')) :
    Related errors values later (outcome.onContext change) (other.onContext change') := by
  cases related with
  | returned value after => exact .returned value (kept _ _ after)
  | failed error after => exact .failed error (kept _ _ after)
  | unfinished => exact .unfinished

theorem Outcome.Related.mono {ε δ α β : Type} {errors errors' : ε → δ → Prop}
    {values values' : α → β → Prop} {contexts contexts' : Context → Context → Prop}
    {outcome : Outcome ε α} {other : Outcome δ β}
    (related : Related errors values contexts outcome other)
    (error : ∀ one two, errors one two → errors' one two)
    (value : ∀ one two, values one two → values' one two)
    (context : ∀ after after', outcome.after? = some after → other.after? = some after' →
      contexts after after' → contexts' after after') :
    Related errors' values' contexts' outcome other := by
  cases related with
  | returned found after => exact .returned (value _ _ found) (context _ _ rfl rfl after)
  | failed raised after => exact .failed (error _ _ raised) (context _ _ rfl rfl after)
  | unfinished => exact .unfinished

/-- Items that are equal and have a property, in lists. -/
theorem forall₂_eq_and {α : Type} {P : α → Prop} {items items' : List α} :
    List.Forall₂ (fun item item' => item = item' ∧ P item) items items' ↔
      items = items' ∧ ∀ item ∈ items, P item := by
  constructor
  · intro related
    induction related with
    | nil => exact ⟨rfl, by simp⟩
    | cons head _ ih =>
        obtain ⟨rfl, here⟩ := head
        obtain ⟨rfl, rest⟩ := ih
        exact ⟨rfl, List.forall_mem_cons.mpr ⟨here, rest⟩⟩
  · rintro ⟨rfl, all⟩
    exact List.forall₂_same.mpr fun item member => ⟨rfl, all item member⟩

theorem biUnique_eq_and {α : Type} (P : α → Prop) :
    Relator.BiUnique fun item item' => item = item' ∧ P item := by
  constructor
  · rintro one other _ ⟨rfl, _⟩ ⟨rfl, _⟩
    rfl
  · rintro _ one other ⟨rfl, _⟩ ⟨rfl, _⟩
    rfl

theorem biUnique_eq {α : Type} : Relator.BiUnique (@Eq α) := by
  constructor
  · rintro one other _ rfl rfl
    rfl
  · rintro _ one other rfl rfl
    rfl

/-- What stands in one evaluation for what there is in another. -/
structure Correspondence where
  names : String → String → Prop
  codes : Atom → Atom → Prop
  /-- The identities of closures. -/
  identities : Nat → Nat → Prop
  bindings : Bindings → Bindings → Prop
  sinks : Sink → Sink → Prop
  logs : List Record → List Record → Prop
  /-- The identities that are to be taken next. -/
  supplies : Nat → Nat → Prop

namespace Correspondence

variable (k : Correspondence)

/-- Two atoms of the same sort, with corresponding parts. -/
inductive Shapes : Atom → Atom → Prop where
  | number (value : Int64) : Shapes (.number value) (.number value)
  | symbol {name name' : String} : k.names name name' → Shapes (.symbol name) (.symbol name')
  | list {items items' : List Atom} :
      List.Forall₂ k.codes items items' → Shapes (.list items) (.list items')
  | quoted {inner inner' : Atom} : k.codes inner inner' → Shapes (.quoted inner) (.quoted inner')

structure Closures (closure closure' : Closure) : Prop where
  identity : k.identities closure.identity closure'.identity
  kind : closure.kind = closure'.kind
  parameters : List.Forall₂ k.names closure.parameters closure'.parameters
  body : k.codes closure.body closure'.body

inductive Values : Value → Value → Prop where
  | nil : Values .nil .nil
  | integer (value : Int64) : Values (.integer value) (.integer value)
  | boolean (value : Bool) : Values (.boolean value) (.boolean value)
  | atom {code code' : Atom} : k.codes code code' → Values (.atom code) (.atom code')
  | builtin (operation : Builtin) : Values (.builtin operation) (.builtin operation)
  | closure {closure closure' : Closure} :
      k.Closures closure closure' → Values (.closure closure) (.closure closure')

inductive Errors : EvalError → EvalError → Prop where
  | undefinedVariable {name name' : String} :
      k.names name name' → Errors (.undefinedVariable name) (.undefinedVariable name')
  | notCallable {value value' : Value} :
      value.isCallable = false → k.Values value value' →
      Errors (.notCallable value) (.notCallable value')
  | badArgCount (callee : String) (arity : Arity) (count : Nat) :
      Errors (.badArgCount callee arity count) (.badArgCount callee arity count)
  | typeMismatch (expected : Expectation) : Errors (.typeMismatch expected) (.typeMismatch expected)
  | divisionByZero : Errors .divisionByZero .divisionByZero
  | output (cause : SinkError) : Errors (.output cause) (.output cause)

/-- The records that an evaluation makes. -/
inductive Records : Record → Record → Prop where
  | evaluating {code code' : Atom} :
      k.codes code code' → Records (.evaluating code) (.evaluating code')
  | called (builtin : Builtin) {args args' : List Atom} :
      List.Forall₂ k.codes args args' → Records (.called builtin args) (.called builtin args')
  | resulted (builtin : Builtin) {value value' : Value} :
      k.Values value value' → Records (.resulted builtin value) (.resulted builtin value')
  | failed (builtin : Builtin) {error error' : EvalError} :
      k.Errors error error' → Records (.failed builtin error) (.failed builtin error')
  | entered {closure closure' : Closure} {args args' : List Atom} :
      k.Closures closure closure' → List.Forall₂ k.codes args args' →
      Records (.entered closure args) (.entered closure' args')
  | expanded {code code' : Atom} : k.codes code code' → Records (.expanded code) (.expanded code')
  | assigned {name name' : String} {value value' : Value} :
      k.names name name' → k.Values value value' →
      Records (.assigned name value) (.assigned name' value')

structure Named (binding binding' : String × Value) : Prop where
  name : k.names binding.1 binding'.1
  value : k.Values binding.2 binding'.2

structure Contexts (context context' : Context) : Prop where
  active : k.bindings context.env.active context'.env.active
  saved : List.Forall₂ k.bindings context.env.saved context'.env.saved
  sink : k.sinks context.sink context'.sink
  log : k.logs context.log context'.log
  supply : k.supplies context.nextIdentity context'.nextIdentity

/-- One request ends at a sink like the other at a corresponding sink. -/
def Requests (request request' : Sink → Except SinkError Unit × Sink) : Prop :=
  ∀ sink sink', k.sinks sink sink' → (request sink).1 = (request' sink').1 ∧
    k.sinks (request sink).2 (request' sink').2

/-- Writing one text to a sink ends like writing the other to a corresponding sink. -/
def Texts (text text' : String) : Prop :=
  k.Requests (·.write text) (·.write text')

theorem requests_of_eq {k : Correspondence} (equal : k.sinks = Eq)
    (request : Sink → Except SinkError Unit × Sink) : k.Requests request request := by
  unfold Requests
  rw [equal]
  rintro sink _ rfl
  exact ⟨rfl, rfl⟩

/-- What an evaluation does with names, code, identities and its state keeps the correspondence. -/
structure Lawful : Prop where
  shape : ∀ {code code'}, k.codes code code' → k.Shapes code code'
  codes_biUnique : Relator.BiUnique k.codes
  identities_biUnique : Relator.BiUnique k.identities
  looked : ∀ {bindings bindings' name name'}, k.bindings bindings bindings' → k.names name name' →
    Option.Rel k.Values bindings[name]? bindings'[name']?
  bound : ∀ {bindings bindings' name name' value value'}, k.bindings bindings bindings' →
    k.names name name' → k.Values value value' →
    k.bindings (bindings.insert name value) (bindings'.insert name' value')
  fresh : ∀ {next next'}, k.supplies next next' →
    k.identities next next' ∧ k.supplies (next + 1) (next' + 1)
  printed : ∀ {value value'}, k.Values value value' → k.Texts value.text value'.text
  newline : k.Texts "\n" "\n"
  flushed : k.Requests Sink.flush Sink.flush
  logged : ∀ {record record' log log'}, k.Records record record' → k.logs log log' →
    k.logs (record :: log) (record' :: log')

/-- In corresponding contexts, the two actions end in corresponding ways. -/
def Actions {α β : Type} (values : α → β → Prop) (action : Action EvalError α)
    (other : Action EvalError β) : Prop :=
  ∀ context context', k.Contexts context context' →
    Outcome.Related k.Errors values k.Contexts (action context) (other context')

variable {k}

namespace Actions

variable {α β γ δ : Type} {values : α → β → Prop} {results : γ → δ → Prop}

theorem pure {value : α} {value' : β} (related : values value value') :
    k.Actions values (Pure.pure value) (Pure.pure value') :=
  fun _ _ contexts => .returned related contexts

theorem fail {error error' : EvalError} (related : k.Errors error error') :
    k.Actions values (Action.fail error) (Action.fail error') :=
  fun _ _ contexts => .failed related contexts

theorem unfinished : k.Actions values Action.unfinished Action.unfinished :=
  fun _ _ _ => .unfinished

theorem bind {action : Action EvalError α} {other : Action EvalError β}
    {next : α → Action EvalError γ} {next' : β → Action EvalError δ}
    (first : k.Actions values action other)
    (later : ∀ value value', values value value' → k.Actions results (next value) (next' value')) :
    k.Actions results (action >>= next) (other >>= next') := by
  intro context context' contexts
  have begun := first context context' contexts
  simp only [Bind.bind, Action.bind]
  generalize action context = outcome, other context' = outcome' at begun ⊢
  cases begun with
  | returned value after => exact later _ _ value _ _ after
  | failed error after => exact .failed error after
  | unfinished => exact .unfinished

/-- What follows may leave the value aside. -/
theorem seq {action : Action EvalError α} {other : Action EvalError β} {next : Action EvalError γ}
    {next' : Action EvalError δ} (first : k.Actions values action other)
    (later : k.Actions results next next') :
    k.Actions results (action >>= fun _ => next) (other >>= fun _ => next') :=
  first.bind fun _ _ _ => later

theorem expect (expected : Expectation) {found : Option α} {found' : Option β}
    (related : Option.Rel values found found') :
    k.Actions values (Action.expect expected found) (Action.expect expected found') := by
  cases related with
  | none => exact fail (.typeMismatch expected)
  | some value => exact pure value

theorem inSnapshot {action : Action EvalError α} {other : Action EvalError β}
    (inside : k.Actions values action other) :
    k.Actions values action.inSnapshot other.inSnapshot := by
  intro context context' contexts
  rw [Action.inSnapshot_eq, Action.inSnapshot_eq]
  have onCopy : k.Contexts { context with env := context.env.snapshot }
      { context' with env := context'.env.snapshot } :=
    { contexts with saved := .cons contexts.active contexts.saved }
  refine (inside _ _ onCopy).onContext fun after after' later => ?_
  have saved := later.saved
  unfold Environment.restore
  cases before : after.env.saved with
  | nil =>
      rw [before, List.forall₂_nil_left_iff] at saved
      simpa only [saved] using later
  | cons previous rest =>
      rw [before, List.forall₂_cons_left_iff] at saved
      obtain ⟨previous', rest', active, saved, before'⟩ := saved
      rw [before']
      exact { later with active, saved }

variable (lawful : k.Lawful)

include lawful

theorem record {entry entry' : Record} (related : k.Records entry entry') :
    k.Actions Eq (Action.record entry) (Action.record entry') :=
  fun _ _ contexts => .returned rfl { contexts with log := lawful.logged related contexts.log }

theorem freshIdentity : k.Actions k.identities Action.freshIdentity Action.freshIdentity := by
  intro context context' contexts
  obtain ⟨identity, supply⟩ := lawful.fresh contexts.supply
  exact .returned identity { contexts with supply }

theorem lookup {name name' : String} (related : k.names name name') :
    k.Actions k.Values (Action.lookup name) (Action.lookup name') := by
  intro context context' contexts
  have found := lawful.looked contexts.active related
  unfold Action.lookup Environment.fetch Environment.get?
  cases before : context.env.active[name]? <;> cases before' : context'.env.active[name']? <;>
    rw [before, before'] at found <;> cases found
  · exact .failed (.undefinedVariable related) contexts
  · exact .returned ‹_› contexts

theorem bindAll {bindings bindings' : List (String × Value)}
    (related : List.Forall₂ k.Named bindings bindings') :
    k.Actions Eq (Action.bindAll bindings) (Action.bindAll bindings') := by
  intro context context' contexts
  refine .returned rfl ?_
  -- Each binding is made in environments that correspond already.
  induction related generalizing context context' with
  | nil => exact contexts
  | @cons binding binding' _ _ first _ ih =>
      exact ih { context with env := context.env.set binding.1 binding.2 }
        { context' with env := context'.env.set binding'.1 binding'.2 }
        { contexts with active := lawful.bound contexts.active first.name first.value }

omit lawful in
theorem ask {request request' : Sink → Except SinkError Unit × Sink}
    (related : k.Requests request request') :
    k.Actions Eq (Action.ask request) (Action.ask request') := by
  intro context context' contexts
  obtain ⟨same, sink⟩ := related _ _ contexts.sink
  unfold Action.ask
  generalize request context.sink = ended at same sink ⊢
  generalize request' context'.sink = ended' at same sink ⊢
  obtain ⟨result, rest⟩ := ended
  obtain ⟨result', rest'⟩ := ended'
  obtain rfl : result = result' := same
  cases result with
  | ok => exact .returned rfl { contexts with sink }
  | error cause => exact .failed (.output cause) { contexts with sink }

theorem reported (builtin : Builtin) {action other : Action EvalError Value}
    (inside : k.Actions k.Values action other) :
    k.Actions k.Values (Action.reported builtin action) (Action.reported builtin other) := by
  intro context context' contexts
  have ended := inside context context' contexts
  unfold Action.reported
  generalize action context = outcome, other context' = outcome' at ended ⊢
  cases ended with
  | returned value after =>
      exact .returned value { after with log := lawful.logged (.resulted builtin value) after.log }
  | failed error after =>
      exact .failed error { after with log := lawful.logged (.failed builtin error) after.log }
  | unfinished => exact .unfinished

end Actions

namespace Values

variable {value value' : Value}

theorem integer? (related : k.Values value value') :
    Option.Rel Eq value.integer? value'.integer? := by
  cases related with
  | integer n => exact .some rfl
  | nil | boolean | atom | builtin | closure => exact .none

theorem boolean? (related : k.Values value value') :
    Option.Rel Eq value.boolean? value'.boolean? := by
  cases related with
  | boolean b => exact .some rfl
  | nil | integer | atom | builtin | closure => exact .none

theorem atom? (related : k.Values value value') :
    Option.Rel k.codes value.atom? value'.atom? := by
  cases related with
  | atom code => exact .some code
  | nil | integer | boolean | builtin | closure => exact .none

theorem same (lawful : k.Lawful) {other other' : Value} (one : k.Values value value')
    (two : k.Values other other') : value.same other = value'.same other' := by
  cases one <;> cases two <;> try rfl
  case atom.atom code code' one other other' two =>
    have agree : code = other ↔ code' = other' := Relator.rel_eq lawful.codes_biUnique one two
    exact Bool.eq_iff_iff.mpr (by simp only [Value.same, beq_iff_eq, agree])
  case closure.closure one other other' two =>
    have agree := Relator.rel_eq lawful.identities_biUnique one.identity two.identity
    exact Bool.eq_iff_iff.mpr (by simp only [Value.same, beq_iff_eq, agree])

end Values

namespace Shapes

variable {code code' : Atom}

theorem symbol? (related : k.Shapes code code') :
    Option.Rel k.names code.symbol? code'.symbol? := by
  cases related with
  | symbol name => exact .some name
  | number | list | quoted => exact .none

theorem items? (related : k.Shapes code code') :
    Option.Rel (List.Forall₂ k.codes) code.items? code'.items? := by
  cases related with
  | list items => exact .some items
  | number | symbol | quoted => exact .none

end Shapes

section Equal

variable (sameNames : ∀ name name', k.names name name' → name = name')
  (sameCodes : ∀ code code', k.codes code code' → code = code')

include sameCodes in
/-- Identities tell nothing but closures apart. -/
theorem Values.eq_of_isCallable {value value' : Value} (related : k.Values value value')
    (plain : value.isCallable = false) : value = value' := by
  cases related with
  | nil | integer | boolean => rfl
  | atom code => rw [sameCodes _ _ code]
  | builtin | closure => cases plain

include sameNames sameCodes in
theorem Errors.eq {error error' : EvalError} (related : k.Errors error error') :
    error = error' := by
  cases related with
  | undefinedVariable name => rw [sameNames _ _ name]
  | notCallable plain value => rw [value.eq_of_isCallable sameCodes plain]
  | badArgCount | typeMismatch | divisionByZero | output => rfl

end Equal

end Correspondence

end Homoiconic
