import Homoiconic.Proofs.Evaluation.Assignments
import Homoiconic.Proofs.Evaluation.Points
import Homoiconic.Proofs.Evaluation.Simulation

/-! # Where code comes from

No rule of evaluation puts an atom together. What is evaluated, bound or taken as the body of a
closure is a part of something that was there before. So if an evaluation begins with code that is
known, for any notion of it that goes from an atom to its parts, then only known code occurs in
it: `Point.Within.madeOf`.
-/

namespace Homoiconic

/-- What is true of an atom is true of its parts. -/
def Atom.Hereditary (known : Atom → Prop) : Prop :=
  ∀ {part whole : Atom}, Part part whole → known whole → known part

/-- All code in the value is known. -/
def Value.MadeOf (known : Atom → Prop) : Value → Prop
  | .atom code => known code
  | .closure function => known function.body ∧ ∀ name ∈ function.parameters, known (.symbol name)
  | .nil | .integer _ | .boolean _ | .builtin _ => True

def Bindings.MadeOf (known : Atom → Prop) (bindings : Bindings) : Prop :=
  ∀ (name : String) (value : Value), bindings[name]? = some value → value.MadeOf known

structure Environment.MadeOf (known : Atom → Prop) (env : Environment) : Prop where
  active : env.active.MadeOf known
  saved : ∀ bindings ∈ env.saved, bindings.MadeOf known

section Mono

variable {known more : Atom → Prop} (weaker : ∀ code, known code → more code)

include weaker

theorem Value.MadeOf.mono {value : Value} (made : value.MadeOf known) : value.MadeOf more := by
  cases value with
  | atom code => exact weaker code made
  | closure function => exact ⟨weaker _ made.1, fun name member => weaker _ (made.2 name member)⟩
  | nil | integer | boolean | builtin => trivial

theorem Environment.MadeOf.mono {env : Environment} (made : env.MadeOf known) :
    env.MadeOf more where
  active name value bound := (made.active name value bound).mono weaker
  saved bindings member name value bound :=
    (made.saved bindings member name value bound).mono weaker

end Mono

theorem Bindings.MadeOf.insert {known : Atom → Prop} {bindings : Bindings} {value : Value}
    (made : bindings.MadeOf known) (name : String) (fits : value.MadeOf known) :
    Bindings.MadeOf known (bindings.insert name value) :=
  Bindings.forall_insert made name fits

theorem Bindings.MadeOf.ofList {known : Atom → Prop} {entries : List (String × Value)}
    (each : ∀ entry ∈ entries, entry.2.MadeOf known) :
    Bindings.MadeOf known (.ofList entries compare) :=
  Bindings.forall_ofList each

theorem Environment.MadeOf.snapshot {known : Atom → Prop} {env : Environment}
    (made : env.MadeOf known) : env.snapshot.MadeOf known where
  active := made.active
  saved := List.forall_mem_cons.mpr ⟨made.active, made.saved⟩

namespace Correspondence

variable {known : Atom → Prop}

/-- Everything corresponds to itself, as long as all code in it is known. -/
def within (known : Atom → Prop) : Correspondence where
  names name name' := name = name' ∧ known (.symbol name)
  codes code code' := code = code' ∧ known code
  identities := Eq
  bindings bindings bindings' := bindings = bindings' ∧ bindings.MadeOf known
  sinks := Eq
  logs := Eq
  supplies := Eq

theorem closures_within {closure closure' : Closure} :
    (within known).Closures closure closure' ↔
      closure = closure' ∧ Value.MadeOf known (.closure closure) := by
  constructor
  · intro related
    obtain ⟨sameNames, names⟩ := forall₂_eq_and.mp related.parameters
    obtain ⟨sameBody, body⟩ := related.body
    refine ⟨?_, body, names⟩
    cases closure
    cases closure'
    simp only [Closure.mk.injEq]
    exact ⟨related.identity, related.kind, sameNames, sameBody⟩
  · rintro ⟨rfl, body, names⟩
    exact {
      identity := rfl
      kind := rfl
      parameters := forall₂_eq_and.mpr ⟨rfl, names⟩
      body := ⟨rfl, body⟩ }

theorem values_within {value value' : Value} :
    (within known).Values value value' ↔ value = value' ∧ value.MadeOf known := by
  constructor
  · intro related
    cases related with
    | nil | integer | boolean | builtin => exact ⟨rfl, trivial⟩
    | atom code =>
        obtain ⟨rfl, known⟩ := code
        exact ⟨rfl, known⟩
    | closure function =>
        obtain ⟨rfl, made⟩ := closures_within.mp function
        exact ⟨rfl, made⟩
  · rintro ⟨rfl, made⟩
    cases value with
    | nil => exact .nil
    | integer n => exact .integer n
    | boolean b => exact .boolean b
    | builtin operation => exact .builtin operation
    | atom code => exact .atom ⟨rfl, made⟩
    | closure function => exact .closure (closures_within.mpr ⟨rfl, made⟩)

theorem errors_within {error error' : EvalError}
    (related : (within known).Errors error error') : error = error' :=
  Errors.eq (k := within known) (fun _ _ names => names.1) (fun _ _ codes => codes.1) related

theorem records_within {record record' : Record}
    (related : (within known).Records record record') : record = record' := by
  cases related with
  | evaluating code | expanded code => rw [code.1]
  | called builtin args => rw [(forall₂_eq_and.mp args).1]
  | resulted builtin value => rw [(values_within.mp value).1]
  | failed builtin error => rw [errors_within error]
  | entered closure args => rw [(closures_within.mp closure).1, (forall₂_eq_and.mp args).1]
  | assigned name value => rw [name.1, (values_within.mp value).1]

theorem contexts_within {context context' : Context} :
    (within known).Contexts context context' ↔
      context = context' ∧ context.env.MadeOf known := by
  constructor
  · rintro ⟨⟨active, madeActive⟩, saved, sink, log, supply⟩
    obtain ⟨saved, madeSaved⟩ := forall₂_eq_and.mp saved
    refine ⟨?_, madeActive, madeSaved⟩
    obtain ⟨⟨_, _⟩, _, _, _⟩ := context
    obtain ⟨⟨_, _⟩, _, _, _⟩ := context'
    cases active
    cases saved
    cases sink
    cases log
    cases supply
    rfl
  · rintro ⟨rfl, made⟩
    exact {
      active := ⟨rfl, made.active⟩
      saved := forall₂_eq_and.mpr ⟨rfl, made.saved⟩
      sink := rfl
      log := rfl
      supply := rfl }

theorem outcomes_within {outcome outcome' : Outcome EvalError Value}
    (related : Outcome.Related (within known).Errors (within known).Values (within known).Contexts
      outcome outcome') : outcome = outcome' := by
  cases related with
  | returned value after => rw [(values_within.mp value).1, (contexts_within.mp after).1]
  | failed error after => rw [errors_within error, (contexts_within.mp after).1]
  | unfinished => rfl

theorem lawful_within (hereditary : Atom.Hereditary known) : (within known).Lawful where
  shape := by
    rintro code _ ⟨rfl, here⟩
    cases code with
    | number value => exact .number value
    | symbol name => exact .symbol ⟨rfl, here⟩
    | list items =>
        have each : ∀ item ∈ items, known item :=
          fun item member => hereditary (.item member .refl) here
        exact .list (forall₂_eq_and.mpr ⟨rfl, each⟩)
    | quoted inner => exact .quoted ⟨rfl, hereditary (.quoted .refl) here⟩
  codes_biUnique := biUnique_eq_and known
  identities_biUnique := biUnique_eq
  looked := by
    rintro bindings _ name _ ⟨rfl, made⟩ ⟨rfl, _⟩
    cases bound : bindings[name]? with
    | none => exact .none
    | some value => exact .some (values_within.mpr ⟨rfl, made name value bound⟩)
  bound := by
    rintro bindings _ name _ value _ ⟨rfl, made⟩ ⟨rfl, _⟩ values
    obtain ⟨rfl, fits⟩ := values_within.mp values
    exact ⟨rfl, made.insert name fits⟩
  fresh := by
    rintro next _ rfl
    exact ⟨rfl, rfl⟩
  printed := by
    intro value value' values
    obtain ⟨rfl, _⟩ := values_within.mp values
    exact requests_of_eq rfl _
  newline := requests_of_eq rfl _
  flushed := requests_of_eq rfl Sink.flush
  logged := by
    rintro record record' log _ records rfl
    rw [records_within records]
    rfl

end Correspondence

namespace Evaluation

variable {known : Atom → Prop}

/-- All that a point of an evaluation has to do with is known: its code, the bindings before and
    after it, and its value. -/
structure Point.MadeOf (known : Atom → Prop) (point : Point) : Prop where
  code : known point.code
  before : point.context.env.MadeOf known
  value : ∀ value after, point.outcome = .returned value after → value.MadeOf known
  after : ∀ after, point.outcome.after? = some after → after.env.MadeOf known

/-- An evaluation of known code, where only known code is bound, leads to nothing else. -/
theorem Point.madeOf (hereditary : Atom.Hereditary known) {point : Point}
    (code : known point.code) (before : point.context.env.MadeOf known) : point.MadeOf known := by
  have ended := Correspondence.eval_related (Correspondence.lawful_within hereditary) point.bound
    ⟨rfl, code⟩ point.context point.context (Correspondence.contexts_within.mpr ⟨rfl, before⟩)
  refine { code, before, value := ?_, after := ?_ }
  · intro value after returned
    rw [outcome] at returned
    rw [returned] at ended
    cases ended with
    | returned values _ => exact (Correspondence.values_within.mp values).2
  · intro after ends
    rw [outcome] at ends
    generalize eval point.bound point.code point.context = outcome at ends ended
    cases ended with
    | returned _ contexts | failed _ contexts =>
        cases ends
        exact (Correspondence.contexts_within.mp contexts).2
    | unfinished => cases ends

/-- The rules ask for the evaluation of known code only, and only where all that is bound is known:
    elsewhere the evaluator could do anything. -/
theorem Point.Asks.madeOf (hereditary : Atom.Hereditary known) {outer inner : Point}
    (asks : outer.Asks inner) (made : outer.MadeOf known) : inner.MadeOf known := by
  obtain ⟨bound, other, elsewhere, differs⟩ := asks
  suffices here : known inner.code ∧ inner.context.env.MadeOf known from
    Point.madeOf hereditary here.1 here.2
  by_contra unknown
  have lawful := Correspondence.lawful_within hereditary
  have each : ∀ code code', (Correspondence.within known).codes code code' →
      (Correspondence.within known).Actions (Correspondence.within known).Values
        (other code) (eval inner.bound code') := by
    rintro code _ ⟨rfl, here⟩ context _ contexts
    obtain ⟨rfl, before⟩ := Correspondence.contexts_within.mp contexts
    have same : other code context = eval inner.bound code context := by
      refine elsewhere code context fun same => unknown ?_
      obtain ⟨rfl, rfl⟩ := Prod.mk.inj same
      exact ⟨here, before⟩
    rw [same]
    exact Correspondence.eval_related lawful inner.bound ⟨rfl, here⟩ context context contexts
  have ended := Correspondence.meaning_related lawful each inner.bound ⟨rfl, made.code⟩
    outer.context outer.context (Correspondence.contexts_within.mpr ⟨rfl, made.before⟩)
  apply differs
  rw [outcome, bound]
  exact Correspondence.outcomes_within ended

theorem Point.Within.madeOf (hereditary : Atom.Hereditary known) {whole point : Point}
    (within : point.Within whole) (code : known whole.code)
    (before : whole.context.env.MadeOf known) : point.MadeOf known := by
  induction within with
  | refl => exact Point.madeOf hereditary code before
  | tail _ asks made => exact asks.madeOf hereditary made

end Evaluation

end Homoiconic
