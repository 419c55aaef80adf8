import Mathlib.Logic.Equiv.Basic
import Homoiconic.Proofs.Evaluation.Simulation

/-! # Evaluation under other names

Names mean what they are bound to, and nothing else: if all names are replaced, in the code and in
the bindings, and different names by different ones, then an evaluation ends as before, with what
it yielded and left before, under the other names. Only what is printed may differ.
-/

namespace Homoiconic

variable {r : String → String}

namespace Atom

mutual
/-- The atom with other names for its symbols. -/
def rename (r : String → String) : Atom → Atom
  | .number value => .number value
  | .symbol name => .symbol (r name)
  | .list items => .list (renameAll r items)
  | .quoted inner => .quoted (inner.rename r)

def renameAll (r : String → String) : List Atom → List Atom
  | [] => []
  | item :: rest => item.rename r :: renameAll r rest
end

theorem renameAll_eq_map (items : List Atom) : renameAll r items = items.map (rename r) := by
  induction items with
  | nil => rfl
  | cons item rest ih => rw [renameAll, ih, List.map_cons]

mutual
/-- Different atoms stay different if different names do. -/
theorem rename_injective (injective : Function.Injective r) {one other : Atom}
    (same : one.rename r = other.rename r) : one = other := by
  cases one with
  | number value =>
      cases other with
      | number => exact same
      | symbol | list | quoted => simp [rename] at same
  | symbol name =>
      cases other with
      | symbol => exact congrArg symbol (injective (symbol.inj same))
      | number | list | quoted => simp [rename] at same
  | list items =>
      cases other with
      | list => exact congrArg list (renameAll_injective injective (list.inj same))
      | number | symbol | quoted => simp [rename] at same
  | quoted inner =>
      cases other with
      | quoted => exact congrArg quoted (rename_injective injective (quoted.inj same))
      | number | symbol | list => simp [rename] at same

theorem renameAll_injective (injective : Function.Injective r) {items others : List Atom}
    (same : renameAll r items = renameAll r others) : items = others := by
  cases items with
  | nil =>
      cases others with
      | nil => rfl
      | cons => simp [renameAll] at same
  | cons item rest =>
      cases others with
      | nil => simp [renameAll] at same
      | cons =>
          obtain ⟨first, later⟩ := List.cons.inj same
          rw [rename_injective injective first, renameAll_injective injective later]
end

end Atom

def Closure.rename (r : String → String) (closure : Closure) : Closure :=
  { closure with parameters := closure.parameters.map r, body := closure.body.rename r }

/-- The value with other names in its code. Built-ins go by no name. -/
def Value.rename (r : String → String) : Value → Value
  | .atom code => .atom (code.rename r)
  | .closure function => .closure (function.rename r)
  | .nil => .nil
  | .integer value => .integer value
  | .boolean value => .boolean value
  | .builtin operation => .builtin operation

def EvalError.rename (r : String → String) : EvalError → EvalError
  | .undefinedVariable name => .undefinedVariable (r name)
  | .notCallable value => .notCallable (value.rename r)
  | .badArgCount callee arity count => .badArgCount callee arity count
  | .typeMismatch expected => .typeMismatch expected
  | .divisionByZero => .divisionByZero
  | .output cause => .output cause

/-- The same bindings of other names, and to values with other names. -/
def Bindings.rename (r : String → String) (bindings : Bindings) : Bindings :=
  .ofList (bindings.toList.map fun binding => (r binding.1, binding.2.rename r)) compare

def Environment.rename (r : String → String) (env : Environment) : Environment where
  active := env.active.rename r
  saved := env.saved.map (Bindings.rename r)

def Context.rename (r : String → String) (context : Context) : Context :=
  { context with env := context.env.rename r }

/-- Whatever is written or flushed is accepted. -/
structure Sink.IsAccepting (sink : Sink) : Prop where
  unlimited : sink.room = none
  flushes : sink.flushFails = false
  untroubled : ∀ requests, sink.trouble requests = none

namespace Sink.IsAccepting

variable {sink : Sink} (accepting : sink.IsAccepting)

include accepting

theorem asked (request : Request) : (sink.asked request).IsAccepting where
  unlimited := accepting.unlimited
  flushes := accepting.flushes
  untroubled later := accepting.untroubled (request :: later)

theorem write (text : String) :
    (sink.write text).1 = .ok () ∧ (sink.write text).2.IsAccepting := by
  have after := accepting.asked (.write text.toUTF8)
  simp only [Sink.write, writeBytes, accepting.untroubled, fits, accepting.unlimited, keep,
    after.unlimited]
  exact ⟨rfl, rfl, after.flushes, after.untroubled⟩

theorem flush : sink.flush.1 = .ok () ∧ sink.flush.2.IsAccepting := by
  simp only [Sink.flush, accepting.untroubled, accepting.flushes]
  exact ⟨rfl, accepting.asked .flush⟩

end Sink.IsAccepting

namespace Bindings

variable (bindings : Bindings)

/-- The other names of different names are different. -/
theorem distinct_rename (injective : Function.Injective r) :
    (bindings.toList.map fun binding => (r binding.1, binding.2.rename r)).Pairwise
      fun one other => ¬ compare one.1 other.1 = .eq := by
  refine List.pairwise_map.mpr (Std.ExtTreeMap.distinct_keys_toList.imp ?_)
  intro one other different same
  have equal : one.1 = other.1 := injective (Std.compare_eq_iff_eq.mp same)
  exact different (Std.compare_eq_iff_eq.mpr equal)

/-- A name is not bound after a renaming if no bound name was replaced by it. -/
theorem getElem?_rename_eq_none {other : String}
    (unbound : ∀ name, r name = other → bindings[name]? = none) :
    (bindings.rename r)[other]? = none := by
  refine Std.ExtTreeMap.getElem?_ofList_of_contains_eq_false ?_
  simp only [List.map_map, List.contains_eq_mem, decide_eq_false_iff_not, List.mem_map,
    not_exists, not_and]
  rintro ⟨name, value⟩ member same
  have bound := Std.ExtTreeMap.mem_toList_iff_getElem?_eq_some.mp member
  rw [unbound name same] at bound
  cases bound

theorem getElem?_rename (injective : Function.Injective r) (name : String) :
    (bindings.rename r)[r name]? = bindings[name]?.map (Value.rename r) := by
  cases found : bindings[name]? with
  | some value =>
      have member : (name, value) ∈ bindings.toList :=
        Std.ExtTreeMap.mem_toList_iff_getElem?_eq_some.mpr found
      exact Std.ExtTreeMap.getElem?_ofList_of_mem (k := r name) (Std.compare_eq_iff_eq.mpr rfl)
        (bindings.distinct_rename injective) (List.mem_map_of_mem member)
  | none =>
      apply getElem?_rename_eq_none
      intro other same
      rw [injective same]
      exact found

theorem rename_insert (injective : Function.Injective r) (name : String) (value : Value) :
    Bindings.rename r (bindings.insert name value) =
      (bindings.rename r).insert (r name) (value.rename r) := by
  apply Std.ExtTreeMap.ext_getElem?
  intro other
  rw [Std.ExtTreeMap.getElem?_insert]
  by_cases named : ∃ before, r before = other
  · obtain ⟨before, rfl⟩ := named
    rw [getElem?_rename _ injective, getElem?_rename _ injective, Std.ExtTreeMap.getElem?_insert]
    simp only [Std.compare_eq_iff_eq, injective.eq_iff]
    split <;> rfl
  · have unnamed : ∀ before, r before ≠ other := not_exists.mp named
    have nowhere (bindings : Bindings) : (bindings.rename r)[other]? = none :=
      getElem?_rename_eq_none bindings fun before same => absurd same (unnamed before)
    rw [nowhere, nowhere, if_neg fun same => unnamed name (Std.compare_eq_iff_eq.mp same)]

end Bindings

theorem forall₂_map_eq {α β : Type} {f : α → β} {items : List α} {items' : List β} :
    List.Forall₂ (fun item item' => f item = item') items items' ↔ items.map f = items' := by
  rw [← List.forall₂_map_left_iff (R := Eq), List.forall₂_eq_eq_eq]

namespace Correspondence

/-- Everything corresponds to what it is under other names. -/
def renamedBy (r : String → String) : Correspondence where
  names name name' := r name = name'
  codes code code' := code.rename r = code'
  identities := Eq
  bindings bindings bindings' := bindings.rename r = bindings'
  sinks sink sink' := sink.IsAccepting ∧ sink'.IsAccepting
  logs _ _ := True
  supplies := Eq

theorem values_renamedBy {value value' : Value} :
    (renamedBy r).Values value value' ↔ value.rename r = value' := by
  constructor
  · intro related
    cases related with
    | nil | integer | boolean | builtin => rfl
    | atom code => exact congrArg Value.atom code
    | @closure closure closure' function =>
        cases closure'
        simp only [Value.rename, Closure.rename, Value.closure.injEq, Closure.mk.injEq]
        exact ⟨function.identity, function.kind, forall₂_map_eq.mp function.parameters,
          function.body⟩
  · rintro rfl
    cases value with
    | nil => exact .nil
    | integer n => exact .integer n
    | boolean b => exact .boolean b
    | builtin operation => exact .builtin operation
    | atom code => exact .atom rfl
    | closure function =>
        exact .closure {
          identity := rfl
          kind := rfl
          parameters := forall₂_map_eq.mpr rfl
          body := rfl }

theorem errors_renamedBy {error error' : EvalError} (related : (renamedBy r).Errors error error') :
    error.rename r = error' := by
  cases related with
  | undefinedVariable name => exact congrArg EvalError.undefinedVariable name
  | notCallable _ value => exact congrArg EvalError.notCallable (values_renamedBy.mp value)
  | badArgCount | typeMismatch | divisionByZero | output => rfl

/-- Accepting sinks make no difference between texts. -/
theorem texts_renamedBy (text text' : String) : (renamedBy r).Texts text text' := by
  rintro sink sink' ⟨accepting, accepting'⟩
  obtain ⟨written, after⟩ := accepting.write text
  obtain ⟨written', after'⟩ := accepting'.write text'
  exact ⟨written.trans written'.symm, after, after'⟩

theorem lawful_renamedBy (injective : Function.Injective r) : (renamedBy r).Lawful where
  shape := by
    rintro code _ rfl
    cases code with
    | number value => exact .number value
    | symbol name => exact .symbol rfl
    | list items => exact .list (forall₂_map_eq.mpr (Atom.renameAll_eq_map items).symm)
    | quoted inner => exact .quoted rfl
  codes_biUnique := by
    constructor
    · rintro one other _ first second
      exact Atom.rename_injective injective (first.trans second.symm)
    · rintro _ one other rfl rfl
      rfl
  identities_biUnique := biUnique_eq
  looked := by
    rintro bindings _ name _ rfl rfl
    rw [Bindings.getElem?_rename bindings injective]
    cases bindings[name]? with
    | none => exact .none
    | some value => exact .some (values_renamedBy.mpr rfl)
  bound := by
    rintro bindings _ name _ value value' rfl rfl values
    rw [← values_renamedBy.mp values]
    exact Bindings.rename_insert bindings injective name value
  fresh := by
    rintro next _ rfl
    exact ⟨rfl, rfl⟩
  printed _ := texts_renamedBy _ _
  newline := texts_renamedBy _ _
  flushed := by
    rintro sink sink' ⟨accepting, accepting'⟩
    obtain ⟨flushed, after⟩ := accepting.flush
    obtain ⟨flushed', after'⟩ := accepting'.flush
    exact ⟨flushed.trans flushed'.symm, after, after'⟩
  logged _ _ := trivial

theorem contexts_rename {context : Context} (accepting : context.sink.IsAccepting) :
    (renamedBy r).Contexts context (context.rename r) where
  active := rfl
  saved := forall₂_map_eq.mpr rfl
  sink := ⟨accepting, accepting⟩
  log := trivial
  supply := rfl

end Correspondence

namespace Evaluation

/-- To rename and then to evaluate is to evaluate and then to rename, if all that is printed is
    accepted. -/
theorem evaluation_commutes_with_renaming (injective : Function.Injective r) {context : Context}
    (accepting : context.sink.IsAccepting) (bound : Nat) (code : Atom) :
    Outcome.Related (fun error error' => error' = error.rename r)
      (fun value value' => value' = value.rename r)
      (fun after after' => after'.env = after.env.rename r)
      (eval bound code context) (eval bound (code.rename r) (context.rename r)) := by
  have lawful := Correspondence.lawful_renamedBy injective
  have related : (Correspondence.renamedBy r).codes code (code.rename r) := rfl
  have ended := Correspondence.eval_related lawful bound related context (context.rename r)
    (Correspondence.contexts_rename accepting)
  refine ended.mono ?_ ?_ ?_
  · intro error error' errors
    exact (Correspondence.errors_renamedBy errors).symm
  · intro value value' values
    exact (Correspondence.values_renamedBy.mp values).symm
  · intro after after' _ _ contexts
    have saved := forall₂_map_eq.mp contexts.saved
    unfold Environment.rename
    rw [contexts.active, saved]

/-- Where `set` and `do` have changed places, `(do set 1)` binds `set`. -/
theorem evaluation_commutes_with_renaming_of_set :
    let r : String → String := Equiv.swap "set" "do"
    let code : Atom := .list [.symbol "set", .symbol "do", .number 1]
    let context : Context := { env := Environment.empty.set "set" (.builtin .assign) }
    Function.Injective r ∧ context.sink.IsAccepting ∧
      code.rename r = .list [.symbol "do", .symbol "set", .number 1] ∧
      Outcome.Related (fun error error' => error' = error.rename r)
        (fun value value' => value' = value.rename r)
        (fun after after' => after'.env = after.env.rename r)
        (eval 3 code context) (eval 3 (code.rename r) (context.rename r)) ∧
      ((eval 3 (code.rename r) (context.rename r)).after?.map fun after => after.env.get? "set") =
        some (some (.integer 1)) := by
  intro r code context
  have injective : Function.Injective r := (Equiv.swap "set" "do").injective
  have accepting : context.sink.IsAccepting := ⟨rfl, rfl, fun _ => rfl⟩
  have ended := evaluation_commutes_with_renaming injective accepting 3 code
  exact ⟨injective, accepting, by decide, ended, by decide +kernel⟩

end Evaluation

end Homoiconic
