import Homoiconic.Proofs.Evaluation.Assignments
import Homoiconic.Proofs.Evaluation.Simulation

/-! # Names that are not mentioned

A closure sees all bindings in force where it is called, and an expander evaluates code from
elsewhere. Still, a name has no part in an evaluation if it stands neither in the code nor in what
other names are bound to: two contexts that differ in the binding of that name, and in which
identities closures have, stay alike apart from that, and the evaluation leaves both bindings of the
name as they were.
-/

namespace Homoiconic

namespace Atom

/-- The name stands somewhere in the atom. -/
def Mentions (code : Atom) (name : String) : Prop :=
  Part (.symbol name) code

variable {name : String}

@[simp]
theorem not_mentions_number (value : Int64) : ¬ (number value).Mentions name := by
  rintro ⟨⟩

@[simp]
theorem mentions_symbol {other : String} : (symbol other).Mentions name ↔ other = name := by
  constructor
  · rintro ⟨⟩
    rfl
  · rintro rfl
    exact .refl

@[simp]
theorem mentions_list {items : List Atom} :
    (list items).Mentions name ↔ ∃ item ∈ items, item.Mentions name := by
  constructor
  · rintro (_ | ⟨member, inner⟩ | _)
    exact ⟨_, member, inner⟩
  · rintro ⟨item, member, inner⟩
    exact .item member inner

@[simp]
theorem mentions_quoted {inner : Atom} : (quoted inner).Mentions name ↔ inner.Mentions name := by
  constructor
  · rintro (_ | _ | part)
    exact part
  · exact .quoted

theorem Mentions.of_writes {code : Atom} (written : code.Writes name) : code.Mentions name := by
  cases written with
  | stepping inner =>
      refine Part.trans ?_ inner
      exact .item (List.mem_cons_of_mem _ List.mem_cons_self) .refl
  | assignment inner =>
      refine Part.trans ?_ inner
      exact .item (List.mem_cons_of_mem _ List.mem_cons_self) .refl

end Atom

namespace Value

def Mentions : Value → String → Prop
  | .atom code, name => code.Mentions name
  | .closure function, name => function.body.Mentions name ∨ name ∈ function.parameters
  | _, _ => False

/-- The two values are the same, but for which identity a closure has. -/
def EqualUpTo (identities : Nat → Nat → Prop) : Value → Value → Prop
  | .closure one, .closure other =>
      identities one.identity other.identity ∧ { one with identity := other.identity } = other
  | one, other => one = other

end Value

/-- The same can be printed in both contexts, and all names but one have values that are the same
    but for identities, and that do not mention that name. -/
structure Context.AgreeApartFrom (identities : Nat → Nat → Prop) (name : String)
    (one other : Context) : Prop where
  sink : one.sink = other.sink
  bindings : ∀ another, another ≠ name →
    Option.Rel (fun value value' => value.EqualUpTo identities value' ∧ ¬ value.Mentions name)
      (one.env.get? another) (other.env.get? another)
  /-- The identities that are not taken yet correspond in order. -/
  unmade : ∀ later, identities (one.nextIdentity + later) (other.nextIdentity + later)

namespace Context

/-- The identities that both contexts have given stand for themselves, and the ones that they will
    give for each other, in order. -/
def SameIdentity (one other : Context) (identity identity' : Nat) : Prop :=
  (identity = identity' ∧ identity < one.nextIdentity ∧ identity < other.nextIdentity) ∨
    ∃ later, identity = one.nextIdentity + later ∧ identity' = other.nextIdentity + later

theorem biUnique_sameIdentity (one other : Context) :
    Relator.BiUnique (SameIdentity one other) := by
  constructor
  · rintro i j k (⟨_, _, _⟩ | ⟨later, _, _⟩) (⟨_, _, _⟩ | ⟨later', _, _⟩) <;> omega
  · rintro i j k (⟨_, _, _⟩ | ⟨later, _, _⟩) (⟨_, _, _⟩ | ⟨later', _, _⟩) <;> omega

/-- Contexts agree apart from a name if all others have the same values, whatever identities the
    contexts will give next. -/
theorem AgreeApartFrom.of_eq {one other : Context} {name : String} (sink : one.sink = other.sink)
    (same : ∀ another, another ≠ name → one.env.get? another = other.env.get? another)
    (absent : ∀ another value, another ≠ name → one.env.get? another = some value →
      ¬ value.Mentions name)
    (given : ∀ another function, another ≠ name →
      one.env.get? another = some (.closure function) →
      function.identity < one.nextIdentity ∧ function.identity < other.nextIdentity) :
    one.AgreeApartFrom (SameIdentity one other) name other where
  sink
  bindings another differs := by
    rw [← same another differs]
    cases bound : one.env.get? another with
    | none => exact .none
    | some value =>
        refine .some ⟨?_, absent another value differs bound⟩
        cases value with
        | closure function => exact ⟨.inl ⟨rfl, given another function differs bound⟩, rfl⟩
        | nil | integer | boolean | atom | builtin => rfl
  unmade later := .inr ⟨later, rfl, rfl⟩

end Context

namespace Correspondence

variable {identities : Nat → Nat → Prop} {name : String}

/-- Everything corresponds to itself if it does not mention the name, but for identities. -/
def apartFrom (identities : Nat → Nat → Prop) (name : String) : Correspondence where
  names one other := one = other ∧ one ≠ name
  codes one other := one = other ∧ ¬ one.Mentions name
  identities
  bindings one other := ∀ another, another ≠ name →
    Option.Rel (fun value value' => value.EqualUpTo identities value' ∧ ¬ value.Mentions name)
      one[another]? other[another]?
  sinks := Eq
  logs _ _ := True
  supplies next next' := ∀ later, identities (next + later) (next' + later)

theorem values_apartFrom {value value' : Value} :
    (apartFrom identities name).Values value value' ↔
      value.EqualUpTo identities value' ∧ ¬ value.Mentions name := by
  constructor
  · intro related
    cases related with
    | nil | integer | boolean | builtin => exact ⟨rfl, not_false⟩
    | atom code =>
        obtain ⟨rfl, absent⟩ := code
        exact ⟨rfl, absent⟩
    | @closure closure closure' function =>
        obtain ⟨sameNames, names⟩ := forall₂_eq_and.mp function.parameters
        obtain ⟨sameBody, body⟩ := function.body
        refine ⟨⟨function.identity, ?_⟩, ?_⟩
        · cases closure'
          simp only [Closure.mk.injEq]
          exact ⟨trivial, function.kind, sameNames, sameBody⟩
        · rintro (inBody | parameter)
          · exact body inBody
          · exact names name parameter rfl
  · rintro ⟨equal, absent⟩
    unfold Value.EqualUpTo at equal
    split at equal
    · obtain ⟨identity, same⟩ := equal
      rw [← same]
      refine .closure { identity, kind := rfl, parameters := ?_, body := ⟨rfl, ?_⟩ }
      · refine forall₂_eq_and.mpr ⟨rfl, ?_⟩
        rintro parameter member rfl
        exact absent (.inr member)
      · exact fun inBody => absent (.inl inBody)
    · rename_i noClosures
      subst equal
      cases value with
      | closure function => exact absurd rfl (noClosures function function rfl)
      | nil => exact .nil
      | integer n => exact .integer n
      | boolean b => exact .boolean b
      | builtin operation => exact .builtin operation
      | atom code => exact .atom ⟨rfl, absent⟩

theorem errors_apartFrom {error error' : EvalError}
    (related : (apartFrom identities name).Errors error error') : error = error' :=
  Errors.eq (k := apartFrom identities name) (fun _ _ names => names.1) (fun _ _ codes => codes.1)
    related

/-- What two values print does not depend on identities. -/
theorem text_eq_of_equalUpTo {value value' : Value} (equal : value.EqualUpTo identities value') :
    value.text = value'.text := by
  unfold Value.EqualUpTo at equal
  split at equal
  · rw [← equal.2]
    rfl
  · rw [equal]

theorem lawful_apartFrom (unique : Relator.BiUnique identities) :
    (apartFrom identities name).Lawful where
  shape := by
    rintro code _ ⟨rfl, absent⟩
    cases code with
    | number value => exact .number value
    | symbol other => exact .symbol ⟨rfl, by simpa using absent⟩
    | list items => exact .list (forall₂_eq_and.mpr ⟨rfl, by simpa using absent⟩)
    | quoted inner => exact .quoted ⟨rfl, by simpa using absent⟩
  codes_biUnique := biUnique_eq_and fun code : Atom => ¬ code.Mentions name
  identities_biUnique := unique
  looked := by
    rintro bindings bindings' other _ agree ⟨rfl, differs⟩
    have found := agree other differs
    generalize bindings[other]? = value, bindings'[other]? = value' at found ⊢
    cases found with
    | none => exact .none
    | some values => exact .some (values_apartFrom.mpr values)
  bound := by
    rintro bindings bindings' other _ value value' agree ⟨rfl, _⟩ values another differs
    rw [Std.ExtTreeMap.getElem?_insert, Std.ExtTreeMap.getElem?_insert]
    split
    · exact .some (values_apartFrom.mp values)
    · exact agree another differs
  fresh := by
    intro next next' unmade
    refine ⟨unmade 0, fun later => ?_⟩
    rw [Nat.add_assoc, Nat.add_assoc]
    exact unmade (1 + later)
  printed := by
    intro value value' values
    rw [text_eq_of_equalUpTo (values_apartFrom.mp values).1]
    exact requests_of_eq rfl _
  newline := requests_of_eq rfl _
  flushed := requests_of_eq rfl Sink.flush
  logged _ _ := trivial

end Correspondence

namespace Evaluation

variable {identities : Nat → Nat → Prop} {name : String} {code : Atom} {context context' : Context}

theorem get?_of_not_mentions (absent : ¬ code.Mentions name) {bound : Nat} {after : Context}
    (ends : (eval bound code context).after? = some after) :
    after.env.get? name = context.env.get? name := by
  by_contra changed
  exact absent (.of_writes ((eval_assigns bound code context after ends).changed name changed))

/-- The saved bindings may be put aside during an evaluation. -/
theorem eval_eq_withSaved (bound : Nat) (code : Atom) (context : Context) :
    eval bound code context =
      (eval bound code (context.withSaved [])).onContext (·.withSaved context.env.saved) :=
  eval_ignoresSaved bound code (context.withSaved []) context.env.saved

/-- An evaluation without a mention of the name ends alike in two contexts that agree apart from
    it. Then the contexts agree again, and in each the name is bound as it was before. -/
theorem unmentioned_name_does_not_interfere (unique : Relator.BiUnique identities)
    (absent : ¬ code.Mentions name) (agree : context.AgreeApartFrom identities name context')
    (bound : Nat) :
    Outcome.Related Eq (Value.EqualUpTo identities)
      (fun after after' => after.AgreeApartFrom identities name after' ∧
        after.env.get? name = context.env.get? name ∧
        after'.env.get? name = context'.env.get? name)
      (eval bound code context) (eval bound code context') := by
  -- The saved bindings may differ in any way, so they cannot be part of the correspondence.
  have onNone := Correspondence.eval_related (Correspondence.lawful_apartFrom unique) bound
    ⟨rfl, absent⟩ (context.withSaved []) (context'.withSaved [])
    { active := agree.bindings, saved := .nil, sink := agree.sink, log := trivial,
      supply := agree.unmade }
  have ended : Outcome.Related Eq (Value.EqualUpTo identities)
      (fun after after' => after.AgreeApartFrom identities name after')
      (eval bound code context) (eval bound code context') := by
    rw [eval_eq_withSaved bound code context, eval_eq_withSaved bound code context']
    refine (onNone.mono ?_ ?_ ?_).onContext fun _ _ agree => agree
    · intro error error' errors
      exact Correspondence.errors_apartFrom errors
    · intro value value' values
      exact (Correspondence.values_apartFrom.mp values).1
    · intro after after' _ _ contexts
      exact { sink := contexts.sink, bindings := contexts.active, unmade := contexts.supply }
  refine ended.mono (fun _ _ same => same) (fun _ _ equal => equal) ?_
  intro after after' ends ends' agree
  exact ⟨agree, get?_of_not_mentions absent ends, get?_of_not_mentions absent ends'⟩

/-- Where `x` is bound in one context only, and four more closures have been made in the other one,
    a `lambda` yields the same closure but for its identity. -/
theorem unmentioned_name_does_not_interfere_with_lambda :
    let code : Atom := .list [.symbol "lambda", .list [.symbol "y"], .symbol "y"]
    let env := Environment.empty.set "lambda" (.builtin .makeLambda)
    let one : Context := { env := env.set "x" (.integer 1), nextIdentity := 1 }
    let other : Context := { env, nextIdentity := 5 }
    Relator.BiUnique (one.SameIdentity other) ∧ ¬ code.Mentions "x" ∧
      one.AgreeApartFrom (one.SameIdentity other) "x" other ∧
      Outcome.Related Eq (Value.EqualUpTo (one.SameIdentity other))
        (fun after after' => after.AgreeApartFrom (one.SameIdentity other) "x" after' ∧
          after.env.get? "x" = one.env.get? "x" ∧ after'.env.get? "x" = other.env.get? "x")
        (eval 2 code one) (eval 2 code other) ∧
      (∃ after, eval 2 code one = .returned (.closure ⟨1, .lambda, ["y"], .symbol "y"⟩) after) ∧
      ∃ after, eval 2 code other = .returned (.closure ⟨5, .lambda, ["y"], .symbol "y"⟩) after := by
  intro code env one other
  have unique : Relator.BiUnique (one.SameIdentity other) := Context.biUnique_sameIdentity one other
  have absent : ¬ code.Mentions "x" := by simp [code]
  have same (another : String) (differs : another ≠ "x") :
      one.env.get? another = other.env.get? another := by
    rw [Environment.get?_set, if_neg (Ne.symm differs)]
  have only (another : String) (value : Value) (differs : another ≠ "x")
      (bound : one.env.get? another = some value) : value = .builtin .makeLambda := by
    rw [same another differs, Environment.get?_set] at bound
    split at bound
    · exact (Option.some.inj bound).symm
    · cases bound
  have agree : one.AgreeApartFrom (one.SameIdentity other) "x" other := by
    have sink : one.sink = other.sink := rfl
    apply Context.AgreeApartFrom.of_eq sink same
    · intro another value differs bound
      rw [only another value differs bound]
      exact not_false
    · intro another function differs bound
      cases only another _ differs bound
  exact ⟨unique, absent, agree, unmentioned_name_does_not_interfere unique absent agree 2,
    ⟨_, rfl⟩, ⟨_, rfl⟩⟩

end Evaluation

end Homoiconic
