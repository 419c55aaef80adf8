import Mathlib.Data.List.Sort
import Homoiconic.Proofs.Environment.ByteOrder
import Homoiconic.Proofs.Environment.Commands

/-! # The printed text of an environment is canonical

The text depends on nothing but the depth and on which name has which value. There is just one row
of the bindings that a reader wants to see that is ordered by the bytes of the names, so it does not
matter in which order the bindings come to be, nor in which order a table holds them before they are
sorted.
-/

namespace Homoiconic

namespace Environment

/-- The name of the binding comes before the other name, byte by byte. -/
def Precedes (binding other : String × Value) : Prop :=
  bytes binding.1 < bytes other.1

/-- The bindings that a reader wants to see, in the order of the bytes of their names. -/
structure Lists (env : Environment) (listed : List (String × Value)) : Prop where
  ordered : listed.Pairwise Precedes
  mem_iff : ∀ name value,
    (name, value) ∈ listed ↔ env.get? name = some value ∧ value.isBuiltin = false

/-- The active bindings, each once, in any order. -/
structure Enumerates (env : Environment) (bindings : List (String × Value)) : Prop where
  distinct : (bindings.map Prod.fst).Nodup
  mem_iff : ∀ name value, (name, value) ∈ bindings ↔ env.get? name = some value

/-- The name of the binding is the other one or comes before it, byte by byte. -/
def NotAfter (binding other : String × Value) : Prop :=
  bytes binding.1 ≤ bytes other.1

instance : DecidableRel NotAfter := fun binding other =>
  inferInstanceAs (Decidable (bytes binding.1 ≤ bytes other.1))

/-- The bindings without the built-ins, sorted. -/
def arranged (bindings : List (String × Value)) : List (String × Value) :=
  (bindings.filter fun binding => !binding.2.isBuiltin).mergeSort (NotAfter · ·)

/-- The text with the given depth and bindings. -/
def rendered (depth : Nat) (bindings : List (String × Value)) : String :=
  let entries := bindings.map fun binding => binding.1 ++ ": " ++ binding.2.text
  "Environment\x7bdepth: " ++ toString depth ++ ", " ++ ", ".intercalate entries ++ "\x7d"

instance : Std.Irrefl Precedes where
  irrefl binding := List.lt_irrefl (bytes binding.1)

instance : Std.Antisymm Precedes where
  antisymm _ _ first second := absurd second (List.lt_asymm first)

instance : Std.Total NotAfter where
  total _ _ := List.le_total _ _

instance : IsTrans (String × Value) NotAfter where
  trans _ _ _ first second := List.le_trans first second

section Listing

variable {env other : Environment} {listed bindings : List (String × Value)}

theorem lists_listing (env : Environment) : env.Lists env.listing where
  ordered := by
    refine List.Pairwise.filter _ (Std.ExtTreeMap.ordered_keys_toList.imp ?_)
    exact compare_eq_lt_iff.mp
  mem_iff name value := by
    rw [listing, List.mem_filter, Std.ExtTreeMap.mem_toList_iff_getElem?_eq_some, get?,
      Bool.not_eq_true']

theorem Lists.unique (first : env.Lists listed) (second : env.Lists bindings) :
    listed = bindings := by
  refine first.ordered.eq_of_mem_iff second.ordered ?_
  rintro ⟨name, value⟩
  rw [first.mem_iff, second.mem_iff]

/-- To sort bindings with different names orders them strictly. -/
theorem Enumerates.lists (enumerated : env.Enumerates bindings) :
    env.Lists (arranged bindings) where
  ordered := by
    have sorted := List.pairwise_mergeSort' NotAfter
      (bindings.filter fun binding => !binding.2.isBuiltin)
    have distinct : (arranged bindings).Pairwise fun binding later => binding.1 ≠ later.1 := by
      have names := enumerated.distinct
      rw [List.Nodup, List.pairwise_map] at names
      exact (List.mergeSort_perm _ _).symm.pairwise (names.filter _) Ne.symm
    refine (sorted.and distinct).imp ?_
    intro binding later ⟨atMost, different⟩
    rcases List.le_iff_lt_or_eq.mp atMost with less | same
    · exact less
    · exact absurd (bytes_injective same) different
  mem_iff name value := by
    rw [arranged, List.mem_mergeSort, List.mem_filter, enumerated.mem_iff, Bool.not_eq_true']

/-- The listing depends on the values of the names only. -/
theorem listing_congr (same : ∀ name, env.get? name = other.get? name) :
    env.listing = other.listing := by
  have lists : other.Lists env.listing := by
    refine ⟨(lists_listing env).ordered, fun name value => ?_⟩
    rw [(lists_listing env).mem_iff, same]
  exact lists.unique (lists_listing other)

end Listing

/-- **The printed text of an environment is canonical.** It lists exactly the names whose value is
    not a built-in, each once and in the order of the bytes of the names, and each with the text of
    its value. So it is found from the bindings in whatever order they are held, and environments
    that have come to the same depth and the same values in different ways have the same text. -/
theorem text_is_canonical :
    (∀ env : Environment, env.Lists env.listing ∧ env.text = rendered env.depth env.listing) ∧
      (∀ (env : Environment) (listed : List (String × Value)), env.Lists listed →
        listed = env.listing) ∧
      (∀ (env : Environment) (bindings : List (String × Value)), env.Enumerates bindings →
        env.text = rendered env.depth (arranged bindings)) ∧
      ∀ (env other : Environment) (commands others : List Command),
        (env.execute commands).depth = (other.execute others).depth →
        (∀ name, (env.execute commands).get? name = (other.execute others).get? name) →
        (env.execute commands).text = (other.execute others).text := by
  have rendering (env : Environment) : env.text = rendered env.depth env.listing := rfl
  refine ⟨fun env => ⟨lists_listing env, rendering env⟩, ?_, ?_, ?_⟩
  · intro env listed lists
    exact lists.unique (lists_listing env)
  · intro env bindings enumerated
    rw [rendering, (lists_listing env).unique enumerated.lists]
  · intro env other commands others depth same
    rw [rendering, rendering, depth, listing_congr same]

theorem text_is_canonical_rolled_back :
    let commands : List Command := [.set "b" (.integer 2), .set "a" (.boolean true)]
    let others : List Command := [.set "a" (.integer 5), .set "a" (.boolean true), .snapshot,
      .set "c" .nil, .restore, .set "b" (.integer 2)]
    (empty.execute commands).text = "Environment\x7bdepth: 0, a: true, b: 2\x7d" ∧
      (empty.execute commands).text =
        rendered 0 (arranged [("b", .integer 2), ("a", .boolean true)]) ∧
      (empty.execute commands).text = (empty.execute others).text := by
  intro commands others
  have unbound name : empty.get? name = none := Std.ExtTreeMap.getElem?_empty
  have found name : (empty.execute commands).get? name =
      if "a" = name then some (.boolean true) else if "b" = name then some (.integer 2)
      else none := by
    simp only [commands, execute_cons, execute_nil, perform, exchange, get?_set, unbound]
  have rolledBack name : (empty.execute others).get? name = (((empty.set "a" (.integer 5)).set "a"
      (.boolean true)).set "b" (.integer 2)).get? name := rfl
  have enumerated : (empty.execute commands).Enumerates
      [("b", .integer 2), ("a", .boolean true)] := by
    refine ⟨by decide, fun name value => ?_⟩
    simp only [found, List.mem_cons, Prod.mk.injEq, List.not_mem_nil, or_false]
    constructor
    · rintro (⟨rfl, rfl⟩ | ⟨rfl, rfl⟩) <;> rfl
    · intro is
      split at is
      · next first => exact .inr ⟨first.symm, (Option.some.inj is).symm⟩
      · split at is
        · next second => exact .inl ⟨second.symm, (Option.some.inj is).symm⟩
        · cases is
  have lists : (empty.execute commands).Lists [("a", .boolean true), ("b", .integer 2)] := by
    refine ⟨.cons ?_ (List.pairwise_singleton _ _), fun name value => ?_⟩
    · intro later is
      rw [List.mem_singleton.mp is, Precedes, bytes_lt_iff]
      decide
    · rw [← enumerated.mem_iff]
      simp only [List.mem_cons, Prod.mk.injEq, List.not_mem_nil, or_false]
      constructor
      · rintro (⟨rfl, rfl⟩ | ⟨rfl, rfl⟩) <;> simp [Value.isBuiltin]
      · exact fun is => is.1.symm
  obtain ⟨listing, unique, sorting, same⟩ := text_is_canonical
  refine ⟨?_, sorting _ _ enumerated, same empty empty commands others rfl fun name => ?_⟩
  · rw [(listing _).2, ← unique _ _ lists]
    decide +kernel
  · rw [found, rolledBack]
    simp only [get?_set, unbound]
    by_cases first : "a" = name
    · subst first
      rfl
    · rw [if_neg first, if_neg first, if_neg first]

end Environment

end Homoiconic
