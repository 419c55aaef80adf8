import Mathlib.Algebra.BigOperators.Group.List.Basic
import Mathlib.Data.Int.ModEq
import Mathlib.Data.List.Induction
import Homoiconic.Proofs.Evaluation.Operands

/-! # Sums, differences and products

To take an integer to its 64 bits respects addition, subtraction and multiplication. So it does not
matter where in a row of them a result wraps around: the last one is the exact result, taken to its
64 bits once. In particular the order and the grouping of the values matter no more than they do for
exact integers.
-/

namespace Homoiconic

namespace Arithmetic

/-- The result on integers of any size. -/
def exactResult : Arithmetic → List Int → Int
  | .add, values => values.sum
  | .multiply, values => values.prod
  | .subtract, [] | .divide, [] => 0
  | .subtract, first :: others => first - others.sum
  | .divide, first :: others => first.tdiv others.prod

/-- The operation by which values of another one can be put together beforehand: what is subtracted
    is added up. -/
def grouping : Arithmetic → Arithmetic
  | .subtract => .add
  | kind => kind

/-- The same values in another order or grouping. The first value of a difference stays apart. -/
inductive Rearranges (kind : Arithmetic) : List Int64 → List Int64 → Prop where
  | reordered {values others : List Int64} :
      values.Perm others → (kind = .subtract → values.head? = others.head?) →
      Rearranges kind values others
  /-- Some values in a row become the one that they result in. -/
  | grouped {before group after : List Int64} {first : Int64} :
      (kind = .subtract → before ≠ []) →
      Rearranges kind (before ++ first :: group ++ after)
        (before ++ group.foldl kind.grouping.combine first :: after)
  | symm {values others : List Int64} :
      Rearranges kind values others → Rearranges kind others values
  | trans {values middle others : List Int64} :
      Rearranges kind values middle → Rearranges kind middle others →
      Rearranges kind values others

theorem exactResult_concat {kind : Arithmetic} (wraps : kind ≠ .divide) (first : Int)
    (others : List Int) (last : Int64) :
    Int64.ofInt (kind.exactResult (first :: others ++ [last.toInt])) =
      kind.combine (Int64.ofInt (kind.exactResult (first :: others))) last := by
  cases kind with
  | add => simp [exactResult, combine, Int64.ofInt_add, Int64.add_assoc]
  | subtract => simp [exactResult, combine, Int64.ofInt_add, Int64.ofInt_sub, Int64.sub_sub]
  | multiply => simp [exactResult, combine, Int64.ofInt_mul, Int64.mul_assoc]
  | divide => exact absurd rfl wraps

/-- To wrap around at each step comes to the same as to do so once, at the end. -/
theorem foldl_combine {kind : Arithmetic} (wraps : kind ≠ .divide) (first : Int64)
    (others : List Int64) :
    others.foldl kind.combine first =
      Int64.ofInt (kind.exactResult ((first :: others).map Int64.toInt)) := by
  induction others using List.reverseRecOn with
  | nil => cases kind <;> simp [exactResult] at wraps ⊢
  | append_singleton others last ih =>
      rw [List.foldl_append, ih, List.map_cons]
      simpa using (exactResult_concat wraps _ _ last).symm

/-- Rearranging the values changes the exact result by what is lost in 64 bits at most. -/
theorem Rearranges.ofInt_exactResult {kind : Arithmetic} (wraps : kind ≠ .divide)
    {values others : List Int64} (rearranges : kind.Rearranges values others) :
    Int64.ofInt (kind.exactResult (values.map Int64.toInt)) =
      Int64.ofInt (kind.exactResult (others.map Int64.toInt)) := by
  induction rearranges with
  | symm _ ih => exact ih.symm
  | trans _ _ first second => exact first.trans second
  | @reordered values others permuted sameFirst =>
      have permuted := permuted.map Int64.toInt
      cases kind with
      | add => exact congrArg Int64.ofInt permuted.sum_eq
      | multiply => exact congrArg Int64.ofInt permuted.prod_eq
      | divide => exact absurd rfl wraps
      | subtract =>
          have same := sameFirst rfl
          cases values with
          | nil =>
              rw [List.nil_perm.mp permuted]
              rfl
          | cons first values =>
              obtain ⟨others, rfl⟩ := List.head?_eq_some_iff.mp same.symm
              have later := (List.perm_cons _).mp permuted
              simp [exactResult, later.sum_eq]
  | @grouped before group after first apart =>
      have sum : group.foldl Arithmetic.add.combine first =
          first + Int64.ofInt (group.map Int64.toInt).sum := by
        simpa [exactResult, Int64.ofInt_add] using @foldl_combine .add (by decide) first group
      have product : group.foldl Arithmetic.multiply.combine first =
          first * Int64.ofInt (group.map Int64.toInt).prod := by
        simpa [exactResult, Int64.ofInt_mul] using
          @foldl_combine .multiply (by decide) first group
      cases kind with
      | add => simp [exactResult, grouping, sum, Int64.ofInt_add, Int64.add_assoc, -Int64.toInt_add]
      | multiply =>
          simp [exactResult, grouping, product, Int64.ofInt_mul, Int64.mul_assoc,
            -Int64.toInt_mul]
      | divide => exact absurd rfl wraps
      | subtract =>
          obtain ⟨least, before, rfl⟩ := List.exists_cons_of_ne_nil (apart rfl)
          simp [exactResult, grouping, sum, Int64.ofInt_add, Int64.ofInt_sub, Int64.add_assoc,
            -Int64.toInt_add]

/-- What is left in 64 bits is congruent to the whole, and there is no other such integer in the
    range. -/
theorem ofInt_unique (total : Int) :
    (Int64.ofInt total).toInt ≡ total [ZMOD Int64.size] ∧
      ∀ n : Int, Int64.minValue.toInt ≤ n → n ≤ Int64.maxValue.toInt →
        n ≡ total [ZMOD Int64.size] → n = (Int64.ofInt total).toInt := by
  have congruent : (Int64.ofInt total).toInt ≡ total [ZMOD Int64.size] := by
    rw [Int64.toInt_ofInt]
    exact Int.bmod_emod
  refine ⟨congruent, ?_⟩
  intro n lower upper same
  have above := (Int64.ofInt total).minValue_le_toInt
  have below := (Int64.ofInt total).toInt_le
  have both : n % Int64.size = (Int64.ofInt total).toInt % Int64.size := same.trans congruent.symm
  simp only [Int64.toInt_minValue, Int64.toInt_maxValue, Int64.size] at *
  omega

end Arithmetic

namespace Evaluation

variable {kind : Arithmetic} {bound : Nat} {first : Atom} {rest : List Atom}
  {values : List Int64} {context after : Context}

theorem apply_arithmetic (kind : Arithmetic) (bound : Nat) (first : Atom) (rest : List Atom)
    (context : Context) :
    apply bound (.builtin kind.builtin) (first :: rest) context =
      Action.reported kind.builtin (perform (eval bound) bound (.arithmetic kind first rest))
        (context.logging (.called kind.builtin (first :: rest))) :=
  callBuiltin_eq (Arithmetic.operation?_builtin kind first rest) context

theorem apply_of_operands (wraps : kind ≠ .divide)
    (evaluated : Operands (eval bound) (first :: rest)
      (context.logging (.called kind.builtin (first :: rest))) values after) :
    let result := Value.integer (Int64.ofInt (kind.exactResult (values.map Int64.toInt)))
    apply bound (.builtin kind.builtin) (first :: rest) context =
      .returned result (after.logging (.resulted kind.builtin result)) := by
  obtain ⟨n, ns, rfl⟩ : ∃ n ns, values = n :: ns := by
    cases evaluated with
    | cons => exact ⟨_, _, rfl⟩
  rw [apply_arithmetic, Action.reported, perform_of_operands evaluated (absurd · wraps),
    Arithmetic.foldl_combine wraps]
  rfl

/-- Addition, subtraction and multiplication evaluate their operands from left to right, up to the
    first that fails or is no integer; that one decides the error. If there is none, then the result
    is the one 64-bit integer that is congruent to the exact result, and each call whose operands
    have the same values in another order or grouping returns it as well. -/
theorem arithmetic_wraps_at_most_once (kind : Arithmetic) (wraps : kind ≠ .divide) (bound : Nat)
    (first : Atom) (rest : List Atom) (context : Context) :
    let operands := first :: rest
    let begun := context.logging (.called kind.builtin operands)
    let outcome := apply bound (.builtin kind.builtin) operands context
    (∀ values after, Operands (eval bound) operands begun values after → ∃ result : Int64,
      outcome = .returned (.integer result)
        (after.logging (.resulted kind.builtin (.integer result))) ∧
      result.toInt ≡ kind.exactResult (values.map Int64.toInt) [ZMOD Int64.size] ∧
      (∀ n : Int, Int64.minValue.toInt ≤ n → n ≤ Int64.maxValue.toInt →
        n ≡ kind.exactResult (values.map Int64.toInt) [ZMOD Int64.size] → n = result.toInt) ∧
      ∀ others, kind.Rearranges values others → ∀ bound' first' rest' context' after',
        Operands (eval bound') (first' :: rest')
          (context'.logging (.called kind.builtin (first' :: rest'))) others after' →
        apply bound' (.builtin kind.builtin) (first' :: rest') context' =
          .returned (.integer result)
            (after'.logging (.resulted kind.builtin (.integer result)))) ∧
    (∀ before culprit later ns middle error after, operands = before ++ culprit :: later →
      Operands (eval bound) before begun ns middle →
      NoInteger (eval bound) culprit middle error after →
      outcome = .failed error (after.logging (.failed kind.builtin error))) ∧
    ((∃ values after, Operands (eval bound) operands begun values after) ∨
      ∃ before culprit later ns middle, operands = before ++ culprit :: later ∧
        Operands (eval bound) before begun ns middle ∧
        ((∃ error after, NoInteger (eval bound) culprit middle error after) ∨
          eval bound culprit middle = .unfinished ∧ outcome = .unfinished)) := by
  intro operands begun outcome
  refine ⟨?_, ?_, ?_⟩
  · intro values after evaluated
    obtain ⟨congruent, unique⟩ :=
      Arithmetic.ofInt_unique (kind.exactResult (values.map Int64.toInt))
    refine ⟨_, apply_of_operands wraps evaluated, congruent, unique, ?_⟩
    intro others rearranges bound' first' rest' context' after' evaluated'
    rw [rearranges.ofInt_exactResult wraps]
    exact apply_of_operands wraps evaluated'
  · intro before culprit later ns middle error after split evaluated none
    have failed : perform (eval bound) bound (.arithmetic kind first rest) begun =
        .failed error after :=
      perform_of_refused split evaluated (absurd · wraps) (.noInteger none)
    rw [show outcome = _ from apply_arithmetic kind bound first rest context, Action.reported,
      failed]
    rfl
  · rcases operands_or_refused (eval bound) False operands begun with
      ⟨values, after, evaluated, _⟩ |
        ⟨before, culprit, later, ns, middle, split, evaluated, _, ⟨error, after, refused⟩ | endless⟩
    · exact .inl ⟨values, after, evaluated⟩
    · cases refused with
      | noInteger none =>
          exact .inr ⟨before, culprit, later, ns, middle, split, evaluated,
            .inl ⟨error, after, none⟩⟩
      | zeroDivisor divides => exact divides.elim
    · refine .inr ⟨before, culprit, later, ns, middle, split, evaluated, .inr ⟨endless, ?_⟩⟩
      rw [show outcome = _ from apply_arithmetic kind bound first rest context, Action.reported,
        perform_of_unfinished split evaluated (absurd · wraps) endless]

/-- A sum that leaves the range on its way and comes back is exact, in another order too, and what
    stands after an operand that is no integer does not matter. -/
theorem arithmetic_wraps_at_most_once_around_greatest :
    Arithmetic.add ≠ .divide ∧
    (∃ result after after',
      apply 1 (.builtin .add) [.number Int64.maxValue, .number 1, .number (-1)] { env := .empty } =
        .returned (.integer result) after ∧
      apply 1 (.builtin .add) [.number 1, .number (-1), .number Int64.maxValue] { env := .empty } =
        .returned (.integer result) after' ∧
      Int64.maxValue.toInt = result.toInt) ∧
    ∃ after, apply 1 (.builtin .multiply) [.number 2, .quoted (.number 3), .symbol "nowhere"]
      { env := .empty } = .failed (.typeMismatch .integer) after := by
  have wraps : Arithmetic.add ≠ .divide := by decide
  obtain ⟨result, returned, _, unique, again⟩ :=
    (arithmetic_wraps_at_most_once .add wraps 1 (.number Int64.maxValue) [.number 1, .number (-1)]
      { env := .empty }).1 [Int64.maxValue, 1, -1] _ (.cons rfl (.cons rfl (.cons rfl .nil)))
  have turned : Arithmetic.add.Rearranges [Int64.maxValue, 1, -1] [1, -1, Int64.maxValue] :=
    .reordered (by decide) fun kind => by cases kind
  have returned' := again _ turned 1 (.number 1) [.number (-1), .number Int64.maxValue]
    { env := .empty } _ (.cons rfl (.cons rfl (.cons rfl .nil)))
  have unchanged := unique Int64.maxValue.toInt (by decide) (by decide) (by decide)
  have failed := (arithmetic_wraps_at_most_once .multiply (by decide) 1 (.number 2)
    [.quoted (.number 3), .symbol "nowhere"] { env := .empty }).2.1 [.number 2]
    (.quoted (.number 3)) [.symbol "nowhere"] [2] _ _ _ rfl (.cons rfl .nil) (.other rfl rfl)
  exact ⟨wraps, ⟨result, _, _, returned, returned', unchanged⟩, _, failed⟩

end Evaluation

end Homoiconic
