import Mathlib.Algebra.BigOperators.Group.List.Basic
import Mathlib.Tactic.Ring
import Homoiconic.Proofs.Evaluation.Operands

/-! # Division

To divide by several integers in turn, rounding toward zero each time, is to divide once by their
product. With 64 bits there is one exception: the least integer divided by minus one is itself, with
the wrong sign. So a chain of divisions is exact up to its sign, which is wrong if that has
happened an odd number of times.
-/

namespace Homoiconic

/-- Rounding toward zero several times comes to the same as rounding once. -/
theorem tdiv_tdiv (a b c : Int) : (a.tdiv b).tdiv c = a.tdiv (b * c) := by
  -- It is so for natural numbers, and each sign can be taken out on both sides.
  obtain ⟨a, rfl | rfl⟩ := a.eq_nat_or_neg <;> obtain ⟨b, rfl | rfl⟩ := b.eq_nat_or_neg <;>
    obtain ⟨c, rfl | rfl⟩ := c.eq_nat_or_neg <;>
    simp only [Int.neg_tdiv, Int.tdiv_neg, Int.neg_mul, Int.mul_neg, Int.neg_neg, ← Int.ofNat_tdiv,
      ← Int.natCast_mul, Nat.div_div_eq_div_mul]

namespace Arithmetic

/-- A division of 64-bit integers that has the wrong sign. -/
def Overflows (a b : Int64) : Prop :=
  a = Int64.minValue ∧ b = -1

instance (a b : Int64) : Decidable (Overflows a b) :=
  inferInstanceAs (Decidable (_ ∧ _))

/-- The number of divisions with the wrong sign, when `a` is divided by several divisors in turn. -/
def overflows (a : Int64) : List Int64 → Nat
  | [] => 0
  | b :: rest => (if Overflows a b then 1 else 0) + overflows (a / b) rest

/-- One division is exact up to its sign. -/
theorem toInt_div (a b : Int64) :
    (a / b).toInt = (-1) ^ (if Overflows a b then 1 else 0) * a.toInt.tdiv b.toInt := by
  by_cases overflows : Overflows a b
  · obtain ⟨rfl, rfl⟩ := overflows
    decide
  · rw [if_neg overflows, pow_zero, one_mul]
    by_cases least : a = Int64.minValue
    · exact Int64.toInt_div_of_ne_right a b fun minusOne => overflows ⟨least, minusOne⟩
    · exact Int64.toInt_div_of_ne_left a b least

/-- The running quotient is the exact one up to its sign. -/
theorem toInt_foldl_div (a : Int64) (divisors : List Int64) :
    (divisors.foldl (· / ·) a).toInt =
      (-1) ^ overflows a divisors * a.toInt.tdiv (divisors.map Int64.toInt).prod := by
  induction divisors generalizing a with
  | nil => simp [overflows]
  | cons b rest ih =>
      have sign (w : Nat) (x y : Int) : ((-1) ^ w * x).tdiv y = (-1) ^ w * x.tdiv y := by
        rcases neg_one_pow_eq_or Int w with even | odd
        · rw [even, one_mul, one_mul]
        · rw [odd, neg_one_mul, neg_one_mul, Int.neg_tdiv]
      rw [List.foldl_cons, ih, toInt_div, sign, tdiv_tdiv, overflows, List.map_cons,
        List.prod_cons, pow_add]
      ring

end Arithmetic

namespace Evaluation

open Arithmetic (overflows toInt_foldl_div)

/-- Division evaluates its operands from left to right, up to the first that is no integer or, after
    the first place, is zero; that one decides the error. If there is none, then the result is the
    exact quotient of the first value by the product of the others, rounded toward zero, up to the
    sign that it loses whenever the least integer is divided by minus one. -/
theorem division_is_truncated_exact (bound : Nat) (first : Atom) (rest : List Atom)
    (context : Context) :
    let operands := first :: rest
    let begun := context.logging (.called .divide operands)
    let outcome := apply bound (.builtin .divide) operands context
    (∀ a divisors after, Operands (eval bound) operands begun (a :: divisors) after →
      0 ∉ divisors → ∃ quotient : Int64,
        outcome = .returned (.integer quotient)
          (after.logging (.resulted .divide (.integer quotient))) ∧
        quotient.toInt =
          (-1) ^ overflows a divisors * a.toInt.tdiv (divisors.map Int64.toInt).prod) ∧
    (∀ before culprit later ns middle error after, operands = before ++ culprit :: later →
      Operands (eval bound) before begun ns middle → 0 ∉ ns.tail →
      Refused (eval bound) (before ≠ []) culprit middle error after →
      outcome = .failed error (after.logging (.failed .divide error))) ∧
    ((∃ a divisors after, Operands (eval bound) operands begun (a :: divisors) after ∧
        0 ∉ divisors) ∨
      ∃ before culprit later ns middle, operands = before ++ culprit :: later ∧
        Operands (eval bound) before begun ns middle ∧ 0 ∉ ns.tail ∧
        ((∃ error after, Refused (eval bound) (before ≠ []) culprit middle error after) ∨
          eval bound culprit middle = .unfinished ∧ outcome = .unfinished)) := by
  intro operands begun outcome
  have called : outcome = Action.reported .divide
      (perform (eval bound) bound (.arithmetic .divide first rest)) begun :=
    callBuiltin_eq (Arithmetic.operation?_builtin .divide first rest) context
  refine ⟨?_, ?_, ?_⟩
  · intro a divisors after evaluated nonzero
    refine ⟨divisors.foldl (· / ·) a, ?_, toInt_foldl_div a divisors⟩
    rw [called, Action.reported, perform_of_operands evaluated fun _ => nonzero]
    rfl
  · intro before culprit later ns middle error after split evaluated nonzero refused
    rw [called, Action.reported, perform_of_refused split evaluated (fun _ => nonzero)
      (by simpa using refused)]
    rfl
  · rcases first_operand_or_refused (eval bound) True first rest begun with
      ⟨a, divisors, after, evaluated, nonzero⟩ |
        ⟨before, culprit, later, ns, middle, split, evaluated, nonzero, refused | endless⟩
    · exact .inl ⟨a, divisors, after, evaluated, nonzero trivial⟩
    · exact .inr ⟨before, culprit, later, ns, middle, split, evaluated, nonzero trivial,
        .inl (by simpa using refused)⟩
    · refine .inr ⟨before, culprit, later, ns, middle, split, evaluated, nonzero trivial,
        .inr ⟨endless, ?_⟩⟩
      rw [called, Action.reported, perform_of_unfinished split evaluated
        (fun _ => nonzero trivial) endless]

/-- The least integer divided by minus one is itself, the opposite of the exact quotient, and what
    stands after a divisor of zero does not matter. -/
theorem division_is_truncated_exact_at_least :
    (∃ quotient after,
      apply 1 (.builtin .divide) [.number Int64.minValue, .number (-1)] { env := .empty } =
        .returned (.integer quotient) after ∧
      quotient.toInt = (-1) ^ 1 * Int64.minValue.toInt.tdiv (-1)) ∧
    ∃ after,
      apply 1 (.builtin .divide) [.number 1, .number 0, .symbol "nowhere"] { env := .empty } =
        .failed .divisionByZero after := by
  have first := (division_is_truncated_exact 1 (.number Int64.minValue) [.number (-1)]
    { env := .empty }).1 Int64.minValue [-1] _ (.cons rfl (.cons rfl .nil)) (by decide)
  have second := (division_is_truncated_exact 1 (.number 1) [.number 0, .symbol "nowhere"]
    { env := .empty }).2.1 [.number 1] (.number 0) [.symbol "nowhere"] [1] _ _ _ rfl
    (.cons rfl .nil) (by decide) (.zeroDivisor (by decide) rfl)
  obtain ⟨quotient, returned, exact⟩ := first
  exact ⟨⟨quotient, _, returned, exact⟩, _, second⟩

end Evaluation

end Homoiconic
