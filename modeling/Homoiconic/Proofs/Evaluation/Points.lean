import Mathlib.Logic.Relation
import Homoiconic.Evaluation.Basic

/-! # Evaluations within evaluations

The rules of evaluation leave the evaluation of other atoms to an evaluator, and never look into it.
So what they ask it for shows when its answer is changed in one place: an evaluation that is made
may be cut short or fail, and as nothing catches a failure, the one around it then ends differently.
-/

namespace Homoiconic

namespace Evaluation

/-- An evaluation that takes place: of an atom, in a context, within a bound. -/
structure Point where
  bound : Nat
  code : Atom
  context : Context

namespace Point

def outcome (point : Point) : Outcome EvalError Value :=
  eval point.bound point.code point.context

/-- The inner evaluation is a step of the outer one: with another answer to it, and to it alone, the
    outer one could end differently. -/
def Asks (outer inner : Point) : Prop :=
  outer.bound = inner.bound + 1 ∧ ∃ other : Evaluator,
    (∀ code context, (code, context) ≠ (inner.code, inner.context) →
      other code context = eval inner.bound code context) ∧
    meaning other inner.bound outer.code outer.context ≠ outer.outcome

/-- The inner evaluation is the outer one, or a step of it, or a step of such a step, and so on. -/
def Within (inner outer : Point) : Prop :=
  Relation.ReflTransGen Asks outer inner

/-- The first step in the evaluation of a list is to evaluate its head. -/
theorem asks_head (bound : Nat) (head : Atom) (args : List Atom) (context : Context) :
    Asks ⟨bound + 1, .list (head :: args), context⟩
      ⟨bound, head, { context with log := .evaluating (.list (head :: args)) :: context.log }⟩ := by
  classical
  let begun := { context with log := .evaluating (.list (head :: args)) :: context.log }
  let changed (answer : Outcome EvalError Value) : Evaluator := fun code context =>
    if (code, context) = (head, begun) then answer else eval bound code context
  have elsewhere (answer : Outcome EvalError Value) (code : Atom) (context : Context)
      (other : (code, context) ≠ (head, begun)) :
      changed answer code context = eval bound code context := if_neg other
  have passedOn (answer : Outcome EvalError Value)
      (noValue : ∀ value after, answer ≠ .returned value after) :
      meaning (changed answer) bound (.list (head :: args)) context = answer := by
    have here : changed answer head begun = answer := if_pos rfl
    simp only [meaning, Bind.bind, Action.bind, Action.record]
    rw [here]
    cases answer with
    | returned value after => exact absurd rfl (noValue value after)
    | failed | unfinished => rfl
  -- An evaluation that ends can be cut short, and one that does not end can fail instead.
  by_cases ends : eval (bound + 1) (.list (head :: args)) context = .unfinished
  · refine ⟨rfl, changed (.failed .divisionByZero begun), elsewhere _, ?_⟩
    rw [passedOn _ (by simp), outcome, ends]
    simp
  · refine ⟨rfl, changed .unfinished, elsewhere _, ?_⟩
    rw [passedOn _ (by simp)]
    exact fun same => ends same.symm

end Point

end Evaluation

end Homoiconic
