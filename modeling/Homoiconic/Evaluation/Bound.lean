import Homoiconic.Evaluation.Congruence

/-! # The bound of an evaluation

The bound decides whether an evaluation ends, and nothing else: `eval_of_le` says that a larger
bound changes no answer. An action is `Below` another if it does the same whenever it ends, and this
relation is a congruence.
-/

namespace Homoiconic

/-- The first action does what the second does, or does not end. -/
def Action.Below {ε α : Type} (action other : Action ε α) : Prop :=
  ∀ context, action context = .unfinished ∨ action context = other context

namespace Action.Below

variable {ε α β : Type}

protected theorem refl (action : Action ε α) : Below action action :=
  fun _ => .inr rfl

protected theorem unfinished (other : Action ε α) : Below .unfinished other :=
  fun _ => .inl rfl

protected theorem bind {action other : Action ε α} {next next' : α → Action ε β}
    (first : Below action other) (later : ∀ value, Below (next value) (next' value)) :
    Below (action >>= next) (other >>= next') := by
  intro context
  simp only [Bind.bind, Action.bind]
  rcases first context with h | h
  · simp [h]
  · rw [← h]
    cases action context with
    | returned value after => exact later value after
    | failed => exact .inr rfl
    | unfinished => exact .inl rfl

protected theorem inSnapshot {action other : Action ε α} (inside : Below action other) :
    Below action.inSnapshot other.inSnapshot := by
  intro context
  unfold Action.inSnapshot
  rcases inside { context with env := context.env.snapshot } with h | h
  · simp [h]
  · rw [← h]
    exact .inr rfl

protected theorem reported {builtin : Builtin} {action other : Action EvalError Value}
    (inside : Below action other) : Below (reported builtin action) (reported builtin other) := by
  intro context
  unfold Action.reported
  rcases inside context with h | h
  · simp [h]
  · rw [← h]
    exact .inr rfl

/-- All that depends on the evaluations that an action is made of is whether it ends. -/
theorem congruence : Congruence (@Below EvalError) where
  pure _ := .refl _
  bind := .bind
  fail _ := .refl _
  unfinished := .unfinished
  record _ _ := .refl _
  freshIdentity := .refl _
  lookup _ := .refl _
  write _ := .refl _
  flush := .refl _
  called _ _ inside := .bind (.refl _) fun _ => .reported inside
  bindAll _ := .refl _
  inSnapshot := .inSnapshot

end Action.Below

namespace Evaluation

open Homoiconic.Action

/-- An evaluation that ends within a bound does the same within every larger bound. -/
theorem eval_of_le {bound bound' : Nat} (le : bound ≤ bound') {code : Atom} {context : Context}
    (ends : eval bound code context ≠ .unfinished) :
    eval bound' code context = eval bound code context := by
  rcases eval_congr Below.congruence le code context with h | h
  · exact absurd h ends
  · exact h.symm

end Evaluation

end Homoiconic
