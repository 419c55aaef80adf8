import Homoiconic.Evaluation.Bound
import Homoiconic.Proofs.Evaluation.Program

/-! # Blocks among statements

A call of `do` as a statement, with statements of its own, comes to the same as these in its place.
The two do not end within the same bound, and they log different things, so both are compared by how
they conclude: with what value or error, and in what context but for its log, if there are steps
enough. As that does not depend on the bound, an action concludes as its parts do one after the
other.
-/

namespace Homoiconic

theorem Outcome.withoutLog_eq_returned {ε α : Type} {outcome : Outcome ε α} {value : α}
    {after : Context} (same : outcome.withoutLog = .returned value after) :
    ∃ logged, outcome = .returned value logged ∧ logged.withoutLog = after := by
  cases outcome with
  | returned _ logged =>
      obtain ⟨rfl, rfl⟩ := Outcome.returned.inj same
      exact ⟨logged, rfl, rfl⟩
  | failed | unfinished => cases same

theorem Outcome.withoutLog_eq_failed {ε α : Type} {outcome : Outcome ε α} {error : ε}
    {after : Context} (same : outcome.withoutLog = .failed error after) :
    ∃ logged, outcome = .failed error logged ∧ logged.withoutLog = after := by
  cases outcome with
  | failed _ logged =>
      obtain ⟨rfl, rfl⟩ := Outcome.failed.inj same
      exact ⟨logged, rfl, rfl⟩
  | returned | unfinished => cases same

namespace Action

variable {ε α β : Type}

/-- The actions for all bounds are one action: a larger bound changes no answer, nor do older
    records. -/
structure Gradual (action : Nat → Action ε α) : Prop where
  below : ∀ {bound bound'}, bound ≤ bound' → (action bound).Below (action bound')
  ignoresLog : ∀ bound, (action bound).IgnoresLog

/-- How the action ends, apart from the log, if it is given enough steps. -/
def Concludes (action : Nat → Action ε α) (context : Context) (outcome : Outcome ε α) : Prop :=
  outcome ≠ .unfinished ∧ ∃ bound, (action bound context).withoutLog = outcome

theorem Concludes.of_returned {action : Nat → Action ε α} {bound : Nat} {value : α}
    {context after : Context} (ended : action bound context = .returned value after) :
    Concludes action context (.returned value after.withoutLog) :=
  ⟨by simp, bound, by rw [ended]; rfl⟩

namespace Gradual

variable {action other : Nat → Action ε α} {next : Nat → α → Action ε β} {context : Context}
  {outcome : Outcome ε α}

theorem withoutLog_of_le (gradual : Gradual action) (ends : outcome ≠ .unfinished)
    {bound bound' : Nat} (le : bound ≤ bound')
    (same : (action bound context).withoutLog = outcome) :
    (action bound' context).withoutLog = outcome := by
  cases gradual.below le context with
  | inl unfinished =>
      rw [unfinished] at same
      exact absurd same.symm ends
  | inr equal => rw [← equal, same]

/-- An action concludes in one way at most. -/
theorem concludes_unique (gradual : Gradual action) {outcome' : Outcome ε α}
    (concludes : Concludes action context outcome) (again : Concludes action context outcome') :
    outcome = outcome' := by
  obtain ⟨ends, bound, rfl⟩ := concludes
  obtain ⟨ends', bound', rfl⟩ := again
  rw [← gradual.withoutLog_of_le ends (Nat.le_max_left bound bound') rfl,
    gradual.withoutLog_of_le ends' (Nat.le_max_right bound bound') rfl]

theorem concludes_withoutLog (gradual : Gradual action) :
    Concludes action context.withoutLog outcome ↔ Concludes action context outcome := by
  simp only [Concludes, ← (gradual.ignoresLog _).withoutLog_eq]

/-- One action after the other concludes as the second does where the first leads, or as the first
    does if that fails. -/
theorem concludes_bind (first : Gradual action)
    (later : ∀ value, Gradual fun bound => next bound value) {outcome : Outcome ε β} :
    Concludes (fun bound => action bound >>= next bound) context outcome ↔
      (∃ value middle, Concludes action context (.returned value middle) ∧
        Concludes (fun bound => next bound value) middle outcome) ∨
      ∃ error after, Concludes action context (.failed error after) ∧
        outcome = .failed error after := by
  constructor
  · rintro ⟨ends, bound, same⟩
    simp only [Bind.bind, Action.bind] at same
    cases ended : action bound context with
    | returned value middle =>
        rw [ended] at same
        refine .inl ⟨value, middle.withoutLog, .of_returned ended, ?_⟩
        exact (later value).concludes_withoutLog.mpr ⟨ends, bound, same⟩
    | failed error after =>
        rw [ended] at same
        exact .inr ⟨error, after.withoutLog, ⟨by simp, bound, by rw [ended]; rfl⟩, same.symm⟩
    | unfinished =>
        rw [ended] at same
        exact absurd same.symm ends
  · rintro (⟨value, middle, ⟨returned, bound, same⟩, ends, bound', same'⟩ |
      ⟨error, after, ⟨failed, bound, same⟩, rfl⟩)
    · -- Both parts are given the larger one of the two bounds.
      have start := first.withoutLog_of_le returned (Nat.le_max_left bound bound') same
      have goOn := (later value).withoutLog_of_le ends (Nat.le_max_right bound bound') same'
      obtain ⟨logged, ended, rfl⟩ := Outcome.withoutLog_eq_returned start
      refine ⟨ends, max bound bound', ?_⟩
      simp only [Bind.bind, Action.bind, ended]
      rw [← goOn, ← ((later value).ignoresLog _).withoutLog_eq]
    · obtain ⟨logged, ended, rfl⟩ := Outcome.withoutLog_eq_failed same
      refine ⟨by simp, bound, ?_⟩
      simp only [Bind.bind, Action.bind, ended]
      rfl

/-- It does not matter to what comes next how an action is made, but only how it concludes. -/
theorem concludes_bind_congr (first : Gradual action) (instead : Gradual other)
    (later : ∀ value, Gradual fun bound => next bound value)
    (same : ∀ outcome, Concludes action context outcome ↔ Concludes other context outcome)
    {outcome : Outcome ε β} :
    Concludes (fun bound => action bound >>= next bound) context outcome ↔
      Concludes (fun bound => other bound >>= next bound) context outcome := by
  simp only [first.concludes_bind later, instead.concludes_bind later, same]

end Gradual

end Action

namespace Evaluation

open Homoiconic.Action

/-- The statements as one statement: a call of `do` on them. -/
def block (statements : List Atom) : Atom :=
  .quoted (.list (.symbol "do" :: statements))

/-- If the statements come to their end, then `do` means what it should. -/
def KeepsSequence (statements : List Atom) (context : Context) : Prop :=
  ∀ bound value after, sequence (eval bound) .nil statements context = .returned value after →
    after.env.get? "do" = some (.builtin .sequence)

theorem gradual_eval (code : Atom) : Gradual fun bound => eval bound code where
  below le := eval_congr Below.congruence le code
  ignoresLog bound := eval_ignoresLog bound code

theorem gradual_sequence (last : Value) (statements : List Atom) :
    Gradual fun bound => sequence (eval bound) last statements where
  below le := @sequence_congr _ Below.congruence.toStepwise _ _ statements last
    fun code _ => eval_congr Below.congruence le code
  ignoresLog bound := sequence_ignoresLog bound last statements

theorem sequence_of_ne_nil {ev : Evaluator} {statements : List Atom} (some : statements ≠ [])
    (last last' : Value) : sequence ev last statements = sequence ev last' statements := by
  cases statements with
  | nil => exact absurd rfl some
  | cons => rfl

variable {statements first inner last : List Atom} {context middle : Context}
  {outcome : Outcome EvalError Value}

theorem concludes_end (value : Value) (context : Context) :
    Concludes (fun bound => sequence (eval bound) value []) context
      (.returned value context.withoutLog) :=
  ⟨by simp, 0, rfl⟩

theorem concludes_statement {statement : Atom} {value before : Value}
    (first : Concludes (fun bound => eval bound statement.unquoted) context
      (.returned value middle))
    (later : Concludes (fun bound => sequence (eval bound) value statements) middle outcome) :
    Concludes (fun bound => sequence (eval bound) before (statement :: statements)) context
      outcome :=
  ((gradual_eval _).concludes_bind fun _ => gradual_sequence _ _).mpr
    (.inl ⟨value, middle, first, later⟩)

theorem KeepsSequence.of_concludes {value : Value}
    (concludes : Concludes (fun bound => sequence (eval bound) .nil statements) context
      (.returned value middle))
    (head : middle.env.get? "do" = some (.builtin .sequence)) :
    KeepsSequence statements context := by
  intro bound value' after ended
  cases (gradual_sequence _ _).concludes_unique concludes (.of_returned ended)
  exact head

theorem concludes_apply_sequence (statements : List Atom) :
    Concludes (fun bound => apply bound (.builtin .sequence) statements) context outcome ↔
      Concludes (fun bound => sequence (eval bound) .nil statements) context outcome := by
  have called bound : (apply bound (.builtin .sequence) statements context).withoutLog =
      (sequence (eval bound) .nil statements context).withoutLog := by
    change (reported .sequence (sequence (eval bound) .nil statements)
      { context with log := .called .sequence statements :: context.log }).withoutLog = _
    rw [withoutLog_reported, (sequence_ignoresLog _ _ _).withoutLog_eq,
      (sequence_ignoresLog _ _ _).withoutLog_eq context]
    rfl
  simp only [Concludes, called]

theorem concludes_call_do (head : context.env.get? "do" = some (.builtin .sequence)) :
    Concludes (fun bound => eval bound (.list (.symbol "do" :: statements))) context outcome ↔
      Concludes (fun bound => sequence (eval bound) .nil statements) context outcome := by
  have gradual := gradual_sequence .nil statements
  have called bound := eval_program bound statements head
  simp only [← (gradual.ignoresLog _).withoutLog_eq] at called
  constructor
  · rintro ⟨ends, bound, same⟩
    cases bound with
    | zero => exact absurd same.symm ends
    | succ bound =>
        cases bound with
        | zero => exact absurd same.symm ends
        | succ bound => exact ⟨ends, bound + 1, by rw [← called, same]⟩
  · rintro ⟨ends, bound, same⟩
    refine ⟨ends, bound + 2, ?_⟩
    rw [called, gradual.withoutLog_of_le ends (Nat.le_succ bound) same]

/-- Statements conclude the same with some of them in a block. -/
theorem concludes_flattened (filled : inner ≠ [] ∨ last ≠ [])
    (keeps : KeepsSequence first context) :
    Concludes (fun bound => sequence (eval bound) .nil (first ++ block inner :: last)) context
        outcome ↔
      Concludes (fun bound => sequence (eval bound) .nil (first ++ inner ++ last)) context
        outcome := by
  have start := gradual_sequence .nil first
  have later := fun value => gradual_sequence value last
  simp only [List.append_assoc, sequence_append _ _ first]
  rw [start.concludes_bind fun value => gradual_sequence value (block inner :: last),
    start.concludes_bind fun value => gradual_sequence value (inner ++ last)]
  refine or_congr (exists_congr fun value => exists_congr fun middle => ?_) Iff.rfl
  refine and_congr_right fun begun => ?_
  have head : middle.env.get? "do" = some (.builtin .sequence) := by
    obtain ⟨-, bound, same⟩ := begun
    obtain ⟨logged, ended, rfl⟩ := Outcome.withoutLog_eq_returned same
    exact keeps bound value logged ended
  have some : inner ++ last ≠ [] := by
    intro none
    obtain ⟨rfl, rfl⟩ := List.append_eq_nil_iff.mp none
    simp at filled
  simp only [sequence_of_ne_nil some value .nil, sequence_append]
  exact (gradual_eval _).concludes_bind_congr (gradual_sequence _ _) later
    fun outcome => concludes_call_do head

end Evaluation

end Homoiconic
