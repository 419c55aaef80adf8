import Mathlib.Control.Monad.Basic
import Homoiconic.Proofs.Reading.Concatenation
import Homoiconic.Proofs.Session.Program

/-! # Running programs that are put together

If a program runs, and another after it, then the text of both with a semicolon between them runs to
the same end, because `do` evaluates their statements in the same order. Only the log tells which
has happened, unless the second program fails: then it takes back what the first has bound just if
both were one text.
-/

namespace Homoiconic

namespace Session

open Homoiconic.Action
open Homoiconic.Evaluation (eval sequence sequence_append sequence_ignoresLog)

variable {bound bound' : Nat} {source : String} {context after : Context} {value : Value}

/-- How a run of two texts as one ends, given how the run of the second has ended in the `middle`,
    where the first leaves off. -/
structure Joins (context middle : Context) (joined second : Outcome RunError Value) : Prop where
  returned : ∀ value after, second = .returned value after →
    ∃ log, joined = .returned value { after with log }
  failed : ∀ error after, second = .failed error after →
    after.env = middle.env ∧ ∃ log, joined = .failed error { after with env := context.env, log }

theorem Joins.of_settle {context middle : Context} {joined second : Outcome RunError Value}
    (evaluation : Outcome EvalError Value)
    (whole : joined.withoutLog = (settle id context.env evaluation).withoutLog)
    (last : second.withoutLog = (settle id middle.env evaluation).withoutLog) :
    Joins context middle joined second := by
  obtain ⟨log, rfl⟩ := Outcome.eq_of_withoutLog whole
  obtain ⟨log', rfl⟩ := Outcome.eq_of_withoutLog last
  cases evaluation with
  | returned value base =>
      refine ⟨?_, by rintro _ _ ⟨⟩⟩
      rintro _ _ ⟨⟩
      exact ⟨log, rfl⟩
  | failed error base =>
      refine ⟨by rintro _ _ ⟨⟩, ?_⟩
      rintro _ _ ⟨⟩
      exact ⟨rfl, log, rfl⟩
  | unfinished => exact ⟨by rintro _ _ ⟨⟩, by rintro _ _ ⟨⟩⟩

/-- To run two programs in a row or as one text is the same, apart from the log and from what is
    taken back after a failure of the second. -/
theorem run_joined {bound₁ bound₂ : Nat} {first second : String} {middle : Context}
    (ran : run bound₁ first context = .returned value middle)
    {inner : List Token} {final ending : Token}
    (scanned : tokens first = inner ++ [final, ending]) (open_ : final.kind ≠ .semicolon)
    {statement : Atom} {statements : List Atom}
    (readable : read second = .ok (.list (.symbol "do" :: statement :: statements)))
    (headBefore : context.env.get? "do" = some (.builtin .sequence))
    (headAfter : middle.env.get? "do" = some (.builtin .sequence))
    (ends : run bound₂ second middle ≠ .unfinished)
    (enough₁ : bound₁ ≤ bound) (enough₂ : bound₂ ≤ bound) :
    Joins context middle (run bound (first ++ ";" ++ second) context)
      (run bound₂ second middle) := by
  rw [← run_of_le enough₂ ends]
  rw [← run_of_le enough₁ (by rw [ran]; nofun)] at ran
  obtain ⟨others, before⟩ := readable_of_returned ran
  obtain ⟨fewer, rfl⟩ := exists_bound_of_returned before ran
  -- All three runs evaluate statements, and the two of the joined text come one after the other.
  have one := run_program fewer before headBefore
  have two := run_program fewer readable headAfter
  have whole := run_program fewer (read_joined scanned open_ before readable) headBefore
  rw [sequence_append] at whole
  cases evaluated : sequence (eval (fewer + 1)) .nil others context.withoutLog with
  | returned value' base =>
      rw [ran, evaluated] at one
      have same : middle.withoutLog = base.withoutLog := (Outcome.returned.inj one).2
      have next : sequence (eval (fewer + 1)) value' (statement :: statements) =
          sequence (eval (fewer + 1)) .nil (statement :: statements) := rfl
      simp only [Bind.bind, Action.bind, evaluated, next] at whole
      rw [settle_withoutLog, (sequence_ignoresLog _ _ _).withoutLog_eq, ← same,
        ← settle_withoutLog] at whole
      exact .of_settle _ whole two
  | failed | unfinished =>
      rw [ran, evaluated] at one
      cases one

theorem run_joined_assignment :
    ∃ middle, run 3 "(set x 1)" (start {}) = .returned .nil middle ∧
      (∃ after, run 3 "x" middle = .returned (.integer 1) after) ∧
      Joins (start {}) middle (run 3 ("(set x 1)" ++ ";" ++ "x") (start {}))
        (run 3 "x" middle) := by
  have first : read "(set x 1)" = .ok (.list [.symbol "do",
    .quoted (.list [.symbol "set", .symbol "x", .number 1])]) := by decide +kernel
  have second : read "x" = .ok (.list [.symbol "do", .quoted (.symbol "x")]) := by decide +kernel
  have scanned : tokens "(set x 1)" =
      [⟨.leftParen, "(", 0⟩, ⟨.symbol, "set", 1⟩, ⟨.symbol, "x", 5⟩, ⟨.number, "1", 7⟩] ++
        [⟨.rightParen, ")", 8⟩, ⟨.endOfInput, "", 9⟩] := by decide +kernel
  let bound : Context := { start {} with env := Environment.standard.set "x" (.integer 1) }
  obtain ⟨log, ran⟩ : ∃ log, run 3 "(set x 1)" (start {}) = .returned .nil { bound with log } := by
    refine @Outcome.eq_of_withoutLog _ _ _ (.returned Value.nil bound) ?_
    rw [run_program 1 first rfl]
    rfl
  obtain ⟨log', later⟩ : ∃ log', run 3 "x" { bound with log } =
      .returned (.integer 1) { bound with log := log' } := by
    refine @Outcome.eq_of_withoutLog _ _ _ (.returned (Value.integer 1) bound) ?_
    rw [run_program 1 second rfl]
    rfl
  have ends : run 3 "x" { bound with log } ≠ .unfinished := by
    intro unfinished
    rw [later] at unfinished
    cases unfinished
  refine ⟨_, ran, ⟨_, later⟩, ?_⟩
  exact run_joined ran scanned (by decide) second rfl rfl ends (Nat.le_refl 3) (Nat.le_refl 3)

end Session

end Homoiconic
