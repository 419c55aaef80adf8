import Homoiconic.Proofs.Evaluation.Calls
import Homoiconic.Proofs.Evaluation.Flattening
import Homoiconic.Proofs.Reading.Braces
import Homoiconic.Proofs.Session.Program

/-! # Programs with blocks

A run concludes as the statements of its program do, and statements conclude the same if some of
them stand in braces, as long as `do` means what it should where the braces begin.
-/

namespace Homoiconic

namespace Session

open Homoiconic.Action
open Homoiconic.Evaluation

variable {source : String} {statements : List Atom} {context : Context}
  {outcome : Outcome RunError Value}

/-- A run concludes as its statements do, and settles what becomes of the bindings. -/
theorem concludes_run (readable : read source = .ok (.list (.symbol "do" :: statements)))
    (head : context.env.get? "do" = some (.builtin .sequence)) :
    Concludes (fun bound => run bound source) context outcome ↔ ∃ evaluation,
      Concludes (fun bound => sequence (eval bound) .nil statements) context evaluation ∧
        outcome = (settle id context.env evaluation).withoutLog := by
  have gradual := gradual_sequence .nil statements
  have ran bound : (run (bound + 2) source context).withoutLog = (settle id context.env
      (sequence (eval (bound + 1)) .nil statements context).withoutLog).withoutLog := by
    rw [run_program bound readable head, settle_withoutLog,
      ← (gradual.ignoresLog _).withoutLog_eq]
  constructor
  · rintro ⟨ends, bound, same⟩
    have finished : run bound source context ≠ .unfinished := by
      intro unfinished
      simp only [unfinished] at same
      exact ends same.symm
    obtain ⟨fewer, rfl⟩ := exists_bound_of_ends readable finished
    simp only [ran] at same
    refine ⟨_, ⟨?_, fewer + 1, rfl⟩, same.symm⟩
    intro unfinished
    rw [unfinished] at same
    exact ends same.symm
  · rintro ⟨evaluation, ⟨ends, bound, same⟩, rfl⟩
    refine ⟨?_, bound + 2, ?_⟩
    · cases evaluation with
      | returned | failed => simp [settle, Outcome.withoutLog, Outcome.onContext]
      | unfinished => exact absurd rfl ends
    · simp only [ran, gradual.withoutLog_of_le ends (Nat.le_succ bound) same]

/-- **Blocks flatten.** If a call of `do` has another one among its statements, then it concludes as
    it does with the statements of that one in its place: with the same value or error, in the same
    environment and with the same output, or not at all. It only has to be sure that `do` means what
    it should where the inner call begins, and that the last value is that of a statement. So a
    program runs the same if a part of it is put in braces, because that is how braces read. -/
theorem blocks_flatten :
    (∀ (first inner last : List Atom) (context : Context) (outcome : Outcome EvalError Value),
      inner ≠ [] ∨ last ≠ [] → KeepsSequence first context →
      (Concludes (fun bound => apply bound (.builtin .sequence) (first ++ block inner :: last))
          context outcome ↔
        Concludes (fun bound => apply bound (.builtin .sequence) (first ++ inner ++ last))
          context outcome)) ∧
    (∀ (nested flat : String) (first inner last : List Atom) (context : Context)
        (outcome : Outcome RunError Value),
      read nested = .ok (.list (.symbol "do" :: (first ++ block inner :: last))) →
      read flat = .ok (.list (.symbol "do" :: (first ++ inner ++ last))) →
      inner ≠ [] ∨ last ≠ [] → context.env.get? "do" = some (.builtin .sequence) →
      KeepsSequence first context →
      (Concludes (fun bound => run bound nested) context outcome ↔
        Concludes (fun bound => run bound flat) context outcome)) ∧
    ∀ (start inside rest : String) (first inner last : List Atom),
      read start = .ok (.list (.symbol "do" :: first)) →
      read inside = .ok (.list (.symbol "do" :: inner)) →
      read rest = .ok (.list (.symbol "do" :: last)) →
      read (start ++ separator start ++ (braced inside ++ ";" ++ rest)) =
          .ok (.list (.symbol "do" :: (first ++ block inner :: last))) ∧
        read (start ++ separator start ++ (inside ++ separator inside ++ rest)) =
          .ok (.list (.symbol "do" :: (first ++ inner ++ last))) := by
  refine ⟨?_, ?_, ?_⟩
  · intro first inner last context outcome filled keeps
    rw [concludes_apply_sequence, concludes_apply_sequence]
    exact concludes_flattened filled keeps
  · intro nested flat first inner last context outcome readsNested readsFlat filled head keeps
    rw [concludes_run readsNested head, concludes_run readsFlat head]
    simp only [concludes_flattened filled keeps]
  · intro start inside rest first inner last reads within readsToo
    refine ⟨read_nested reads within readsToo, ?_⟩
    rw [List.append_assoc]
    exact read_separated reads (read_separated within readsToo)

theorem blocks_flatten_between :
    let first : List Atom := [.quoted (.list [.symbol "set", .symbol "y", .number 1])]
    let inner : List Atom := [.quoted (.list [.symbol "set", .symbol "x", .number 2])]
    let last : List Atom := [.quoted (.symbol "x")]
    let after : Context :=
      { start {} with env := (Environment.standard.set "y" (.integer 1)).set "x" (.integer 2) }
    KeepsSequence first (start {}) ∧
      read "(set y 1);\x7b(set x 2)\x7d;x" =
        .ok (.list (.symbol "do" :: (first ++ block inner :: last))) ∧
      Concludes (fun bound => run bound "(set y 1);\x7b(set x 2)\x7d;x") (start {})
        (.returned (.integer 2) after) ∧
      Concludes (fun bound => apply bound (.builtin .sequence) (first ++ block inner :: last))
        (start {}) (.returned (.integer 2) after) := by
  intro first inner last after
  let middle : Context := { start {} with env := Environment.standard.set "y" (.integer 1) }
  have assign := Environment.get?_standard .assign
  have sequence := Environment.get?_standard .sequence
  have assigns {context : Context} (bound : context.env.get? "set" = some (.builtin .assign))
      (name : String) (number : Int64) :
      Concludes (fun bound => eval bound (.list [.symbol "set", .symbol name, .number number]))
        context (.returned .nil
          { context.withoutLog with env := context.env.set name (.integer number) }) := by
    have evaluates older : ∃ log, eval 1 (.number number) { context with log := older } =
        .returned (.integer number) { context with log } := ⟨_, rfl⟩
    obtain ⟨log, assigned⟩ := eval_assignment 0 name bound evaluates
    exact @Concludes.of_returned _ _ (fun bound => eval bound _) 2 _ _ _ assigned
  have begins : Concludes (fun bound => Evaluation.sequence (eval bound) .nil first) (start {})
      (.returned .nil middle) :=
    concludes_statement (assigns assign "y" 1) (concludes_end _ _)
  have keeps : KeepsSequence first (start {}) := by
    refine .of_concludes begins ?_
    rw [Environment.get?_set]
    exact sequence
  have evaluated : Concludes
      (fun bound => Evaluation.sequence (eval bound) .nil (first ++ inner ++ last)) (start {})
      (.returned (.integer 2) after) := by
    have found : after.env.get? "x" = some (.integer 2) := by
      rw [Environment.get?_set]
      rfl
    have ready : middle.env.get? "set" = some (.builtin .assign) := by
      rw [Environment.get?_set]
      exact assign
    have ends : Concludes (fun bound => eval bound (.symbol "x")) after
        (.returned (.integer 2) after) :=
      @Concludes.of_returned _ _ (fun bound => eval bound _) 1 _ _ _ (eval_symbol found 0)
    exact concludes_statement (assigns assign "y" 1) (concludes_statement (assigns ready "x" 2)
      (concludes_statement ends (concludes_end _ _)))
  obtain ⟨calls, runs, texts⟩ := blocks_flatten
  have texts := texts "(set y 1)" "(set x 2)" "x" first inner last (by decide +kernel)
    (by decide +kernel) (by decide +kernel)
  have nested : "(set y 1)" ++ separator "(set y 1)" ++ (braced "(set x 2)" ++ ";" ++ "x") =
      "(set y 1);\x7b(set x 2)\x7d;x" := by decide +kernel
  rw [nested] at texts
  have filled : inner ≠ [] ∨ last ≠ [] := .inl (by simp [inner])
  refine ⟨keeps, texts.1, ?_, ?_⟩
  · refine (runs _ _ first inner last _ _ texts.1 texts.2 filled sequence keeps).mpr ?_
    exact (concludes_run texts.2 sequence).mpr ⟨_, evaluated, rfl⟩
  · refine (calls first inner last _ _ filled keeps).mpr ?_
    exact (concludes_apply_sequence _).mpr evaluated

end Session

end Homoiconic
