import Mathlib.Control.Monad.Basic
import Homoiconic.Proofs.Evaluation.Room
import Homoiconic.Proofs.Session.AllOrNothing

/-! # Runs where room is limited

A run in a sink with limited room is the run in a sink without a limit, if there is room for all
that it prints. If there is not, it fails because the sink is full, which holds the beginning of
what would have been printed, and the bindings are what they were.
-/

namespace Homoiconic

namespace Session

open Homoiconic.Evaluation (eval eval_cutsOff)

theorem settle_cutOff {α : Type} {present : Value → α} {env : Environment}
    {before before' printed : ByteArray} {room : Nat} {endless limited : Outcome EvalError Value}
    (cut : Outcome.CutOff before before' room (.output .full) printed endless limited) :
    Outcome.CutOff before before' room (.evaluation (.output .full)) printed
      (settle present env endless) (settle present env limited) := by
  refine cut.map ?_ ?_
  · intro outcome sink
    cases outcome <;> rfl
  · intro last
    exact ⟨_, rfl⟩

variable {bound : Nat} {source : String} {context : Context} {before : ByteArray}

theorem run_cutOff (before' : ByteArray) (room : Nat)
    (ends : run bound source (context.withSink (.endless before)) ≠ .unfinished) :
    ∃ printed, Outcome.CutOff before before' room (.evaluation (.output .full)) printed
      (run bound source (context.withSink (.endless before)))
      (run bound source (context.withSink (.limited before' room))) := by
  cases reading : read source with
  | error cause =>
      rw [run_unreadable bound reading, run_unreadable bound reading]
      exact ⟨.empty, .of_silent (.failed (RunError.unreadable cause) (remarked source context))⟩
  | ok program =>
      rw [run_readable bound reading] at ends ⊢
      rw [run_readable bound reading]
      rcases eval_cutsOff bound program (loaded source program context) before before' room with
        unfinished | ⟨printed, cut⟩
      · exact absurd (congrArg (settle id context.env) unfinished) ends
      · exact ⟨printed, settle_cutOff cut⟩

/-- A limit of room cuts off what a run prints, and does nothing else: the run fails if it prints
    more than there is room for, with the bindings put back, and is as without a limit if not. -/
theorem full_sink_cuts_output (before' : ByteArray) (room : Nat)
    (ends : run bound source (context.withSink (.endless before)) ≠ .unfinished) :
    ∃ printed,
      (∀ after, (run bound source (context.withSink (.endless before))).after? = some after →
        after.sink = .endless (before ++ printed)) ∧
      (printed.size ≤ room →
        run bound source (context.withSink (.limited before' room)) =
          (run bound source (context.withSink (.endless before))).onContext
            (·.withSink (.limited (before' ++ printed) (room - printed.size)))) ∧
      (room < printed.size →
        ∃ last, run bound source (context.withSink (.limited before' room)) =
            .failed (.evaluation (.output .full)) last ∧
          last.sink = .limited (before' ++ printed.extract 0 room) 0 ∧ last.env = context.env) := by
  obtain ⟨printed, cut⟩ := run_cutOff before' room ends
  refine ⟨printed, cut.written, cut.fits, ?_⟩
  intro tooLong
  obtain ⟨last, failed, sink⟩ := cut.full tooLong
  have putBack : last.env = (context.withSink (.limited before' room)).env :=
    (run_allOrNothing bound source).failed _ _ _ failed
  exact ⟨last, failed, sink, putBack⟩

/-- The line `12` where there is room for one byte: the sink is full after the first digit. -/
theorem full_sink_cuts_number :
    run 4 "(print 12)" ((start {}).withSink (.endless .empty)) ≠ .unfinished ∧
      ∃ last, run 4 "(print 12)" ((start {}).withSink (.limited .empty 1)) =
          .failed (.evaluation (.output .full)) last ∧
        last.sink = .limited "1".toUTF8 0 ∧ last.env = .standard := by
  have readable : read "(print 12)" =
      .ok (.list [.symbol "do", .quoted (.list [.symbol "print", .number 12])]) := by decide +kernel
  have wrote : (run 4 "(print 12)" ((start {}).withSink (.endless .empty))).after?.map
      (·.sink.written) = some "12\n".toUTF8 := by
    rw [run_readable 4 readable]
    decide +kernel
  obtain ⟨after, ended, bytes⟩ := Option.map_eq_some_iff.mp wrote
  have ends : run 4 "(print 12)" ((start {}).withSink (.endless .empty)) ≠ .unfinished := by
    intro unfinished
    rw [unfinished] at ended
    cases ended
  obtain ⟨printed, written, -, full⟩ := full_sink_cuts_output .empty 1 ends
  rw [written after ended, Sink.endless, ByteArray.empty_append] at bytes
  subst bytes
  obtain ⟨last, failed, sink, env⟩ := full (by decide +kernel)
  refine ⟨ends, last, failed, ?_, env⟩
  rw [sink, ByteArray.empty_append]
  exact congrArg (Sink.limited · 0) (by decide +kernel)

end Session

end Homoiconic
