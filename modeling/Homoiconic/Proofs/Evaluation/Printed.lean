import Homoiconic.Proofs.Evaluation.Progress

/-! # What has been printed

Nothing that has been written to a sink is ever taken back, not by a failure and not by the end of a
call: an evaluation only adds to it.
-/

namespace Homoiconic

/-- The later sink holds what the earlier one does, and perhaps more after it. -/
def Sink.Extends (later earlier : Sink) : Prop :=
  ∃ printed, later.written = earlier.written ++ printed

namespace Sink.Extends

theorem refl (sink : Sink) : sink.Extends sink :=
  ⟨.empty, ByteArray.append_empty.symm⟩

theorem trans {first second third : Sink} (later : third.Extends second)
    (earlier : second.Extends first) : third.Extends first := by
  obtain ⟨more, later⟩ := later
  obtain ⟨printed, earlier⟩ := earlier
  exact ⟨printed ++ more, by rw [later, earlier, ByteArray.append_assoc]⟩

theorem keep (sink : Sink) (bytes : ByteArray) : (sink.keep bytes).Extends sink := by
  unfold Sink.keep
  split
  · exact ⟨_, rfl⟩
  · exact ⟨_, rfl⟩

/-- Even if the write fails, whatever the reason. -/
theorem write (sink : Sink) (text : String) : (sink.write text).2.Extends sink := by
  unfold Sink.write Sink.writeBytes
  split
  · exact keep (sink.asked _) _
  · exact keep (sink.asked _) _

theorem flush (sink : Sink) : sink.flush.2.Extends sink := by
  unfold Sink.flush
  split
  · exact refl sink
  · exact refl sink

end Sink.Extends

namespace Action

variable {ε α : Type}

/-- However the action ends, it has only added to what was printed before. -/
def OnlyPrints (action : Action ε α) : Prop :=
  ∀ context after : Context, (action context).after? = some after →
    after.sink.Extends context.sink

namespace OnlyPrints

theorem progress : Progress fun context after => after.sink.Extends context.sink where
  refl context := .refl context.sink
  trans earlier later := later.trans earlier
  logged context _ := .refl context.sink
  numbered context _ := .refl context.sink
  written context text := .write context.sink text
  flushed context := .flush context.sink

theorem bindAll (bindings : List (String × Value)) :
    (bindAll bindings : Action ε Unit).OnlyPrints := by
  rintro context _ ⟨⟩
  exact .refl context.sink

theorem inSnapshot {action : Action ε α} (inside : action.OnlyPrints) :
    action.inSnapshot.OnlyPrints := by
  intro context after ends
  rw [Action.inSnapshot_eq, Outcome.after?_onContext] at ends
  obtain ⟨last, onCopy, rfl⟩ := Option.map_eq_some_iff.mp ends
  exact inside { context with env := context.env.snapshot } last onCopy

theorem closed : Closed (@OnlyPrints EvalError) where
  toStepwise := progress.stepwise
  bindAll := bindAll
  inSnapshot := inSnapshot

end OnlyPrints

end Action

theorem Evaluation.eval_onlyPrints (bound : Nat) (code : Atom) : (eval bound code).OnlyPrints :=
  eval_closed Action.OnlyPrints.closed bound code

end Homoiconic
