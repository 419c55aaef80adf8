import Homoiconic.Proofs.Evaluation.Unseen

/-! # Printing where room is limited

An evaluation does nothing with its sink but write to it and flush it, and it never catches an
error. So it does the same in a sink that has room for all that it prints as in a sink without a
limit. In a sink that has less room it fails as soon as the room is used up, and what it has printed
until then is the beginning of what it would have printed.
-/

namespace Homoiconic

namespace Sink

variable {written : ByteArray} {room : Nat} {text : String}

/-- A sink that accepts everything, after what has been written to it. -/
def endless (written : ByteArray) : Sink where
  written

/-- A sink that accepts so many bytes more. -/
def limited (written : ByteArray) (room : Nat) : Sink where
  written
  room := some room

theorem write_endless : (endless written).write text = (.ok (), endless (written ++ text.toUTF8)) :=
  rfl

theorem write_limited_of_le (fits : text.toUTF8.size ≤ room) :
    (limited written room).write text =
      (.ok (), limited (written ++ text.toUTF8) (room - text.toUTF8.size)) := by
  have whole := @ByteArray.extract_zero_max_size text.toUTF8 room
  rw [Nat.max_eq_left fits] at whole
  simp only [write, writeBytes, asked, Sink.fits, keep, limited, Option.all_some, fits,
    decide_true, if_true, whole]

theorem write_limited_of_lt (tooLong : room < text.toUTF8.size) :
    (limited written room).write text =
      (.error .full, limited (written ++ text.toUTF8.extract 0 room) 0) := by
  have noRoom : ¬ text.toUTF8.size ≤ room := by omega
  have used : room - text.toUTF8.size = 0 := by omega
  simp only [write, writeBytes, asked, fits, keep, limited, Option.all_some, noRoom,
    decide_false, Bool.false_eq_true, if_false, used]

end Sink

/-- The same context, with another sink. -/
def Context.withSink (context : Context) (sink : Sink) : Context :=
  { context with sink }

theorem Context.withSink_of_eq {context : Context} {sink : Sink} (same : context.sink = sink) :
    context.withSink sink = context :=
  same ▸ rfl

namespace Outcome

variable {ε δ α β : Type}

theorem onContext_withSink_of_eq {outcome : Outcome ε α} {sink : Sink}
    (same : ∀ after, outcome.after? = some after → after.sink = sink) :
    outcome.onContext (·.withSink sink) = outcome := by
  cases outcome with
  | returned value after => exact congrArg _ (Context.withSink_of_eq (same after rfl))
  | failed error after => exact congrArg _ (Context.withSink_of_eq (same after rfl))
  | unfinished => rfl

theorem sink_of_onContext_withSink {outcome : Outcome ε α} {sink : Sink}
    (same : outcome.onContext (·.withSink sink) = outcome) {after : Context}
    (ends : outcome.after? = some after) : after.sink = sink := by
  rw [← same, after?_onContext] at ends
  obtain ⟨last, _, rfl⟩ := Option.map_eq_some_iff.mp ends
  rfl

/-- An outcome in a sink with limited room, next to the one in an endless sink, which has `printed`
    some bytes. At first the two sinks held the bytes `before'` and `before`. -/
structure CutOff (before before' : ByteArray) (room : Nat) (full : ε) (printed : ByteArray)
    (endless limited : Outcome ε α) : Prop where
  written : ∀ after, endless.after? = some after → after.sink = .endless (before ++ printed)
  /-- Where there is room for everything, the limit changes nothing but itself. -/
  fits : printed.size ≤ room →
    limited = endless.onContext (·.withSink (.limited (before' ++ printed) (room - printed.size)))
  /-- Where there is not, the sink is full in the end, and that is the error. -/
  full : room < printed.size →
    ∃ last, limited = .failed full last ∧ last.sink = .limited (before' ++ printed.extract 0 room) 0

namespace CutOff

variable {before before' printed more : ByteArray} {room : Nat} {full : ε} {full' : δ}
  {endless limited : Outcome ε α}

theorem of_silent (outcome : Outcome ε α) :
    CutOff before before' room full .empty (outcome.onContext (·.withSink (.endless before)))
      (outcome.onContext (·.withSink (.limited before' room))) where
  written after ends := by
    rw [after?_onContext] at ends
    obtain ⟨last, _, rfl⟩ := Option.map_eq_some_iff.mp ends
    simp [Context.withSink]
  fits _ := by
    rw [onContext_onContext]
    simp only [ByteArray.append_empty]
    rfl
  full tooLong := by simp at tooLong

/-- What is done to outcomes without a look at the sink can be done to both. -/
theorem map (cut : CutOff before before' room full printed endless limited)
    {change : Outcome ε α → Outcome δ β}
    (commutes : ∀ outcome sink, change (outcome.onContext (·.withSink sink)) =
      (change outcome).onContext (·.withSink sink))
    (fails : ∀ last, ∃ last', change (.failed full last) = .failed full' last') :
    CutOff before before' room full' printed (change endless) (change limited) where
  written after ends := by
    refine sink_of_onContext_withSink ?_ ends
    rw [← commutes, onContext_withSink_of_eq cut.written]
  fits fits := by rw [cut.fits fits, commutes]
  full tooLong := by
    obtain ⟨last, rfl, sink⟩ := cut.full tooLong
    obtain ⟨last', failed⟩ := fails last
    refine ⟨last', failed, ?_⟩
    refine @sink_of_onContext_withSink _ _ (change (.failed full last)) _ ?_ _ (by rw [failed]; rfl)
    rw [← commutes, onContext_withSink_of_eq]
    rintro _ ⟨⟩
    exact sink

/-- After an error it does not matter what value was wanted. -/
theorem of_failed {error : ε} {after : Context}
    (cut : CutOff before before' room full printed (.failed error after : Outcome ε α) limited) :
    ∃ error' last, limited = .failed error' last ∧
      CutOff before before' room full printed (.failed error after : Outcome ε β)
        (.failed error' last) := by
  have written : ∀ last, (Outcome.failed (α := β) error after).after? = some last →
      last.sink = .endless (before ++ printed) := by
    rintro last ⟨⟩
    exact cut.written after rfl
  rcases Nat.lt_or_ge room printed.size with tooLong | fits
  · obtain ⟨last, failed, sink⟩ := cut.full tooLong
    exact ⟨full, last, failed, written, fun fits => by omega, fun _ => ⟨last, rfl, sink⟩⟩
  · exact ⟨error, _, cut.fits fits, written, fun _ => rfl, fun tooLong => by omega⟩

/-- What is printed first takes up room, and what is printed after it gets the room that is left. -/
theorem later (cut : CutOff (before ++ printed) (before' ++ printed) (room - printed.size) full more
    endless limited) (fits : printed.size ≤ room) :
    CutOff before before' room full (printed ++ more) endless limited where
  written after ends := by rw [cut.written after ends, ByteArray.append_assoc]
  fits both := by
    rw [ByteArray.size_append] at both
    rw [cut.fits (by omega), ByteArray.append_assoc, ByteArray.size_append, Nat.sub_sub]
  full tooLong := by
    rw [ByteArray.size_append] at tooLong
    obtain ⟨last, failed, sink⟩ := cut.full (by omega)
    have whole := @ByteArray.extract_zero_max_size printed room
    rw [Nat.max_eq_left fits] at whole
    refine ⟨last, failed, ?_⟩
    rw [sink, ByteArray.extract_append, whole, Nat.zero_sub, ByteArray.append_assoc]

/-- Once the sink is full, nothing more gets into it. -/
theorem afterFull (tooLong : room < printed.size)
    (written : ∀ after, endless.after? = some after →
      after.sink = .endless (before ++ (printed ++ more)))
    {last : Context} (sink : last.sink = .limited (before' ++ printed.extract 0 room) 0) :
    CutOff before before' room full (printed ++ more) endless (.failed full last) where
  written := written
  fits fits := by
    rw [ByteArray.size_append] at fits
    omega
  full _ := by
    refine ⟨last, rfl, ?_⟩
    have nothing : more.extract (0 - printed.size) (room - printed.size) = .empty := by
      rw [Nat.sub_eq_zero_of_le (Nat.le_of_lt tooLong), Nat.zero_sub]
      simp
    rw [sink, ByteArray.extract_append, nothing, ByteArray.append_empty]

end CutOff

end Outcome

/-- How a call of a built-in ends, given how its work has ended. -/
def Outcome.reported (builtin : Builtin) : Outcome EvalError Value → Outcome EvalError Value
  | .returned value after =>
      .returned value { after with log := .resulted builtin value :: after.log }
  | .failed error after => .failed error { after with log := .failed builtin error :: after.log }
  | .unfinished => .unfinished

namespace Action

variable {α β : Type}

theorem reported_eq (builtin : Builtin) (action : Action EvalError Value) (context : Context) :
    reported builtin action context = (action context).reported builtin :=
  rfl

/-- A limit of room either makes no difference to the action or cuts off what it prints. -/
def CutsOff (action : Action EvalError α) : Prop :=
  ∀ (context : Context) (before before' : ByteArray) (room : Nat),
    action (context.withSink (.endless before)) = .unfinished ∨
      ∃ printed, Outcome.CutOff before before' room (.output .full) printed
        (action (context.withSink (.endless before)))
        (action (context.withSink (.limited before' room)))

namespace CutsOff

theorem of_silent {action : Action EvalError α} (silent : ∀ (context : Context) sink,
    action (context.withSink sink) = (action context).onContext (·.withSink sink)) :
    action.CutsOff := by
  intro context before before' room
  rw [silent, silent]
  exact .inr ⟨.empty, .of_silent _⟩

theorem write (text : String) : (Action.write text).CutsOff := by
  intro context before before' room
  refine .inr ⟨text.toUTF8, ?_, ?_, ?_⟩
  · rintro after ⟨⟩
    rfl
  · intro fits
    simp only [Action.write, ask, Context.withSink, Sink.write_limited_of_le fits,
      Sink.write_endless, Outcome.onContext]
  · intro tooLong
    simp only [Action.write, ask, Context.withSink, Sink.write_limited_of_lt tooLong]
    exact ⟨_, rfl, rfl⟩

theorem flush : Action.flush.CutsOff := by
  intro context before before' room
  exact .inr ⟨.empty, .of_silent (.returned () context)⟩

theorem lookup (name : String) : (Action.lookup name).CutsOff := by
  refine of_silent fun context sink => ?_
  unfold Action.lookup Context.withSink
  cases context.env.fetch name <;> rfl

theorem bind {action : Action EvalError α} {next : α → Action EvalError β}
    (first : action.CutsOff) (later : ∀ value, (next value).CutsOff) :
    (action >>= next).CutsOff := by
  intro context before before' room
  simp only [Bind.bind, Action.bind]
  rcases first context before before' room with unfinished | ⟨printed, cut⟩
  · exact .inl (by rw [unfinished])
  cases outcome : action (context.withSink (.endless before)) with
  | unfinished => exact .inl rfl
  | failed error after =>
      rw [outcome] at cut
      obtain ⟨error', last, failed, cut'⟩ := cut.of_failed
      rw [failed]
      exact .inr ⟨printed, cut'⟩
  | returned value after =>
      rw [outcome] at cut
      have here := Context.withSink_of_eq (cut.written after rfl)
      rcases Nat.lt_or_ge room printed.size with tooLong | fits
      · obtain ⟨last, failed, sink⟩ := cut.full tooLong
        rw [failed]
        rcases later value after (before ++ printed) before' room with unfinished | ⟨more, cut'⟩
        · exact .inl (by rwa [here] at unfinished)
        · rw [here] at cut'
          refine .inr ⟨printed ++ more, .afterFull tooLong ?_ sink⟩
          intro after ends
          rw [cut'.written after ends, ByteArray.append_assoc]
      · rw [cut.fits fits]
        rcases later value after (before ++ printed) (before' ++ printed) (room - printed.size)
          with unfinished | ⟨more, cut'⟩
        · exact .inl (by rwa [here] at unfinished)
        · rw [here] at cut'
          exact .inr ⟨printed ++ more, cut'.later fits⟩

theorem inSnapshot {action : Action EvalError α} (inside : action.CutsOff) :
    action.inSnapshot.CutsOff := by
  intro context before before' room
  simp only [Action.inSnapshot_eq]
  rcases inside { context with env := context.env.snapshot } before before' room with
    unfinished | ⟨printed, cut⟩
  · exact .inl (congrArg (Outcome.onContext _) unfinished)
  · refine .inr ⟨printed, cut.map (fun outcome sink => ?_) fun last => ⟨_, rfl⟩⟩
    cases outcome <;> rfl

theorem reported {builtin : Builtin} {action : Action EvalError Value} (inside : action.CutsOff) :
    (reported builtin action).CutsOff := by
  intro context before before' room
  simp only [Action.reported_eq]
  rcases inside context before before' room with unfinished | ⟨printed, cut⟩
  · exact .inl (congrArg (Outcome.reported builtin) unfinished)
  · refine .inr ⟨printed, cut.map (fun outcome sink => ?_) fun last => ⟨_, rfl⟩⟩
    cases outcome <;> rfl

theorem closed : Closed @CutsOff where
  pure _ := of_silent fun _ _ => rfl
  bind := bind
  fail _ := of_silent fun _ _ => rfl
  unfinished _ _ _ _ _ := .inl rfl
  record _ _ := of_silent fun _ _ => rfl
  freshIdentity := of_silent fun _ _ => rfl
  lookup := lookup
  write := write
  flush := flush
  called _ _ inside := bind (of_silent fun _ _ => rfl) fun _ => reported inside
  bindAll _ := of_silent fun _ _ => rfl
  inSnapshot := inSnapshot

end CutsOff

end Action

theorem Evaluation.eval_cutsOff (bound : Nat) (code : Atom) : (eval bound code).CutsOff :=
  eval_closed Action.CutsOff.closed bound code

end Homoiconic
