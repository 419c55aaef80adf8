import Homoiconic.Proofs.Evaluation.SavedStack

/-! # From one context to the next

Some relations between contexts hold between the beginning and the end of whatever is done without
binding a name or calling a closure: those that can be put together from the steps on the way, and
that look at neither the log nor the supply of identities.
-/

namespace Homoiconic

namespace Action

variable {ε α β : Type} {r : Context → Context → Prop}

/-- However the action ends, the context that it began in is related to the one that it leaves. -/
def Leads (r : Context → Context → Prop) (action : Action ε α) : Prop :=
  ∀ context after : Context, (action context).after? = some after → r context after

/-- The relation allows all that happens in a context, but for changes of its bindings. -/
structure Progress (r : Context → Context → Prop) : Prop where
  refl : ∀ context, r context context
  trans : ∀ {first second third}, r first second → r second third → r first third
  logged : ∀ context log, r context { context with log }
  numbered : ∀ context nextIdentity, r context { context with nextIdentity }
  written : ∀ context text, r context { context with sink := (context.sink.write text).2 }
  flushed : ∀ context, r context { context with sink := context.sink.flush.2 }

namespace Progress

variable (progress : Progress r)

include progress

theorem bind {action : Action ε α} {next : α → Action ε β} (first : action.Leads r)
    (later : ∀ value, (next value).Leads r) : (action >>= next).Leads r := by
  intro context after ends
  simp only [Bind.bind, Action.bind] at ends
  have begun := first context
  cases outcome : action context with
  | returned value middle =>
      rw [outcome] at ends begun
      exact progress.trans (begun middle rfl) (later value middle after ends)
  | failed error middle =>
      rw [outcome] at ends begun
      exact begun after ends
  | unfinished =>
      rw [outcome] at ends
      cases ends

theorem pure (value : α) : (Action.pure value : Action ε α).Leads r := by
  rintro context _ ⟨⟩
  exact progress.refl context

theorem fail (error : ε) : (Action.fail error : Action ε α).Leads r := by
  rintro context _ ⟨⟩
  exact progress.refl context

theorem record (entry : Record) : (Action.record entry : Action ε Unit).Leads r := by
  rintro context _ ⟨⟩
  exact progress.logged context _

theorem freshIdentity : (Action.freshIdentity : Action ε Nat).Leads r := by
  rintro context _ ⟨⟩
  exact progress.numbered context _

theorem lookup (name : String) : (Action.lookup name).Leads r := by
  intro context after ends
  unfold Action.lookup at ends
  split at ends <;> cases ends <;> exact progress.refl context

omit progress in
theorem ask {request : Sink → Except SinkError Unit × Sink}
    (asked : ∀ context : Context, r context { context with sink := (request context.sink).2 }) :
    (Action.ask request).Leads r := by
  intro context after ends
  have asked := asked context
  unfold Action.ask at ends
  split at ends
  next sink accepted =>
    rw [accepted] at asked
    cases ends
    exact asked
  next cause sink refused =>
    rw [refused] at asked
    cases ends
    exact asked

theorem reported {builtin : Builtin} {action : Action EvalError Value} (inside : action.Leads r) :
    (reported builtin action).Leads r := by
  intro context after ends
  have begun := inside context
  unfold Action.reported at ends
  cases outcome : action context with
  | returned value last =>
      rw [outcome] at ends begun
      cases ends
      exact progress.trans (begun last rfl) (progress.logged last _)
  | failed error last =>
      rw [outcome] at ends begun
      cases ends
      exact progress.trans (begun last rfl) (progress.logged last _)
  | unfinished =>
      rw [outcome] at ends
      cases ends

theorem stepwise : Stepwise (fun action _ => action.Leads r) where
  pure := progress.pure
  bind := progress.bind
  fail := progress.fail
  unfinished _ _ _ ends := by cases ends
  record entry _ := progress.record entry
  freshIdentity := progress.freshIdentity
  lookup := progress.lookup
  write text := ask (progress.written · text)
  flush := ask progress.flushed
  called _ _ inside := progress.bind (progress.record _) fun _ => progress.reported inside

end Progress

end Action

end Homoiconic
