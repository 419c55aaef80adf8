import Homoiconic.Evaluation.Congruence

/-! # What evaluation does not see

An action commutes with a change of the context if it does the same in the changed context and
leaves the changed one behind. Evaluations commute with changes of whatever none of their steps
looks at: the saved bindings, and the log as far as it has been written.
-/

namespace Homoiconic

namespace Outcome

variable {ε α : Type}

/-- The context that is left, if the action has ended. -/
def after? : Outcome ε α → Option Context
  | .returned _ after | .failed _ after => some after
  | .unfinished => none

def onContext (change : Context → Context) : Outcome ε α → Outcome ε α
  | .returned value after => .returned value (change after)
  | .failed error after => .failed error (change after)
  | .unfinished => .unfinished

@[simp]
theorem after?_onContext (outcome : Outcome ε α) (change : Context → Context) :
    (outcome.onContext change).after? = outcome.after?.map change := by
  cases outcome <;> rfl

theorem onContext_onContext (outcome : Outcome ε α) (first second : Context → Context) :
    (outcome.onContext first).onContext second = outcome.onContext (second ∘ first) := by
  cases outcome <;> rfl

theorem onContext_congr {outcome : Outcome ε α} {first second : Context → Context}
    (same : ∀ after, outcome.after? = some after → first after = second after) :
    outcome.onContext first = outcome.onContext second := by
  cases outcome with
  | returned value after => exact congrArg (Outcome.returned value) (same after rfl)
  | failed error after => exact congrArg (Outcome.failed error) (same after rfl)
  | unfinished => rfl

end Outcome

/-- The change concerns nothing that the steps of an evaluation look at, and they carry it along. -/
structure Context.Unseen (change : Context → Context) : Prop where
  active : ∀ context, (change context).env.active = context.env.active
  sink : ∀ context, (change context).sink = context.sink
  nextIdentity : ∀ context, (change context).nextIdentity = context.nextIdentity
  bound : ∀ context name value, change { context with env := context.env.set name value } =
    { change context with env := (change context).env.set name value }
  written : ∀ context sink, change { context with sink } = { change context with sink }
  logged : ∀ context entry, change { context with log := entry :: context.log } =
    { change context with log := entry :: (change context).log }
  numbered : ∀ context nextIdentity,
    change { context with nextIdentity } = { change context with nextIdentity }

namespace Action

variable {ε α β : Type} {change : Context → Context}

theorem inSnapshot_eq (action : Action ε α) (context : Context) :
    action.inSnapshot context =
      (action { context with env := context.env.snapshot }).onContext
        fun after => { after with env := after.env.restore } := by
  unfold inSnapshot
  cases action { context with env := context.env.snapshot } <;> rfl

/-- In a changed context the action does the same, and leaves the changed one behind. -/
def Commutes (change : Context → Context) (action : Action ε α) : Prop :=
  ∀ context, action (change context) = (action context).onContext change

namespace Commutes

theorem bind {action : Action ε α} {next : α → Action ε β} (first : action.Commutes change)
    (later : ∀ value, (next value).Commutes change) : (action >>= next).Commutes change := by
  intro context
  simp only [Bind.bind, Action.bind, first context]
  cases action context with
  | returned value after => exact later value after
  | failed error after => rfl
  | unfinished => rfl

variable (unseen : Context.Unseen change)

include unseen

theorem record (entry : Record) : (Action.record entry : Action ε Unit).Commutes change := by
  intro context
  simp only [Action.record, Outcome.onContext, unseen.logged]

theorem freshIdentity : (Action.freshIdentity : Action ε Nat).Commutes change := by
  intro context
  unfold Action.freshIdentity
  rw [unseen.nextIdentity]
  exact congrArg (Outcome.returned _) (unseen.numbered context _).symm

theorem lookup (name : String) : (Action.lookup name).Commutes change := by
  intro context
  have same : (change context).env.fetch name = context.env.fetch name := by
    simp only [Environment.fetch, Environment.get?, unseen.active]
  unfold Action.lookup
  rw [same]
  cases context.env.fetch name <;> rfl

theorem ask (request : Sink → Except SinkError Unit × Sink) :
    (Action.ask request).Commutes change := by
  intro context
  unfold Action.ask
  rw [unseen.sink]
  cases request context.sink with
  | mk result sink =>
      cases result with
      | ok => exact congrArg (Outcome.returned _) (unseen.written context sink).symm
      | error cause => exact congrArg (Outcome.failed _) (unseen.written context sink).symm

theorem bindAll (bindings : List (String × Value)) :
    (Action.bindAll bindings : Action ε Unit).Commutes change := by
  intro context
  have same : change { context with env := context.env.setAll bindings } =
      { change context with env := (change context).env.setAll bindings } := by
    simp only [Environment.setAll]
    induction bindings generalizing context with
    | nil => rfl
    | cons binding rest ih =>
        have later := ih { context with env := context.env.set binding.1 binding.2 }
        rw [unseen.bound] at later
        exact later
  simp only [Action.bindAll, Outcome.onContext, same]

theorem reported {builtin : Builtin} {action : Action EvalError Value}
    (inside : action.Commutes change) : (reported builtin action).Commutes change := by
  intro context
  simp only [Action.reported, inside context]
  cases action context <;> simp only [Outcome.onContext, unseen.logged]

omit unseen in
/-- The steps of an evaluation commute with all changes of a family that they do not see. -/
theorem stepwise {ι : Type} {changes : ι → Context → Context}
    (unseen : ∀ i, Context.Unseen (changes i)) :
    Stepwise (fun action _ => ∀ i, action.Commutes (changes i)) where
  pure _ _ _ := rfl
  bind first later i := bind (first i) fun value => later value i
  fail _ _ _ := rfl
  unfinished _ _ _ := rfl
  record entry _ i := record (unseen i) entry
  freshIdentity i := freshIdentity (unseen i)
  lookup name i := lookup (unseen i) name
  write _ i := ask (unseen i) _
  flush i := ask (unseen i) _
  called _ _ inside i := bind (record (unseen i) _) fun _ => reported (unseen i) (inside i)

end Commutes

end Action

end Homoiconic
