import Homoiconic.Proofs.Evaluation.Unseen

/-! # The stack of saved bindings

An action ignores the saved bindings if it would do the same on any others: they come out as they
went in, and nothing else depends on them. Every evaluation is like that, although each call of a
closure saves bindings and brings them back. So a call finds its own snapshot on top when it ends,
whatever has been called meanwhile and however that has ended, and to restore is to put back what
was there before.
-/

namespace Homoiconic

/-- The same context, on other saved bindings. -/
def Context.withSaved (context : Context) (saved : List Bindings) : Context :=
  { context with env := { context.env with saved } }

theorem Context.Unseen.withSaved (saved : List Bindings) :
    Context.Unseen (·.withSaved saved) := by
  constructor <;> intros <;> rfl

namespace Action

variable {ε α : Type}

/-- On other saved bindings the action does the same, and leaves those instead. -/
def IgnoresSaved (action : Action ε α) : Prop :=
  ∀ context saved,
    action (context.withSaved saved) = (action context).onContext (·.withSaved saved)

namespace IgnoresSaved

/-- What ignores the saved bindings does not change them. -/
theorem saved_after {action : Action ε α} (ignores : action.IgnoresSaved)
    {context after : Context} (ends : (action context).after? = some after) :
    after.env.saved = context.env.saved := by
  have mapped := congrArg Outcome.after? (ignores context context.env.saved)
  change (action context).after? = _ at mapped
  rw [Outcome.after?_onContext, ends, Option.map_some, Option.some.injEq] at mapped
  exact congrArg (·.env.saved) mapped

/-- After a snapshot, the bindings that it has saved are on top again at the end. -/
theorem saved_after_snapshot {action : Action ε α} (ignores : action.IgnoresSaved)
    {context after : Context}
    (ends : (action { context with env := context.env.snapshot }).after? = some after) :
    after.env.saved = context.env.active :: context.env.saved :=
  ignores.saved_after ends

/-- An action on a snapshot is the action itself, but for the bindings that are put back. -/
theorem inSnapshot_eq {action : Action ε α} (ignores : action.IgnoresSaved) (context : Context) :
    action.inSnapshot context =
      (action context).onContext fun after => { after with env := context.env } := by
  have onCopy : action { context with env := context.env.snapshot } =
      (action context).onContext (·.withSaved (context.env.active :: context.env.saved)) :=
    ignores context (context.env.active :: context.env.saved)
  rw [Action.inSnapshot_eq, onCopy, Outcome.onContext_onContext]
  rfl

theorem inSnapshot {action : Action ε α} (ignores : action.IgnoresSaved) :
    action.inSnapshot.IgnoresSaved := by
  intro context saved
  rw [ignores.inSnapshot_eq, ignores.inSnapshot_eq, ignores context saved,
    Outcome.onContext_onContext, Outcome.onContext_onContext]
  rfl

theorem closed : Closed (@IgnoresSaved EvalError) where
  pure _ _ _ := rfl
  bind first later context saved :=
    Commutes.bind (fun context => first context saved)
      (fun value context => later value context saved) context
  fail _ _ _ := rfl
  unfinished _ _ _ := rfl
  record entry _ context saved := Commutes.record (.withSaved saved) entry context
  freshIdentity context saved := Commutes.freshIdentity (.withSaved saved) context
  lookup name context saved := Commutes.lookup (.withSaved saved) name context
  write _ context saved := Commutes.ask (.withSaved saved) _ context
  flush context saved := Commutes.ask (.withSaved saved) _ context
  called _ _ inside context saved :=
    Commutes.bind (Commutes.record (.withSaved saved) _)
      (fun _ => Commutes.reported (.withSaved saved) fun context => inside context saved) context
  bindAll bindings context saved := Commutes.bindAll (.withSaved saved) bindings context
  inSnapshot := inSnapshot

end IgnoresSaved

/-- The action ends on the saved bindings that it began with, and they make no difference to it. -/
structure KeepsStack (action : Action ε α) : Prop where
  unchanged : ∀ context after,
    (action context).after? = some after → after.env.saved = context.env.saved
  unread : action.IgnoresSaved

/-- Done on a snapshot, the action ends with just that snapshot on top of those before it. -/
def MeetsOwnSnapshot (action : Action ε α) : Prop :=
  ∀ context after : Context,
    (action { context with env := context.env.snapshot }).after? = some after →
    after.env.saved = context.env.active :: context.env.saved ∧
      after.env.restore = context.env ∧
      after.env.commit = { context.env with active := after.env.active }

namespace IgnoresSaved

theorem keepsStack {action : Action ε α} (ignores : action.IgnoresSaved) : action.KeepsStack where
  unchanged _ _ ends := ignores.saved_after ends
  unread := ignores

theorem meetsOwnSnapshot {action : Action ε α} (ignores : action.IgnoresSaved) :
    action.MeetsOwnSnapshot := by
  intro context after ends
  have onTop := ignores.saved_after_snapshot ends
  refine ⟨onTop, ?_, ?_⟩
  · simp only [Environment.restore, onTop]
  · simp only [Environment.commit, onTop, List.tail_cons]

end IgnoresSaved

end Action

namespace Evaluation

open Homoiconic.Action

theorem eval_ignoresSaved (bound : Nat) (code : Atom) : (eval bound code).IgnoresSaved :=
  eval_closed IgnoresSaved.closed bound code

theorem apply_ignoresSaved (bound : Nat) (callee : Value) (args : List Atom) :
    (apply bound callee args).IgnoresSaved :=
  apply_closed IgnoresSaved.closed bound callee args

theorem enter_ignoresSaved (bound : Nat) (closure : Closure) (args : List Atom) :
    (enter (eval bound) closure args).IgnoresSaved :=
  enter_closed IgnoresSaved.closed (eval_ignoresSaved bound) closure args

/-- Evaluations and calls leave the saved bindings alone. A call of a closure does what `enter` says
    between its snapshot and its `restore`, and a run evaluates its program between its snapshot and
    its `restore` or `commit`: each of these finds the snapshot that it is meant for. -/
theorem stack_discipline :
    (∀ bound code, (eval bound code).KeepsStack) ∧
    (∀ bound callee args, (apply bound callee args).KeepsStack) ∧
    (∀ bound closure args, (enter (eval bound) closure args).MeetsOwnSnapshot) ∧
    (∀ bound program, (eval bound program).MeetsOwnSnapshot) := by
  refine ⟨?_, ?_, ?_, ?_⟩
  · intro bound code
    exact (eval_ignoresSaved bound code).keepsStack
  · intro bound callee args
    exact (apply_ignoresSaved bound callee args).keepsStack
  · intro bound closure args
    exact (enter_ignoresSaved bound closure args).meetsOwnSnapshot
  · intro bound program
    exact (eval_ignoresSaved bound program).meetsOwnSnapshot

end Evaluation

end Homoiconic
