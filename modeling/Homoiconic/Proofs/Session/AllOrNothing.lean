import Homoiconic.Proofs.Evaluation.Printed
import Homoiconic.Session

/-! # Runs are all or nothing

A run takes a snapshot, evaluates, and commits or restores. Since an evaluation ignores the saved
bindings, this comes to evaluating the program on the bindings as they are, and putting them back
after a failure. A text that cannot be read is not evaluated at all. So no state of a session has
bindings saved.
-/

namespace Homoiconic

namespace Session

open Homoiconic.Evaluation (eval eval_ignoresSaved eval_onlyPrints)

variable {α : Type}

/-- The context after a text has been read: at most the log has grown, by what is remarkable. -/
def remarked (source : String) (context : Context) : Context :=
  { context with
    log := ((Reading.ofSource source).remarks.map Record.juxtaposed).reverse ++ context.log }

/-- The context in which the evaluation of a program begins. -/
def loaded (source : String) (program : Atom) (context : Context) : Context :=
  { context with log := .readProgram program :: (remarked source context).log }

/-- How a run ends, given how the evaluation of the program has ended: a value is presented in some
    form, and after an error the bindings are put back and nothing else. -/
def settle (present : Value → α) (env : Environment) :
    Outcome EvalError Value → Outcome RunError α
  | .returned value after => .returned (present value) after
  | .failed error after =>
      .failed (.evaluation error) { after with env, log := .rolledBack error :: after.log }
  | .unfinished => .unfinished

/-- An action that reads and evaluates a source does it all, or changes no bindings. -/
structure AllOrNothing (bound : Nat) (source : String) (present : Value → α)
    (action : Action RunError α) : Prop where
  /-- However it fails, all bindings, active and saved, are what they were. -/
  failed : ∀ context error after, action context = .failed error after → after.env = context.env
  /-- If the source is no program, then nothing happens but remarks in the log. -/
  unreadable : ∀ cause, read source = .error cause → ∀ context,
    action context = .failed (.unreadable cause) (remarked source context)
  /-- If it is one, then its evaluation on the bindings in force decides. -/
  readable : ∀ program, read source = .ok program → ∀ context, action context =
    settle present context.env (eval bound program (loaded source program context))
  /-- The saved bindings stay the same in any case. -/
  saved : ∀ context after, (action context).after? = some after →
    after.env.saved = context.env.saved
  /-- What has been printed stays printed. -/
  printed : ∀ context after, (action context).after? = some after →
    after.sink.Extends context.sink

theorem load_unreadable {source : String} {cause : ReadError}
    (unreadable : read source = .error cause) (context : Context) :
    load source context = .failed (.unreadable cause) (remarked source context) := by
  unfold read at unreadable
  simp only [load, remarked, unreadable]

theorem load_readable {source : String} {program : Atom}
    (readable : read source = .ok program) (context : Context) :
    load source context = .returned program (loaded source program context) := by
  unfold read at readable
  simp only [load, loaded, remarked, readable]

/-- What ignores the saved bindings is done for good or not at all as if without a snapshot. -/
theorem atomically_eq {action : Action EvalError Value} (ignores : action.IgnoresSaved)
    (context : Context) : atomically action context = settle id context.env (action context) := by
  have onCopy : action { context with env := context.env.snapshot } =
      (action context).onContext (·.withSaved (context.env.active :: context.env.saved)) :=
    ignores context (context.env.active :: context.env.saved)
  have saved : ∀ after, (action context).after? = some after →
      after.env.saved = context.env.saved := fun _ ends => ignores.saved_after ends
  unfold atomically
  rw [onCopy]
  cases outcome : action context with
  | returned value after =>
      have unchanged : after.env.saved = context.env.saved := saved after (by rw [outcome]; rfl)
      simp only [Outcome.onContext, settle, id, Context.withSaved, Environment.commit,
        List.tail_cons, ← unchanged]
  | failed error after => rfl
  | unfinished => rfl

theorem run_unreadable (bound : Nat) {source : String} {cause : ReadError}
    (unreadable : read source = .error cause) (context : Context) :
    run bound source context = .failed (.unreadable cause) (remarked source context) := by
  simp only [run, Bind.bind, Action.bind, load_unreadable unreadable]

theorem run_readable (bound : Nat) {source : String} {program : Atom}
    (readable : read source = .ok program) (context : Context) :
    run bound source context =
      settle id context.env (eval bound program (loaded source program context)) := by
  simp only [run, Bind.bind, Action.bind, load_readable readable]
  exact atomically_eq (eval_ignoresSaved bound program) (loaded source program context)

def shown (value : Value) : Option String :=
  if value.isNil then none else some value.text

theorem rep_unreadable (bound : Nat) {source : String} {cause : ReadError}
    (unreadable : read source = .error cause) (context : Context) :
    rep bound source context = .failed (.unreadable cause) (remarked source context) := by
  simp only [rep, Bind.bind, Action.bind, run_unreadable bound unreadable]

theorem rep_readable (bound : Nat) {source : String} {program : Atom}
    (readable : read source = .ok program) (context : Context) :
    rep bound source context =
      settle shown context.env (eval bound program (loaded source program context)) := by
  simp only [rep, Bind.bind, Action.bind, run_readable bound readable]
  cases eval bound program (loaded source program context) <;> rfl

theorem settle_failed {present : Value → α} {env : Environment}
    {outcome : Outcome EvalError Value} {error : RunError} {after : Context}
    (fails : settle present env outcome = .failed error after) : after.env = env := by
  cases outcome with
  | returned | unfinished => cases fails
  | failed cause last =>
      cases fails
      rfl

theorem settle_after {present : Value → α} {env : Environment}
    {outcome : Outcome EvalError Value} {after : Context}
    (ends : (settle present env outcome).after? = some after) :
    ∃ last, outcome.after? = some last ∧ after.sink = last.sink ∧
      (after.env = last.env ∨ after.env = env) := by
  cases outcome with
  | returned value last =>
      cases ends
      exact ⟨_, rfl, rfl, .inl rfl⟩
  | failed cause last =>
      cases ends
      exact ⟨last, rfl, rfl, .inr rfl⟩
  | unfinished => cases ends

/-- The two ways in which reading can end decide the whole of an action that reads a source. -/
theorem AllOrNothing.of_reading {bound : Nat} {source : String} {present : Value → α}
    {action : Action RunError α}
    (unreadable : ∀ cause, read source = .error cause → ∀ context,
      action context = .failed (.unreadable cause) (remarked source context))
    (readable : ∀ program, read source = .ok program → ∀ context, action context =
      settle present context.env (eval bound program (loaded source program context))) :
    AllOrNothing bound source present action where
  failed context error after fails := by
    cases reading : read source with
    | error cause =>
        rw [unreadable cause reading] at fails
        cases fails
        rfl
    | ok program =>
        rw [readable program reading] at fails
        exact settle_failed fails
  unreadable := unreadable
  readable := readable
  saved context after ends := by
    cases reading : read source with
    | error cause =>
        rw [unreadable cause reading] at ends
        cases ends
        rfl
    | ok program =>
        rw [readable program reading] at ends
        obtain ⟨last, evaluated, _, kept | putBack⟩ := settle_after ends
        · have unchanged := (eval_ignoresSaved bound program).saved_after evaluated
          rw [kept]
          exact unchanged
        · rw [putBack]
  printed context after ends := by
    cases reading : read source with
    | error cause =>
        rw [unreadable cause reading] at ends
        cases ends
        exact .refl _
    | ok program =>
        rw [readable program reading] at ends
        obtain ⟨last, evaluated, sink, _⟩ := settle_after ends
        have grown := eval_onlyPrints bound program _ last evaluated
        rw [sink]
        exact grown

theorem run_allOrNothing (bound : Nat) (source : String) :
    AllOrNothing bound source id (run bound source) :=
  .of_reading (fun _ => run_unreadable bound) (fun _ => run_readable bound)

theorem rep_allOrNothing (bound : Nat) (source : String) :
    AllOrNothing bound source shown (rep bound source) :=
  .of_reading (fun _ => rep_unreadable bound) (fun _ => rep_readable bound)

/-- The states of a session: its start, and whatever a run leaves that ends, well or badly. -/
inductive Reachable (sink : Sink) : Context → Prop where
  | start : Reachable sink (start sink)
  | run {bound : Nat} {source : String} {context after : Context} :
      Reachable sink context → (run bound source context).after? = some after →
      Reachable sink after
  | rep {bound : Nat} {source : String} {context after : Context} :
      Reachable sink context → (rep bound source context).after? = some after →
      Reachable sink after

end Session

end Homoiconic
