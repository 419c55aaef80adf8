import Mathlib.Control.Monad.Basic
import Mathlib.Logic.Relation
import Homoiconic.Proofs.Reading.Readable
import Homoiconic.Proofs.Session.Program

/-! # Sessions beyond repair

Every program is a call of `do`, and `do` can be bound to what cannot be called. From then on every
run fails before it has done anything, so nothing can bind `do` to something else. Only the log goes
on. A single statement is enough to get there.
-/

namespace Homoiconic

/-- No program can be run: the value of `do` cannot be called. -/
structure Context.IsBroken (context : Context) (value : Value) : Prop where
  bound : context.env.get? "do" = some value
  notCallable : value.isCallable = false

namespace Evaluation

variable {context : Context} {value : Value}

theorem call_of_not_isCallable (ev : Evaluator) (bound : Nat) (args : List Atom)
    (notCallable : value.isCallable = false) :
    call ev bound value args = Action.fail (.notCallable value) := by
  cases value with
  | builtin | closure => cases notCallable
  | nil | integer | boolean | atom => rfl

theorem eval_program_of_broken (broken : context.IsBroken value) (bound : Nat)
    (statements : List Atom) :
    ∃ log, eval (bound + 2) (.list (.symbol "do" :: statements)) context =
      .failed (.notCallable value) { context with log } := by
  rw [eval_call bound statements broken.bound, call_of_not_isCallable _ _ _ broken.notCallable]
  exact ⟨_, rfl⟩

/-- Each value that cannot be called, if it can be written at all, is what some atom evaluates to
    at the start of a session. -/
theorem exists_expression (sink : Sink) (notCallable : value.isCallable = false)
    (readable : ∀ code, value = .atom code → code.isReadable) :
    ∃ code : Atom, code.isReadable ∧ ∀ older,
      ∃ log, eval 2 code { Session.start sink with log := older } =
        .returned value { Session.start sink with log } := by
  cases value with
  | builtin | closure => cases notCallable
  | nil => exact ⟨.list [], rfl, fun older => ⟨_, rfl⟩⟩
  | atom code => exact ⟨.quoted code, readable code rfl, fun older => ⟨_, rfl⟩⟩
  | boolean truth =>
      refine ⟨.symbol (if truth then ":true" else ":false"), ?_, ?_⟩
      · cases truth <;> decide
      · intro older
        cases truth <;> exact ⟨_, rfl⟩
  | integer n =>
      by_cases nonnegative : 0 ≤ n
      · exact ⟨.number n, by simpa [Atom.isReadable] using nonnegative, fun older => ⟨_, rfl⟩⟩
      · -- There are no negative numerals.
        obtain ⟨m, positive, rfl⟩ : ∃ m : Int64, 0 ≤ m ∧ n = 0 - m - 1 :=
          ⟨-(n + 1), by grind, by grind⟩
        refine ⟨.list [.symbol "-", .number 0, .number m, .number 1], ?_, ?_⟩
        · have numbers : decide (0 ≤ m) = true := decide_eq_true positive
          simp only [Atom.isReadable, Atom.areReadable, numbers]
          decide
        · intro older
          exact ⟨_, rfl⟩

end Evaluation

namespace Session

open Homoiconic.Evaluation (eval eval_program_of_broken exists_expression)

/-- Some call of `run` or `rep`, of any source, ends so that it leaves the other context. -/
def Leads (context after : Context) : Prop :=
  ∃ bound source, (run bound source context).after? = some after ∨
    (rep bound source context).after? = some after

/-- What is wrong with a source where `do` has a value that cannot be called. -/
def refusal (value : Value) (source : String) : RunError :=
  match read source with
  | .ok _ => .evaluation (.notCallable value)
  | .error cause => .unreadable cause

variable {context after : Context} {value : Value}

theorem run_of_broken (broken : context.IsBroken value) (bound : Nat) (source : String) :
    ∃ log, run (bound + 2) source context =
      .failed (refusal value source) { context with log } := by
  unfold refusal
  cases reading : read source with
  | error cause =>
      rw [run_unreadable _ reading]
      exact ⟨_, rfl⟩
  | ok program =>
      cases program_of_read reading with
      | @mk statements =>
          let program : Atom := .list (.symbol "do" :: statements)
          have still : (loaded source program context).IsBroken value :=
            ⟨broken.bound, broken.notCallable⟩
          obtain ⟨log, fails⟩ := eval_program_of_broken still bound statements
          rw [run_readable _ reading, fails]
          exact ⟨_, rfl⟩

theorem rep_of_broken (broken : context.IsBroken value) (bound : Nat) (source : String) :
    ∃ log, rep (bound + 2) source context =
      .failed (refusal value source) { context with log } := by
  obtain ⟨log, fails⟩ := run_of_broken broken bound source
  simp only [rep, Bind.bind, Action.bind, fails]
  exact ⟨log, rfl⟩

/-- A call can only add to the log. -/
theorem Leads.of_broken (leads : Leads context after) (broken : context.IsBroken value) :
    ∃ log, after = { context with log } := by
  obtain ⟨bound, source, ends⟩ := leads
  rw [rep_after?, or_self] at ends
  obtain ⟨log, fails⟩ := run_of_broken broken bound source
  have finished : run bound source context ≠ .unfinished := by
    intro unfinished
    rw [unfinished] at ends
    cases ends
  rw [← run_of_le (Nat.le_add_right bound 2) finished, fails] at ends
  cases ends
  exact ⟨log, rfl⟩

theorem later_of_broken {later : Context} (broken : context.IsBroken value)
    (leads : Relation.ReflTransGen Leads context later) : ∃ log, later = { context with log } := by
  induction leads with
  | refl => exact ⟨context.log, rfl⟩
  | tail _ last ih =>
      obtain ⟨log, rfl⟩ := ih
      exact last.of_broken ⟨broken.bound, broken.notCallable⟩

theorem broken_of_set (env : after.env = context.env.set "do" value)
    (notCallable : value.isCallable = false) : after.IsBroken value where
  bound := by rw [env, Environment.get?_set, if_pos rfl]
  notCallable

/-- At the start of a session, one statement is enough to give `do` any value that can be written
    and cannot be called. -/
theorem exists_run_breaking (sink : Sink) (notCallable : value.isCallable = false)
    (readable : ∀ code, value = .atom code → code.isReadable) :
    ∃ bound source after, run bound source (start sink) = .returned .nil after ∧
      after.IsBroken value := by
  obtain ⟨code, written, evaluates⟩ := exists_expression sink notCallable readable
  let statement : Atom := .list [.symbol "set", .symbol "do", code]
  have reads : read statement.source = .ok (.list [.symbol "do", .quoted statement]) := by
    have statements : ∀ code ∈ [statement], code.isReadable := by
      simpa [statement, Atom.isReadable, Atom.areReadable, written] using by decide
    simpa using read_sources statements
  obtain ⟨after, ran, env⟩ := run_assignment 1 reads rfl rfl evaluates
  exact ⟨4, statement.source, after, ran, broken_of_set env notCallable⟩

theorem refusal_empty (value : Value) : refusal value "" = .evaluation (.notCallable value) := by
  have reads : read "" = .ok (.list [.symbol "do"]) := by decide +kernel
  simp only [refusal, reads]

/-- A session can be broken: a run can bind `do` to whatever can be written and cannot be called.
    Then it stays as it is but for its log, whatever is run in it, even nothing at all: all calls
    fail, and always with the same error, unless the source cannot be read anyway. -/
theorem broken_session_is_beyond_repair :
    (∀ (sink : Sink) (value : Value), value.isCallable = false →
      (∀ code, value = .atom code → code.isReadable) →
      ∃ bound source context, run bound source (start sink) = .returned .nil context ∧
        context.IsBroken value) ∧
    (∀ value, refusal value "" = .evaluation (.notCallable value)) ∧
    ∀ (context : Context) (value : Value), context.IsBroken value →
      ∀ later, Relation.ReflTransGen Leads context later →
        (∃ log, later = { context with log }) ∧
        ∀ bound source,
          (∃ log, run (bound + 2) source later =
            .failed (refusal value source) { context with log }) ∧
          ∃ log, rep (bound + 2) source later =
            .failed (refusal value source) { context with log } := by
  refine ⟨fun sink _ => exists_run_breaking sink, refusal_empty, ?_⟩
  intro context value broken later leads
  obtain ⟨log, rfl⟩ := later_of_broken broken leads
  have still : Context.IsBroken { context with log } value := ⟨broken.bound, broken.notCallable⟩
  refine ⟨⟨log, rfl⟩, ?_⟩
  intro bound source
  exact ⟨run_of_broken still bound source, rep_of_broken still bound source⟩

/-- After `(set do 1)` it is too late to bind `do` to something else; and some program would have
    given it a negative number. -/
theorem broken_session_is_beyond_repair_after_one :
    (∃ context later, run 4 "(set do 1)" (start {}) = .returned .nil context ∧
      context.IsBroken (.integer 1) ∧ Leads context later ∧
      ∃ log, run 2 "(set do +)" later =
        .failed (.evaluation (.notCallable (.integer 1))) { context with log }) ∧
    ∃ bound source context, run bound source (start {}) = .returned .nil context ∧
      context.IsBroken (.integer (-1)) := by
  have first : read "(set do 1)" = .ok (.list [.symbol "do",
      .quoted (.list [.symbol "set", .symbol "do", .number 1])]) := by decide +kernel
  have second : read "(set do +)" = .ok (.list [.symbol "do",
      .quoted (.list [.symbol "set", .symbol "do", .symbol "+"])]) := by decide +kernel
  obtain ⟨context, ran, env⟩ := @run_assignment _ (start {}) (.integer 1) 1 _ _ first rfl rfl
    fun older => ⟨_, rfl⟩
  have broken : context.IsBroken (.integer 1) := broken_of_set env rfl
  obtain ⟨log, failed⟩ := (broken_session_is_beyond_repair.2.2 _ _ broken _ .refl).2 0 "" |>.1
  have leads : Leads context { context with log } := ⟨2, "", .inl (by rw [failed]; rfl)⟩
  have again := broken_session_is_beyond_repair.2.2 _ _ broken _ (.single leads)
  have fails := (again.2 0 "(set do +)").1
  simp only [refusal, second] at fails
  refine ⟨⟨context, _, ran, broken, leads, fails⟩, ?_⟩
  exact broken_session_is_beyond_repair.1 {} (.integer (-1)) rfl (by rintro _ ⟨⟩)

end Session

end Homoiconic
