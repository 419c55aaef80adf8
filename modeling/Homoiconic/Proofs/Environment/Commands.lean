import Mathlib.Data.List.Induction
import Homoiconic.Environment

/-! # Commands to an environment

What can be done with an environment and asked of it, one command after the other. A restore or a
commit closes the latest snapshot that is not closed yet, so what comes between the two is balanced.
Balanced commands leave the saved bindings as they are. That is why a restore after them brings back
the whole environment from before the snapshot, whatever has been done since.
-/

namespace Homoiconic

namespace Environment

inductive Command where
  /-- Bind a name, and ask what it was bound to before. -/
  | set (name : String) (value : Value)
  | get (name : String)
  | fetch (name : String)
  | snapshot
  | restore
  | commit
  | size
  | isEmpty
  | depth
  deriving Repr, DecidableEq

inductive Answer where
  | done
  | found (value : Option Value)
  | fetched (result : Except UnknownName Value)
  | number (count : Nat)
  | truth (holds : Bool)

/-- What a command is answered, and the environment after it. -/
def perform (env : Environment) : Command → Answer × Environment
  | .set name value =>
      let (previous, after) := env.exchange name value
      (.found previous, after)
  | .get name => (.found (env.get? name), env)
  | .fetch name => (.fetched (env.fetch name), env)
  | .snapshot => (.done, env.snapshot)
  | .restore => (.done, env.restore)
  | .commit => (.done, env.commit)
  | .size => (.number env.size, env)
  | .isEmpty => (.truth env.isEmpty, env)
  | .depth => (.number env.depth, env)

/-- The environment after some commands. -/
def execute (env : Environment) (commands : List Command) : Environment :=
  commands.foldl (fun env command => (env.perform command).2) env

namespace Command

def opens : Command → Bool
  | .snapshot => true
  | _ => false

/-- Whether the command closes a snapshot, if there is one to be closed. -/
def closes : Command → Bool
  | .restore | .commit => true
  | _ => false

@[simp]
theorem opens_snapshot : snapshot.opens = true :=
  rfl

@[simp]
theorem closes_snapshot : snapshot.closes = false :=
  rfl

theorem eq_snapshot_of_opens {command : Command} (opens : command.opens) :
    command = .snapshot := by
  cases command <;> first | rfl | cases opens

theorem opens_eq_false_of_closes {command : Command} (closes : command.closes) :
    command.opens = false := by
  cases command <;> first | rfl | cases closes

end Command

/-- How many snapshots are taken. -/
def opened (commands : List Command) : Nat :=
  commands.countP Command.opens

/-- How many snapshots are closed, if there always is one. -/
def closed (commands : List Command) : Nat :=
  commands.countP Command.closes

/-- No snapshot from before is closed. -/
def Sheltered (commands : List Command) : Prop :=
  ∀ first second, commands = first ++ second → closed first ≤ opened first

/-- Just the snapshots that are taken are closed again. -/
structure Balanced (commands : List Command) : Prop where
  sheltered : Sheltered commands
  settled : opened commands = closed commands

section Counting

variable {commands first second : List Command} {command : Command}

@[simp]
theorem opened_append (first second : List Command) :
    opened (first ++ second) = opened first + opened second :=
  List.countP_append

@[simp]
theorem closed_append (first second : List Command) :
    closed (first ++ second) = closed first + closed second :=
  List.countP_append

@[simp]
theorem opened_cons (command : Command) (commands : List Command) :
    opened (command :: commands) = opened commands + if command.opens then 1 else 0 :=
  List.countP_cons

@[simp]
theorem closed_cons (command : Command) (commands : List Command) :
    closed (command :: commands) = closed commands + if command.closes then 1 else 0 :=
  List.countP_cons

@[simp]
theorem opened_nil : opened [] = 0 :=
  rfl

@[simp]
theorem closed_nil : closed [] = 0 :=
  rfl

theorem Sheltered.nil : Sheltered [] := by
  intro first second split
  obtain ⟨rfl, rfl⟩ := List.append_eq_nil_iff.mp split.symm
  exact Nat.le_refl 0

theorem Sheltered.of_append (sheltered : Sheltered (first ++ second)) : Sheltered first := by
  rintro start others rfl
  exact sheltered start (others ++ second) (by simp)

theorem Sheltered.enough (sheltered : Sheltered commands) : closed commands ≤ opened commands :=
  sheltered commands [] (List.append_nil commands).symm

/-- A command may follow unless it closes more than is open. -/
theorem sheltered_concat : Sheltered (commands ++ [command]) ↔
    Sheltered commands ∧ ¬ (command.closes ∧ Balanced commands) := by
  constructor
  · intro sheltered
    refine ⟨sheltered.of_append, ?_⟩
    rintro ⟨closes, balanced⟩
    have enough := sheltered.enough
    have settled := balanced.settled
    have opens := Command.opens_eq_false_of_closes closes
    simp only [opened_append, opened_cons, opened_nil, opens, closed_append, closed_cons,
      closed_nil, closes, Bool.false_eq_true, if_true, if_false] at enough
    omega
  · rintro ⟨sheltered, room⟩ first second split
    rcases List.eq_nil_or_concat second with rfl | ⟨others, last, rfl⟩
    · rw [List.append_nil] at split
      have enough := sheltered.enough
      rw [← split, opened_append, closed_append, opened_cons, closed_cons, opened_nil, closed_nil]
      cases closes : command.closes with
      | false =>
          rw [if_neg Bool.false_ne_true]
          omega
      | true =>
          have unsettled : opened commands ≠ closed commands := fun settled =>
            room ⟨closes, sheltered, settled⟩
          rw [if_pos rfl]
          omega
    · rw [List.concat_eq_append, ← List.append_assoc] at split
      exact sheltered first others (List.append_inj' split rfl).1

theorem Balanced.nil : Balanced [] :=
  ⟨.nil, rfl⟩

theorem Balanced.concat (balanced : Balanced commands) (opens : command.opens = false)
    (closes : command.closes = false) : Balanced (commands ++ [command]) := by
  refine ⟨sheltered_concat.mpr ⟨balanced.sheltered, ?_⟩, ?_⟩
  · simp [closes]
  · simp [opens, closes, balanced.settled]

theorem Sheltered.append (one : Sheltered first) (more : Sheltered second) :
    Sheltered (first ++ second) := by
  induction second using List.reverseRecOn with
  | nil => rwa [List.append_nil]
  | append_singleton others last ih =>
      obtain ⟨sheltered, room⟩ := sheltered_concat.mp more
      rw [← List.append_assoc, sheltered_concat]
      refine ⟨ih sheltered, ?_⟩
      rintro ⟨closes, balanced⟩
      have settled := balanced.settled
      have before := one.enough
      have after := sheltered.enough
      rw [opened_append, closed_append] at settled
      exact room ⟨closes, sheltered, by omega⟩

/-- A snapshot that is closed after balanced commands makes them balanced commands again. -/
theorem Balanced.enclose (outer : Balanced first) (inner : Balanced second)
    (closes : command.closes) : Balanced (first ++ .snapshot :: second ++ [command]) := by
  have before := outer.settled
  have inside := inner.settled
  have started : Sheltered (first ++ [.snapshot]) :=
    sheltered_concat.mpr ⟨outer.sheltered, by simp⟩
  have begun := started.append inner.sheltered
  rw [List.append_assoc, List.singleton_append] at begun
  refine ⟨sheltered_concat.mpr ⟨begun, ?_⟩, ?_⟩
  · rintro ⟨-, balanced⟩
    have settled := balanced.settled
    simp only [opened_append, opened_cons, Command.opens_snapshot, closed_append, closed_cons,
      Command.closes_snapshot, Bool.false_eq_true, if_true, if_false] at settled
    omega
  · simp [Command.opens_eq_false_of_closes closes, closes, before, inside]

/-- The one command that closes more than is open closes a snapshot from before. -/
theorem sheltered_iff : Sheltered commands ↔ ∀ inner close later,
    commands = inner ++ close :: later → close.closes → ¬ Balanced inner := by
  constructor
  · rintro sheltered inner close later rfl closes balanced
    rw [List.append_cons] at sheltered
    exact (sheltered_concat.mp sheltered.of_append).2 ⟨closes, balanced⟩
  · induction commands using List.reverseRecOn with
    | nil => exact fun _ => .nil
    | append_singleton others last ih =>
        intro never
        refine sheltered_concat.mpr ⟨ih fun inner close later split => ?_, ?_⟩
        · exact never inner close (later ++ [last]) (by simp [split])
        · rintro ⟨closes, balanced⟩
          exact never others last [] rfl closes balanced

end Counting

section Effects

variable {env : Environment} {commands inner : List Command} {command : Command}

theorem execute_append (env : Environment) (first second : List Command) :
    env.execute (first ++ second) = (env.execute first).execute second :=
  List.foldl_append

@[simp]
theorem execute_cons (env : Environment) (command : Command) (commands : List Command) :
    env.execute (command :: commands) = (env.perform command).2.execute commands :=
  rfl

@[simp]
theorem execute_nil (env : Environment) : env.execute [] = env :=
  rfl

theorem saved_perform (env : Environment) (opens : command.opens = false)
    (closes : command.closes = false) : (env.perform command).2.saved = env.saved := by
  cases command with
  | set | get | fetch | size | isEmpty | depth => rfl
  | snapshot => cases opens
  | restore | commit => cases closes

theorem saved_perform_of_closes (env : Environment) (closes : command.closes) :
    (env.perform command).2.saved = env.saved.tail := by
  cases command with
  | restore =>
      simp only [perform, restore]
      split <;> simp_all
  | commit => rfl
  | set | get | fetch | snapshot | size | isEmpty | depth => cases closes

/-- What does not close a snapshot from before leaves the saved bindings below its own. -/
theorem Sheltered.saved (sheltered : Sheltered commands) (env : Environment) :
    ∃ added, (env.execute commands).saved = added ++ env.saved ∧
      added.length + closed commands = opened commands := by
  induction commands using List.reverseRecOn with
  | nil => exact ⟨[], rfl, rfl⟩
  | append_singleton others last ih =>
      obtain ⟨others_sheltered, room⟩ := sheltered_concat.mp sheltered
      obtain ⟨added, saved, count⟩ := ih others_sheltered
      rw [execute_append, execute_cons, execute_nil, opened_append, closed_append, opened_cons,
        closed_cons, opened_nil, closed_nil]
      cases opens : last.opens with
      | true =>
          obtain rfl := Command.eq_snapshot_of_opens opens
          refine ⟨(env.execute others).active :: added, by simp [perform, snapshot, saved], ?_⟩
          simp only [List.length_cons, Command.closes_snapshot, Bool.false_eq_true, if_true,
            if_false]
          omega
      | false =>
          cases closes : last.closes with
          | false =>
              rw [saved_perform _ opens closes]
              exact ⟨added, saved, count⟩
          | true =>
              rw [saved_perform_of_closes _ closes, saved]
              cases added with
              | nil =>
                  rw [List.length_nil, Nat.zero_add] at count
                  exact absurd ⟨closes, others_sheltered, count.symm⟩ room
              | cons bindings added =>
                  refine ⟨added, rfl, ?_⟩
                  simp only [List.length_cons, Bool.false_eq_true, if_true, if_false] at count ⊢
                  omega

theorem Balanced.saved (balanced : Balanced commands) (env : Environment) :
    (env.execute commands).saved = env.saved := by
  obtain ⟨added, saved, count⟩ := balanced.sheltered.saved env
  have settled := balanced.settled
  obtain rfl : added = [] := List.length_eq_zero_iff.mp (by omega)
  exact saved

/-- Whatever is done between a snapshot and its restore is undone. -/
theorem execute_restored (env : Environment) (inner : Balanced commands) :
    env.execute (.snapshot :: commands ++ [.restore]) = env := by
  have saved := inner.saved env.snapshot
  rw [execute_append, execute_cons]
  change (env.snapshot.execute commands).restore = env
  rw [restore, saved]
  rfl

end Effects

end Environment

end Homoiconic
