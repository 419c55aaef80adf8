import Mathlib.Data.Set.Card
import Homoiconic.Proofs.Environment.Commands

/-! # What an environment remembers

The answers of an environment can be read off the commands that it has been given. A name has the
value of its latest assignment that has not been undone, and an assignment is undone by a restore of
a snapshot that was taken before it, whatever else has been opened and closed in between.
-/

namespace Homoiconic

namespace Environment

/-- What was done last in `done` is undone `later`, by a restore of a snapshot from before it. -/
def Undone (done later : List Command) : Prop :=
  ∃ before inner more rest, done = before ++ .snapshot :: inner ∧
    later = more ++ .restore :: rest ∧ Balanced (inner ++ more)

/-- The value is what the name was set to last, as far as that has not been undone. -/
def Current (history : List Command) (name : String) (value : Value) : Prop :=
  ∃ before later, history = before ++ .set name value :: later ∧
    ¬ Undone (before ++ [.set name value]) later ∧
    ∀ between other rest, later = between ++ .set name other :: rest →
      Undone (before ++ .set name value :: between ++ [.set name other]) rest

/-- The snapshot that was taken after the commands `before` has not been closed. -/
def Pending (history before : List Command) : Prop :=
  ∃ rest, history = before ++ .snapshot :: rest ∧
    ∀ inner close later, rest = inner ++ close :: later → close.closes → ¬ Balanced inner

/-- The names that have a value. -/
def named (history : List Command) : Set String :=
  {name | ∃ value, Current history name value}

/-- What the next command is answered, after a history that has begun without bindings. -/
def Expects (history : List Command) : Command → Answer → Prop
  | .set name _, .found found | .get name, .found found =>
      ∀ value, found = some value ↔ Current history name value
  | .fetch name, .fetched (.ok value) => Current history name value
  | .fetch name, .fetched (.error error) =>
      error.name = name ∧ ∀ value, ¬ Current history name value
  | .size, .number count => (named history).encard = count
  | .isEmpty, .truth holds => holds = true ↔ (named history).encard = 0
  | .depth, .number count => {before | Pending history before}.encard = count
  | .snapshot, .done | .restore, .done | .commit, .done => True
  | _, _ => False

section Histories

variable {history done later inner before tail : List Command} {command : Command}
  {name : String} {value : Value}

/-- Of two rows, one after the other, a command stands in the first or in the second. -/
theorem append_eq_append_cons {first second : List Command}
    (split : first ++ second = before ++ command :: later) :
    (∃ middle, first = before ++ command :: middle ∧ later = middle ++ second) ∨
      ∃ between, before = first ++ between ∧ second = between ++ command :: later := by
  obtain ⟨between, same, tails⟩ | ⟨middle, same, tails⟩ := List.append_eq_append_iff.mp split
  · exact .inr ⟨between, same, tails⟩
  · cases middle with
    | nil =>
        rw [List.append_nil] at same
        exact .inr ⟨[], by simp [same], by simpa using tails.symm⟩
    | cons next middle =>
        obtain ⟨rfl, rest⟩ := List.cons.inj tails
        exact .inl ⟨middle, same, rest⟩

theorem concat_eq_append_cons {last : Command}
    (split : history ++ [last] = before ++ command :: later) :
    (∃ middle, history = before ++ command :: middle ∧ later = middle ++ [last]) ∨
      before = history ∧ command = last ∧ later = [] := by
  rcases append_eq_append_cons split with inside | ⟨between, rfl, tails⟩
  · exact .inl inside
  · cases between with
    | nil =>
        obtain ⟨rfl, rfl⟩ := List.cons.inj tails
        exact .inr ⟨by simp, rfl, rfl⟩
    | cons next between => simp at tails

theorem undone_concat : Undone done (later ++ [command]) ↔
    Undone done later ∨ command = .restore ∧
      ∃ before inner, done = before ++ .snapshot :: inner ∧ Balanced (inner ++ later) := by
  constructor
  · rintro ⟨before, inner, more, rest, begun, split, balanced⟩
    obtain ⟨others, rfl, rfl⟩ | ⟨rfl, rfl, rfl⟩ := concat_eq_append_cons split
    · exact .inl ⟨before, inner, more, others, begun, rfl, balanced⟩
    · exact .inr ⟨rfl, before, inner, begun, balanced⟩
  · rintro (⟨before, inner, more, rest, begun, rfl, balanced⟩ |
      ⟨rfl, before, inner, begun, balanced⟩)
    · exact ⟨before, inner, more, rest ++ [command], begun, by simp, balanced⟩
    · exact ⟨before, inner, later, [], begun, rfl, balanced⟩

/-- Further commands do not change the current values if they undo nothing of what was done before,
    and if whatever they set is undone again. -/
theorem current_append
    (same : ∀ done later, done ++ later = history →
      (Undone done (later ++ tail) ↔ Undone done later))
    (gone : ∀ between other rest, tail = between ++ .set name other :: rest →
      Undone (history ++ between ++ [.set name other]) rest) :
    Current (history ++ tail) name value ↔ Current history name value := by
  constructor
  · rintro ⟨before, later, split, stands, latest⟩
    obtain ⟨middle, rfl, rfl⟩ | ⟨between, rfl, tails⟩ := append_eq_append_cons split
    · refine ⟨before, middle, rfl, ?_, ?_⟩
      · rwa [same _ _ (by simp)] at stands
      · rintro between other rest rfl
        have undone := latest between other (rest ++ tail) (by simp)
        rwa [same _ _ (by simp)] at undone
    · exact absurd (gone between value later tails) stands
  · rintro ⟨before, later, rfl, stands, latest⟩
    refine ⟨before, later ++ tail, by simp, ?_, ?_⟩
    · rwa [same _ _ (by simp)]
    · intro between other rest split
      obtain ⟨middle, rfl, rfl⟩ | ⟨inside, rfl, tails⟩ := append_eq_append_cons split
      · rw [same _ _ (by simp)]
        exact latest between other middle rfl
      · simpa using gone inside other rest tails

theorem current_concat
    (same : ∀ done later, done ++ later = history →
      (Undone done (later ++ [command]) ↔ Undone done later))
    (other : ∀ value, command ≠ .set name value) :
    Current (history ++ [command]) name value ↔ Current history name value := by
  refine current_append same ?_
  intro between value rest split
  cases between with
  | nil => exact absurd (List.cons.inj split).1 (other value)
  | cons first between => simp at split

theorem not_undone_nil (done : List Command) : ¬ Undone done [] := by
  rintro ⟨_, _, more, rest, _, split, _⟩
  simp at split

theorem current_set {other : Value} :
    Current (history ++ [.set name value]) name other ↔ other = value := by
  constructor
  · rintro ⟨before, later, split, stands, latest⟩
    obtain ⟨middle, rfl, rfl⟩ | ⟨-, same, -⟩ := concat_eq_append_cons split
    · exact absurd (latest middle value [] rfl) (not_undone_nil _)
    · exact (Command.set.inj same).2
  · rintro rfl
    refine ⟨history, [], rfl, not_undone_nil _, ?_⟩
    intro between other rest split
    simp at split

/-- The commands from a snapshot to its restore undo nothing of what was done before. -/
theorem undone_append_restored (balanced : Balanced inner) :
    Undone done (later ++ (.snapshot :: inner ++ [.restore])) ↔ Undone done later := by
  constructor
  · rintro ⟨before, begun, more, rest, rfl, split, matched⟩
    obtain ⟨middle, rfl, rfl⟩ | ⟨between, rfl, tails⟩ := append_eq_append_cons split
    · exact ⟨before, begun, more, middle, rfl, rfl, matched⟩
    -- The restore cannot be one of these: the snapshot here would have to be closed first.
    · cases between with
      | nil => cases tails
      | cons first between =>
          obtain ⟨rfl, ends⟩ := List.cons.inj tails
          obtain ⟨others, rfl⟩ : ∃ others, inner = between ++ others := by
            obtain ⟨others, same, -⟩ | ⟨same, -⟩ := concat_eq_append_cons ends
            · exact ⟨_, same⟩
            · exact ⟨[], by simp [same]⟩
          have enough := matched.sheltered (begun ++ later) (.snapshot :: between) (by simp)
          have closes := balanced.sheltered between others rfl
          have settled := matched.settled
          simp only [opened_append, closed_append, opened_cons, closed_cons,
            Command.opens_snapshot, Command.closes_snapshot, if_true, Bool.false_eq_true,
            if_false] at enough settled
          omega
  · rintro ⟨before, begun, more, rest, rfl, rfl, matched⟩
    exact ⟨before, begun, more, rest ++ (.snapshot :: inner ++ [.restore]), rfl, by simp, matched⟩

/-- After a restore, what is current is what was current before the snapshot. -/
theorem current_restored (balanced : Balanced inner) :
    Current (before ++ (.snapshot :: inner ++ [.restore])) name value ↔
      Current before name value := by
  refine current_append (fun done later _ => undone_append_restored balanced) ?_
  intro between other rest split
  cases between with
  | nil => cases split
  | cons first between =>
      obtain ⟨rfl, ends⟩ := List.cons.inj split
      obtain ⟨others, rfl, rfl⟩ | ⟨-, same, -⟩ := concat_eq_append_cons ends
      · rw [List.append_cons] at balanced
        exact ⟨before, between ++ [.set name other], others, [], by simp, rfl, balanced⟩
      · cases same

/-- Induction on histories: the last command may be looked at together with any history that it or
    the commands before it go on from. -/
@[elab_as_elim]
theorem prefix_induction {P : List Command → Prop} (history : List Command) (nil : P [])
    (concat : ∀ others last, (∀ earlier rest, others = earlier ++ rest → P earlier) →
      P (others ++ [last])) : P history := by
  suffices prefixes : ∀ earlier rest, history = earlier ++ rest → P earlier from
    prefixes history [] (List.append_nil history).symm
  induction history using List.reverseRecOn with
  | nil =>
      intro earlier rest split
      obtain ⟨rfl, -⟩ := List.append_eq_nil_iff.mp split.symm
      exact nil
  | append_singleton others last ih =>
      intro earlier rest split
      rcases List.eq_nil_or_concat rest with rfl | ⟨rest, final, rfl⟩
      · rw [List.append_nil] at split
        exact split ▸ concat others last ih
      · rw [List.concat_eq_append, ← List.append_assoc] at split
        exact ih earlier rest (List.append_inj' split rfl).1

/-- If bindings are saved, then the history leads from some snapshot through balanced commands. -/
theorem exists_snapshot (history : List Command) (saved : (empty.execute history).saved ≠ []) :
    ∃ before inner, history = before ++ .snapshot :: inner ∧ Balanced inner := by
  induction history using prefix_induction with
  | nil => exact absurd rfl saved
  | concat others last ih =>
      rw [execute_append, execute_cons, execute_nil] at saved
      have latest := ih others [] (List.append_nil others).symm
      cases opens : last.opens with
      | true =>
          obtain rfl := Command.eq_snapshot_of_opens opens
          exact ⟨others, [], rfl, .nil⟩
      | false =>
          cases closes : last.closes with
          | false =>
              rw [saved_perform _ opens closes] at saved
              obtain ⟨before, inner, rfl, balanced⟩ := latest saved
              exact ⟨before, inner ++ [last], by simp, balanced.concat opens closes⟩
          | true =>
              -- The snapshot below the one that is closed stays open.
              rw [saved_perform_of_closes _ closes] at saved
              have more : (empty.execute others).saved ≠ [] := fun none =>
                saved (by rw [none, List.tail_nil])
              obtain ⟨before, inner, rfl, balanced⟩ := latest more
              rw [execute_append, execute_cons, balanced.saved] at saved
              obtain ⟨outer, middle, rfl, balanced'⟩ := ih before (.snapshot :: inner) rfl saved
              exact ⟨outer, middle ++ .snapshot :: inner ++ [last], by simp,
                balanced'.enclose balanced closes⟩

/-- If no bindings are saved, then a restore undoes nothing. -/
theorem not_restored (saved : (empty.execute history).saved = []) :
    ¬ ∃ before inner, history = before ++ .snapshot :: inner ∧ Balanced inner := by
  rintro ⟨before, inner, rfl, balanced⟩
  rw [execute_append, execute_cons, balanced.saved] at saved
  cases saved

/-- Looking at an environment, saving bindings and keeping them change no bindings. -/
theorem active_perform (env : Environment) (set : ∀ name value, command ≠ .set name value)
    (restore : command ≠ .restore) : (env.perform command).2.active = env.active := by
  cases command with
  | set name value => exact absurd rfl (set name value)
  | restore => exact absurd rfl restore
  | get | fetch | snapshot | commit | size | isEmpty | depth => rfl

/-- A name has the value that is current for it. -/
theorem get?_execute (history : List Command) (name : String) (value : Value) :
    (empty.execute history).get? name = some value ↔ Current history name value := by
  induction history using prefix_induction with
  | nil =>
      have unbound : empty.get? name = none := Std.ExtTreeMap.getElem?_empty
      simp [unbound, Current]
  | concat others last ih =>
      have latest := ih others [] (List.append_nil others).symm
      rw [execute_append, execute_cons, execute_nil]
      cases last with
      | set other new =>
          change ((empty.execute others).set other new).get? name = some value ↔ _
          rw [get?_set]
          by_cases same : other = name
          · rw [if_pos same, same, current_set, Option.some.injEq, eq_comm]
          · rw [if_neg same, latest, current_concat (by simp [undone_concat])]
            rintro _ ⟨⟩
            exact same rfl
      | restore =>
          change (empty.execute others).restore.get? name = some value ↔ _
          by_cases saved : (empty.execute others).saved = []
          · rw [restore, saved, current_concat _ (by simp), latest]
            rintro done later rfl
            rw [undone_concat, or_iff_left]
            rintro ⟨-, before, inner, rfl, balanced⟩
            exact not_restored saved ⟨before, inner ++ later, by simp, balanced⟩
          · obtain ⟨before, inner, rfl, balanced⟩ := exists_snapshot others saved
            have back := execute_restored (empty.execute before) balanced
            have earlier := ih before (.snapshot :: inner) rfl
            rw [← execute_append, ← List.append_assoc, execute_append] at back
            change (empty.execute (before ++ .snapshot :: inner)).restore = _ at back
            rw [back, earlier, List.append_assoc, current_restored balanced]
      | get | fetch | snapshot | commit | size | isEmpty | depth =>
          rw [get?, active_perform _ (by simp) (by simp),
            current_concat (by simp [undone_concat]) (by simp)]
          exact latest

theorem pending_iff : Pending history before ↔
    ∃ rest, history = before ++ .snapshot :: rest ∧ Sheltered rest := by
  simp only [Pending, sheltered_iff]

/-- The latest snapshot that has not been closed is the only one with balanced commands after it. -/
theorem snapshot_unique {before' inner' : List Command}
    (split : history = before ++ .snapshot :: inner) (balanced : Balanced inner)
    (split' : history = before' ++ .snapshot :: inner') (balanced' : Balanced inner') :
    before = before' := by
  -- One snapshot among the commands after the other would be open at their end.
  have apart {middle inner : List Command} (balanced : Balanced inner)
      (around : Balanced (middle ++ .snapshot :: inner)) : False := by
    have enough := around.sheltered middle (.snapshot :: inner) rfl
    have settled := around.settled
    have inside := balanced.settled
    simp only [opened_append, opened_cons, Command.opens_snapshot, closed_append, closed_cons,
      Command.closes_snapshot, Bool.false_eq_true, if_true, if_false] at settled
    omega
  obtain ⟨middle, rfl, rfl⟩ | ⟨between, rfl, tails⟩ := append_eq_append_cons (split ▸ split')
  · exact (apart balanced balanced').elim
  · cases between with
    | nil => rw [List.append_nil]
    | cons first between =>
        obtain ⟨rfl, rfl⟩ := List.cons.inj tails
        exact (apart balanced' balanced).elim

theorem pending_concat : Pending (history ++ [command]) before ↔
    command = .snapshot ∧ before = history ∨ Pending history before ∧
      ¬ (command.closes ∧ ∃ inner, history = before ++ .snapshot :: inner ∧ Balanced inner) := by
  simp only [pending_iff]
  constructor
  · rintro ⟨rest, split, sheltered⟩
    obtain ⟨middle, rfl, rfl⟩ | ⟨rfl, rfl, rfl⟩ := concat_eq_append_cons split
    · obtain ⟨sheltered, room⟩ := sheltered_concat.mp sheltered
      refine .inr ⟨⟨middle, rfl, sheltered⟩, ?_⟩
      rintro ⟨closes, inner, same, balanced⟩
      obtain rfl : middle = inner := by simpa using same
      exact room ⟨closes, balanced⟩
    · exact .inl ⟨rfl, rfl⟩
  · rintro (⟨rfl, rfl⟩ | ⟨⟨rest, rfl, sheltered⟩, room⟩)
    · exact ⟨[], rfl, .nil⟩
    · refine ⟨rest ++ [command], by simp, sheltered_concat.mpr ⟨sheltered, ?_⟩⟩
      rintro ⟨closes, balanced⟩
      exact room ⟨closes, rest, rfl, balanced⟩

/-- Closing the latest snapshot leaves the others. -/
theorem pending_close (closes : command.closes) {latest : List Command}
    (split : history = latest ++ .snapshot :: inner) (balanced : Balanced inner) :
    {before | Pending (history ++ [command]) before} =
      {before | Pending history before} \ {latest} := by
  ext before
  have other : command ≠ .snapshot := by
    rintro rfl
    cases closes
  simp only [pending_concat, other, closes, false_and, false_or, true_and, Set.mem_ofPred_eq,
    Set.mem_sdiff, Set.mem_singleton_iff, and_congr_right_iff]
  intro _
  refine not_congr ⟨?_, ?_⟩
  · rintro ⟨inner', split', balanced'⟩
    exact snapshot_unique split' balanced' split balanced
  · rintro rfl
    exact ⟨inner, split, balanced⟩

/-- The depth counts the snapshots that have not been closed. -/
theorem encard_pending (history : List Command) :
    {before | Pending history before}.encard = (empty.execute history).depth := by
  induction history using List.reverseRecOn with
  | nil => simp [Pending, depth, empty]
  | append_singleton others last ih =>
      rw [depth] at ih ⊢
      rw [execute_append, execute_cons, execute_nil]
      cases opens : last.opens with
      | true =>
          obtain rfl := Command.eq_snapshot_of_opens opens
          have new : others ∉ {before | Pending others before} := by
            rintro ⟨rest, same, -⟩
            simp at same
          have more : {before | Pending (others ++ [.snapshot]) before} =
              insert others {before | Pending others before} := by
            ext before
            simp [pending_concat]
          rw [more, Set.encard_insert_of_notMem new, ih]
          rfl
      | false =>
          have other : last ≠ .snapshot := by
            rintro rfl
            cases opens
          cases closes : last.closes with
          | false =>
              rw [saved_perform _ opens closes, ← ih]
              simp [pending_concat, other, closes]
          | true =>
              rw [saved_perform_of_closes _ closes]
              by_cases saved : (empty.execute others).saved = []
              · have none : {before | Pending others before} = ∅ := by
                  simpa [saved] using ih
                have none before : ¬ Pending others before := fun pending =>
                  none.subset pending
                simp [pending_concat, other, none, saved]
              · obtain ⟨latest, inner, split, balanced⟩ := exists_snapshot others saved
                have pending : latest ∈ {before | Pending others before} :=
                  pending_iff.mpr ⟨inner, split, balanced.sheltered⟩
                have count := Set.encard_sdiff_singleton_add_one pending
                obtain ⟨bindings, below, saved⟩ := List.exists_cons_of_ne_nil saved
                rw [ih, saved, List.length_cons, Nat.cast_add, Nat.cast_one] at count
                rw [pending_close closes split balanced, saved, List.tail_cons]
                exact (ENat.addLECancellable_of_ne_top ENat.one_ne_top).inj_left.mp count

/-- As many names have a value as there are bindings. -/
theorem encard_named (history : List Command) :
    (named history).encard = (empty.execute history).size := by
  have keys : named history = (empty.execute history).active.keys.toFinset := by
    ext name
    simp only [named, ← get?_execute, Set.mem_ofPred_eq, List.coe_toFinset,
      Std.ExtTreeMap.mem_keys, get?, ← Option.isSome_iff_exists]
    rw [Std.ExtTreeMap.isSome_getElem?_iff_mem]
  rw [keys, Set.encard_coe_eq_coe_finsetCard, List.toFinset_card_of_nodup]
  · rw [Std.ExtTreeMap.length_keys]
    rfl
  · exact Std.ExtTreeMap.nodup_keys

/-- Without a saved snapshot none is pending, and what closes one changes nothing. -/
theorem closing_nothing (saved : (empty.execute history).saved = []) :
    (∀ before, ¬ Pending history before) ∧
      ∀ command : Command, command.closes →
        empty.execute (history ++ [command]) = empty.execute history := by
  refine ⟨?_, ?_⟩
  · have count := encard_pending history
    rw [depth, saved, List.length_nil, Nat.cast_zero, Set.encard_eq_zero] at count
    exact fun before pending => count.subset pending
  · intro command closes
    rw [execute_append, execute_cons, execute_nil]
    cases command with
    | restore => simp only [perform, restore, saved]
    | commit =>
        simp only [perform, commit, saved, List.tail_nil]
        rw [← saved]
    | set | get | fetch | snapshot | size | isEmpty | depth => cases closes

/-- Every answer is the one that the history leads to expect. -/
theorem expects_answer (history : List Command) (command : Command) :
    Expects history command ((empty.execute history).perform command).1 := by
  have current := get?_execute history
  have count := encard_named history
  cases command with
  | set name | get name => exact current name
  | fetch name =>
      simp only [perform, fetch]
      cases found : (empty.execute history).get? name with
      | some value => exact (current name value).mp found
      | none =>
          refine ⟨rfl, fun value holds => ?_⟩
          rw [← current, found] at holds
          cases holds
  | snapshot | restore | commit => trivial
  | size => exact count
  | isEmpty =>
      simp only [perform, Expects, count, isEmpty, size, Std.ExtTreeMap.isEmpty_eq_size_beq_zero,
        beq_iff_eq, Nat.cast_eq_zero]
  | depth => exact encard_pending history

end Histories

/-- **What an environment answers is what its history says.** After any commands to an environment
    without bindings, the next command is answered as the history leads to expect: the value of a
    name is the one that it was set to last, among those that no restore has undone, and the size
    and the depth count the names that have a value and the snapshots that are not closed. Restoring
    brings back the whole environment from before the snapshot that it closes, committing keeps the
    bindings and takes back nothing but that snapshot, and where there is none to close neither
    changes anything. -/
theorem environment_remembers_history :
    (∀ history command, Expects history command ((empty.execute history).perform command).1) ∧
      (∀ env before inner, Balanced inner →
        execute env (before ++ .snapshot :: inner ++ [.restore]) = execute env before ∧
        execute env (before ++ .snapshot :: inner ++ [.commit]) =
          { execute env before with
            active := (execute env (before ++ .snapshot :: inner)).active }) ∧
      ∀ history, (∃ before inner, history = before ++ .snapshot :: inner ∧ Balanced inner) ∨
        (∀ before, ¬ Pending history before) ∧
          ∀ command : Command, command.closes →
            empty.execute (history ++ [command]) = empty.execute history := by
  refine ⟨expects_answer, ?_, ?_⟩
  · intro env before inner balanced
    refine ⟨?_, ?_⟩
    · rw [List.append_assoc, execute_append, execute_restored _ balanced]
    · have saved := balanced.saved (env.execute before).snapshot
      rw [execute_append, execute_cons, execute_nil, execute_append, execute_cons]
      simp only [perform, commit, saved]
      rfl
  · intro history
    by_cases saved : (empty.execute history).saved = []
    · exact .inr (closing_nothing saved)
    · exact .inl (exists_snapshot history saved)

theorem environment_remembers_history_nested :
    let inner : List Command := [.snapshot, .set "x" (.integer 2), .commit, .snapshot, .restore]
    let history := [.set "x" (.integer 1)] ++ .snapshot :: inner
    Balanced inner ∧ ((empty.execute history).perform (.get "x")).1 = .found (some (.integer 2)) ∧
      Current history "x" (.integer 2) ∧
      empty.execute (history ++ [.restore]) = empty.execute [.set "x" (.integer 1)] ∧
      ((empty.execute (history ++ [.restore])).perform (.get "x")).1 =
        .found (some (.integer 1)) := by
  intro inner history
  have set : Balanced [.set "x" (.integer 2)] := Balanced.nil.concat rfl rfl
  have kept : Balanced [.snapshot, .set "x" (.integer 2), .commit] :=
    Balanced.nil.enclose set rfl
  have balanced : Balanced inner := kept.enclose .nil rfl
  obtain ⟨answers, closing, -⟩ := environment_remembers_history
  have back := (closing empty [.set "x" (.integer 1)] inner balanced).1
  have found : ((empty.execute history).perform (.get "x")).1 = .found (some (.integer 2)) := by
    simp [history, inner, perform, execute, exchange, snapshot, restore, commit, get?,
      Environment.set]
  refine ⟨balanced, found, ?_, back, ?_⟩
  · have expected := answers history (.get "x")
    rw [found] at expected
    exact (expected _).mp rfl
  · rw [back]
    simp [perform, execute, exchange, get?_set]

end Environment

end Homoiconic
