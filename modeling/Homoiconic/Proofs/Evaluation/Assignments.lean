import Homoiconic.Proofs.Evaluation.Progress

/-! # What an evaluation binds

An evaluation changes the bindings of no names but those that its atom writes down as the target of
an assignment, and it takes no binding away. Any operation may be called under any name, and
closures run code from elsewhere, but that code works on a copy of the bindings: what it assigns is
gone when the call has ended.
-/

namespace Homoiconic

namespace Atom

/-- The first atom is the second, or stands somewhere in it. -/
inductive Part : Atom → Atom → Prop where
  | refl {code : Atom} : Part code code
  | item {part item : Atom} {items : List Atom} :
      item ∈ items → Part part item → Part part (.list items)
  | quoted {part inner : Atom} : Part part inner → Part part (.quoted inner)

/-- A list `(head name)` or `(head name value)` is a part of the atom, whatever its head. -/
inductive Writes (code : Atom) (name : String) : Prop where
  | stepping {head : Atom} : Part (.list [head, .symbol name]) code → Writes code name
  | assignment {head value : Atom} :
      Part (.list [head, .symbol name, value]) code → Writes code name

theorem Part.trans {part middle whole : Atom} (inner : Part part middle)
    (outer : Part middle whole) : Part part whole := by
  induction outer with
  | refl => exact inner
  | item member _ ih => exact .item member ih
  | quoted _ ih => exact .quoted ih

theorem Part.unquoted (code : Atom) : Part code.unquoted code := by
  cases code with
  | quoted inner => exact .quoted .refl
  | number | symbol | list => exact .refl

theorem Part.of_operands {code operand : Atom} (member : operand ∈ code.operands) :
    Part operand code := by
  unfold operands at member
  split at member
  · simp only [List.mem_cons, List.mem_append, List.mem_map] at member
    obtain rfl | member | ⟨arg, member, rfl⟩ := member
    · exact .item List.mem_cons_self .refl
    · exact .item (List.mem_cons_of_mem _ member) .refl
    · exact .item (List.mem_cons_of_mem _ member) (.unquoted arg)
  · cases member

theorem Writes.of_part {part whole : Atom} {name : String} (written : part.Writes name)
    (outer : Part part whole) : whole.Writes name := by
  cases written with
  | stepping inner => exact .stepping (inner.trans outer)
  | assignment inner => exact .assignment (inner.trans outer)

theorem Writes.of_target? {code : Atom} {name : String} (target : code.target? = some name) :
    code.Writes name := by
  unfold target? targetOf? at target
  split at target
  · split at target
    · cases target
      exact .stepping .refl
    · cases target
      exact .assignment .refl
    · cases target
  · cases target

end Atom

/-- Between two environments, only some names may have got other values, and none has lost its. -/
structure Environment.ChangesOnly (names : String → Prop) (before after : Environment) : Prop where
  bound : ∀ name, (before.get? name).isSome → (after.get? name).isSome
  changed : ∀ name, after.get? name ≠ before.get? name → names name

namespace Environment.ChangesOnly

variable {names others : String → Prop} {first second third : Environment}

theorem refl (env : Environment) : ChangesOnly names env env where
  bound _ bound := bound
  changed _ differs := absurd rfl differs

theorem trans (earlier : ChangesOnly names first second) (later : ChangesOnly names second third) :
    ChangesOnly names first third where
  bound name bound := later.bound name (earlier.bound name bound)
  changed name differs := by
    by_cases same : second.get? name = first.get? name
    · rw [← same] at differs
      exact later.changed name differs
    · exact earlier.changed name same

theorem mono (weaker : ∀ name, names name → others name)
    (changes : ChangesOnly names first second) : ChangesOnly others first second where
  bound := changes.bound
  changed name differs := weaker name (changes.changed name differs)

theorem set (env : Environment) {name : String} (allowed : names name) (value : Value) :
    ChangesOnly names env (env.set name value) where
  bound other bound := by
    rw [get?_set]
    split
    · rfl
    · exact bound
  changed other differs := by
    rw [get?_set] at differs
    split at differs
    · rename_i same
      exact same ▸ allowed
    · exact absurd rfl differs

end Environment.ChangesOnly

namespace Action

variable {ε α : Type} {names : String → Prop}

/-- However the action ends, it has changed the bindings of these names only. -/
def Assigns (names : String → Prop) (action : Action ε α) : Prop :=
  action.Leads fun context after => Environment.ChangesOnly names context.env after.env

namespace Assigns

theorem progress :
    Progress fun context after => Environment.ChangesOnly names context.env after.env where
  refl context := .refl context.env
  trans earlier later := earlier.trans later
  logged context _ := .refl context.env
  numbered context _ := .refl context.env
  written context _ := .refl context.env
  flushed context := .refl context.env

theorem bindAll {name : String} (allowed : names name) (value : Value) :
    (bindAll [(name, value)] : Action ε Unit).Assigns names := by
  rintro context _ ⟨⟩
  exact .set context.env allowed value

/-- What is done on a snapshot changes no bindings at all. -/
theorem inSnapshot {action : Action ε α} (ignores : action.IgnoresSaved) :
    action.inSnapshot.Assigns names := by
  intro context after ends
  rw [ignores.inSnapshot_eq, Outcome.after?_onContext] at ends
  obtain ⟨last, _, rfl⟩ := Option.map_eq_some_iff.mp ends
  exact .refl context.env

end Assigns

end Action

namespace Evaluation

open Homoiconic.Action

variable {names : String → Prop}

theorem callClosure_assigns (bound : Nat) (closure : Closure) (args : List Atom) :
    (callClosure (eval bound) closure args).Assigns names := by
  unfold callClosure
  split
  · exact Assigns.progress.bind (Assigns.progress.record _) fun _ =>
      Assigns.inSnapshot (enter_ignoresSaved bound closure args)
  · exact Assigns.progress.fail _

/-- An evaluation binds only what its atom writes down, however deep calls and expansions go. -/
theorem eval_assigns (bound : Nat) (code : Atom) : (eval bound code).Assigns code.Writes := by
  -- The names that the whole atom writes stay fixed while the induction goes down to its parts.
  suffices within : ∀ part : Atom, (∀ name, part.Writes name → code.Writes name) →
      (eval bound part).Assigns code.Writes from within code fun _ written => written
  induction bound with
  | zero =>
      intro part _ context after ends
      cases ends
  | succ bound ih =>
      intro part written
      refine @meaning_congr _ Assigns.progress.stepwise (eval bound) (eval bound) part _ _
        (Nat.le_refl bound) ?_ ?_ ?_
      · intro operand member
        exact ih operand fun name inner => written name (inner.of_part (.of_operands member))
      · intro name target value
        exact Assigns.bindAll (written name (.of_target? target)) value
      · exact callClosure_assigns bound

end Evaluation

end Homoiconic
