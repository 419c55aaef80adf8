import Homoiconic.Value.Basic
import Std.Data.ExtTreeMap

/-! # Environments

An environment is the active bindings of names to values together with the bindings saved by the
calls in progress. A call takes a snapshot first. Restoring brings the bindings of the latest
snapshot back, and committing keeps the active ones; either forgets that snapshot.
-/

namespace Homoiconic

/-- A finite map from names to values, ordered by name. -/
abbrev Bindings := Std.ExtTreeMap String Value compare

/-- The bindings that a program starts with: every built-in under its name, and the two booleans. -/
def Bindings.standard : Bindings :=
  .ofList (Builtin.every.map (fun builtin => (builtin.name, .builtin builtin)) ++
    [(":true", .boolean true), (":false", .boolean false)]) compare

section Values

variable {P : Value → Prop} {bindings : Bindings}

/-- What holds of all values that names are bound to still does after one more name is bound to such
    a value. -/
theorem Bindings.forall_insert
    (all : ∀ (name : String) (value : Value), bindings[name]? = some value → P value)
    (name : String) {value : Value} (holds : P value) (other : String) (found : Value)
    (bound : (Std.ExtTreeMap.insert bindings name value)[other]? = some found) : P found := by
  rw [Std.ExtTreeMap.getElem?_insert] at bound
  split at bound
  · cases bound
    exact holds
  · exact all other found bound

theorem Bindings.forall_ofList {entries : List (String × Value)}
    (each : ∀ entry ∈ entries, P entry.2) (name : String) (value : Value)
    (bound : (Std.ExtTreeMap.ofList entries compare)[name]? = some value) : P value := by
  rw [Std.ExtTreeMap.ofList_eq_foldl] at bound
  revert name value
  refine List.foldlRecOn entries _ (motive := fun (bindings : Bindings) =>
    ∀ (name : String) (value : Value), bindings[name]? = some value → P value) ?_ ?_
  · intro name value bound
    rw [Std.ExtTreeMap.getElem?_empty] at bound
    cases bound
  · intro bindings all entry member
    exact forall_insert all entry.1 (each entry member)

end Values

structure UnknownName where
  name : String
  deriving Repr, DecidableEq

/-- The active bindings, and those saved by the calls in progress. -/
structure Environment where
  /-- The bindings in force. -/
  active : Bindings
  /-- The bindings of the snapshots in progress, the latest first. -/
  saved : List Bindings := []

namespace Environment

def empty : Environment where
  active := ∅

def standard : Environment where
  active := .standard

def get? (env : Environment) (name : String) : Option Value :=
  env.active[name]?

/-- The value of a name that has to have one. -/
def fetch (env : Environment) (name : String) : Except UnknownName Value :=
  match env.get? name with
  | some value => .ok value
  | none => .error ⟨name⟩

/-- Bind a name, in place of what it was bound to. -/
def set (env : Environment) (name : String) (value : Value) : Environment :=
  { env with active := env.active.insert name value }

/-- Bind a name, and answer what it was bound to before. -/
def exchange (env : Environment) (name : String) (value : Value) : Option Value × Environment :=
  (env.get? name, env.set name value)

/-- Bind several names in order, so that of two bindings of one name the later holds. -/
def setAll (env : Environment) (bindings : List (String × Value)) : Environment :=
  bindings.foldl (fun env binding => env.set binding.1 binding.2) env

/-- Save the active bindings, and go on with a copy. -/
def snapshot (env : Environment) : Environment :=
  { env with saved := env.active :: env.saved }

/-- Bring the bindings of the latest snapshot back; without a snapshot, change nothing. -/
def restore (env : Environment) : Environment :=
  match env.saved with
  | [] => env
  | previous :: saved => { active := previous, saved }

/-- Keep the active bindings and forget the latest snapshot, if there is one. -/
def commit (env : Environment) : Environment :=
  { env with saved := env.saved.tail }

def depth (env : Environment) : Nat :=
  env.saved.length

def size (env : Environment) : Nat :=
  env.active.size

def isEmpty (env : Environment) : Bool :=
  env.active.isEmpty

/-- The bindings that a reader wants to see, in the order of their names: all but the built-ins. -/
def listing (env : Environment) : List (String × Value) :=
  env.active.toList.filter (fun binding => !binding.2.isBuiltin)

/-- The printed text: the depth, then each binding of the listing. -/
def text (env : Environment) : String :=
  let entries := env.listing.map fun binding => binding.1 ++ ": " ++ binding.2.text
  "Environment\x7bdepth: " ++ toString env.depth ++ ", " ++ ", ".intercalate entries ++ "\x7d"

/-- Binding a name decides the value of that name and of no other. -/
theorem get?_set (env : Environment) (name other : String) (value : Value) :
    (env.set name value).get? other = if name = other then some value else env.get? other := by
  simp [get?, set, Std.ExtTreeMap.getElem?_insert]

/-- Restoring undoes whatever was bound since the snapshot. -/
@[simp]
theorem restore_snapshot (env : Environment) (active : Bindings) :
    { env.snapshot with active }.restore = env :=
  rfl

/-- Committing keeps what was bound since the snapshot. -/
@[simp]
theorem commit_snapshot (env : Environment) (active : Bindings) :
    { env.snapshot with active }.commit = { env with active } :=
  rfl

end Environment

end Homoiconic
