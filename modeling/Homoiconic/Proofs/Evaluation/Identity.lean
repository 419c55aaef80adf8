import Mathlib.Data.List.Nodup
import Homoiconic.Proofs.Evaluation.Program
import Homoiconic.Proofs.Evaluation.StorePassing
import Homoiconic.Proofs.Evaluation.Upkeep

/-! # The identity of closures

Every closure that is made is logged, so the log says which closures there can be. In the course of
evaluations, wherever they begin and however they end, each of these has a number of its own, and
all closures that are bound, saved or yielded are among them. The supply of numbers is no part of
the bindings: it goes on when they are brought back, and closures that outlive the bindings in which
they were made stay different from those made later.
-/

namespace Homoiconic

open Homoiconic.Evaluation (apply eval perform)

/-- The closures that have been made, the latest first. -/
def Context.made (context : Context) : List Closure :=
  context.log.filterMap Record.made?

/-- If the value is a closure, then it has been made. -/
def Value.KnownTo (context : Context) : Value → Prop
  | .closure function => function ∈ context.made
  | .nil | .integer _ | .boolean _ | .atom _ | .builtin _ => True

def Bindings.KnownTo (context : Context) (bindings : Bindings) : Prop :=
  ∀ (name : String) (value : Value), bindings[name]? = some value → value.KnownTo context

/-- The closures that have been made have different numbers, none of which is still to come, and
    there are no other closures. -/
structure Context.Numbered (context : Context) : Prop where
  distinct : (context.made.map Closure.identity).Nodup
  below : ∀ closure ∈ context.made, closure.identity < context.nextIdentity
  active : context.env.active.KnownTo context
  saved : ∀ bindings ∈ context.env.saved, bindings.KnownTo context

section Knowing

variable {context after : Context} {closure : Closure} {value : Value}

theorem Context.made_logging {entry : Record} (plain : entry.made? = none) :
    (context.logging entry).made = context.made :=
  List.filterMap_cons_none plain

theorem Context.made_making (context : Context) (closure : Closure) :
    (context.making closure).made = closure :: context.made := by
  refine List.filterMap_cons_some ?_
  cases closure with
  | mk identity kind parameters body => cases kind <;> rfl

theorem Value.KnownTo.mono (known : value.KnownTo context) (more : context.made ⊆ after.made) :
    value.KnownTo after := by
  cases value with
  | closure closure => exact more known
  | nil | integer | boolean | atom | builtin => trivial

theorem Value.KnownTo.of_not_isCallable (plain : value.isCallable = false) :
    value.KnownTo context := by
  cases value with
  | nil | integer | boolean | atom | builtin => trivial
  | closure closure => cases plain

theorem Bindings.KnownTo.mono {bindings : Bindings} (known : bindings.KnownTo context)
    (more : context.made ⊆ after.made) : bindings.KnownTo after :=
  fun name value bound => (known name value bound).mono more

theorem Bindings.KnownTo.insert {bindings : Bindings} (known : bindings.KnownTo context)
    (name : String) (fits : value.KnownTo context) :
    Bindings.KnownTo context (bindings.insert name value) :=
  Bindings.forall_insert known name fits

namespace Context.Numbered

/-- Having more closures does no harm to the bindings. -/
theorem grown (numbered : context.Numbered) (env : after.env = context.env)
    (more : context.made ⊆ after.made) (distinct : (after.made.map Closure.identity).Nodup)
    (below : ∀ closure ∈ after.made, closure.identity < after.nextIdentity) : after.Numbered where
  distinct := distinct
  below := below
  active := by
    rw [env]
    exact numbered.active.mono more
  saved := by
    rw [env]
    exact fun bindings member => (numbered.saved bindings member).mono more

theorem alike (numbered : context.Numbered) (env : after.env = context.env)
    (same : after.made = context.made) (next : after.nextIdentity = context.nextIdentity) :
    after.Numbered := by
  refine numbered.grown env ?_ ?_ ?_
  · rw [same]
    exact List.Subset.refl _
  · rw [same]
    exact numbered.distinct
  · rw [same, next]
    exact numbered.below

theorem logging (numbered : context.Numbered) {entry : Record} (plain : entry.made? = none) :
    (context.logging entry).Numbered :=
  numbered.alike rfl (made_logging plain) rfl

/-- The next number is a new one. -/
theorem making (numbered : context.Numbered) (fresh : closure.identity = context.nextIdentity) :
    (context.making closure).Numbered := by
  refine numbered.grown rfl ?_ ?_ ?_
  · rw [made_making]
    exact List.subset_cons_self _ _
  · rw [made_making, List.map_cons, List.nodup_cons]
    refine ⟨?_, numbered.distinct⟩
    intro used
    obtain ⟨other, member, same⟩ := List.mem_map.mp used
    have less := numbered.below other member
    omega
  · rw [made_making]
    intro other member
    change other.identity < context.nextIdentity + 1
    obtain rfl | member := List.mem_cons.mp member
    · omega
    · have less := numbered.below other member
      omega

theorem snapshot (numbered : context.Numbered) :
    Context.Numbered { context with env := context.env.snapshot } where
  distinct := numbered.distinct
  below := numbered.below
  active := numbered.active
  saved := List.forall_mem_cons.mpr ⟨numbered.active, numbered.saved⟩

theorem restore (numbered : context.Numbered) :
    Context.Numbered { context with env := context.env.restore } := by
  unfold Environment.restore
  split
  · exact numbered
  · next previous saved same =>
      obtain ⟨first, others⟩ := List.forall_mem_cons.mp (same ▸ numbered.saved)
      exact {
        distinct := numbered.distinct
        below := numbered.below
        active := first
        saved := others }

/-- To a program, known values are the same only if they are equal: two closures, only if they are
    of the same kind and have the same parameters and the same body. -/
theorem same_iff (numbered : context.Numbered) {x y : Value} (first : x.KnownTo context)
    (second : y.KnownTo context) : x.same y ↔ x = y := by
  cases x with
  | closure f =>
      cases y with
      | closure g =>
          have injective := List.inj_on_of_nodup_map numbered.distinct
          simp only [Value.same, beq_iff_eq, Value.closure.injEq]
          constructor
          · intro same
            exact injective first second same
          · rintro rfl
            rfl
      | nil | integer | boolean | atom | builtin => simp [Value.same]
  | nil | integer | boolean | atom | builtin => cases y <;> simp [Value.same]

/-- A closure with the next number is like no known value. -/
theorem same_fresh (numbered : context.Numbered) (fresh : closure.identity = context.nextIdentity)
    (known : value.KnownTo context) : (Value.closure closure).same value = false := by
  cases value with
  | closure other =>
      have less := numbered.below other known
      simp only [Value.same, beq_eq_false_iff_ne]
      omega
  | nil | integer | boolean | atom | builtin => rfl

end Context.Numbered

end Knowing

/-- Closures are numbered, and those that have been made are not forgotten. -/
def Invariant.identities : Invariant where
  holds := Context.Numbered
  fits context value := value.KnownTo context
  later before after := before.made <:+ after.made

theorem Invariant.lawful_identities : identities.Lawful where
  refl context := List.suffix_refl _
  trans := List.IsSuffix.trans
  fits_later more known := known.mono more.subset
  plain _ _ := .of_not_isCallable
  bound numbered bound := numbered.active _ _ bound
  assigned name numbered known :=
    ⟨{ numbered with active := numbered.active.insert name known }, List.suffix_refl _⟩
  recorded {context} entry plain numbered := by
    refine ⟨numbered.logging plain, ?_⟩
    change context.made <:+ (context.logging entry).made
    simp only [Context.made_logging plain, List.suffix_refl]
  written sink numbered :=
    ⟨{ numbered with }, List.suffix_refl _⟩
  copied _ numbered := ⟨numbered.snapshot, List.suffix_refl _⟩
  restored _ numbered := ⟨numbered.restore, List.suffix_refl _⟩
  made {context} closure _ numbered fresh := by
    refine ⟨⟨numbered.making fresh, ?_⟩, ?_⟩
    · change context.made <:+ (context.making closure).made
      rw [Context.made_making]
      exact List.suffix_cons _ _
    · change closure ∈ (context.making closure).made
      rw [Context.made_making]
      exact List.mem_cons_self

namespace Evaluation

variable {bound : Nat} {context middle : Context}

theorem mapM_symbol?_map (names : List String) :
    (names.map Atom.symbol).mapM Atom.symbol? = some names := by
  induction names with
  | nil => rfl
  | cons name rest ih => simp [List.mapM_cons, ih, Atom.symbol?]

/-- A form that makes a closure, whatever the built-in for it is called. -/
theorem eval_making (kind : ClosureKind) {head : Atom} (names : List String) (body : Atom)
    (callee : eval bound head
      (context.logging (.evaluating (.list [head, .list (names.map .symbol), body]))) =
        .returned (.builtin kind.builtin) middle) :
    eval (bound + 1) (.list [head, .list (names.map .symbol), body]) context =
      .returned (.closure ⟨middle.nextIdentity, kind, names, body⟩)
        ((middle.logging (.called kind.builtin [.list (names.map .symbol), body])).making
          ⟨middle.nextIdentity, kind, names, body⟩) := by
  have call : kind.builtin.operation? [.list (names.map .symbol), body] =
      some (.closure kind (.list (names.map .symbol)) body) := by
    cases kind <;> rfl
  rw [eval_list callee]
  change callBuiltin (eval bound) bound kind.builtin _ middle = _
  rw [callBuiltin_eq call, Action.reported]
  simp only [perform, Atom.items?, Action.expect, Bind.bind, Action.bind, Pure.pure, Action.pure,
    mapM_symbol?_map]
  rfl

/-- The closure is new in the second context: it is like no value that was known to the first, and
    so like none that was bound or saved there. -/
structure MadeFresh (kind : ClosureKind) (parameters : List String) (body : Atom)
    (before : Context) (closure : Closure) (after : Context) : Prop where
  kind : closure.kind = kind
  parameters : closure.parameters = parameters
  body : closure.body = body
  made : after.made = closure :: before.made
  env : after.env = before.env
  unlike : ∀ value : Value, value.KnownTo before → (Value.closure closure).same value = false
  unbound : ∀ bindings ∈ before.env.active :: before.env.saved, ∀ (name : String) (value : Value),
    bindings[name]? = some value → (Value.closure closure).same value = false

theorem madeFresh (numbered : middle.Numbered) (kind : ClosureKind) (names : List String)
    (body : Atom) :
    MadeFresh kind names body middle ⟨middle.nextIdentity, kind, names, body⟩
      ((middle.logging (.called kind.builtin [.list (names.map .symbol), body])).making
        ⟨middle.nextIdentity, kind, names, body⟩) where
  kind := rfl
  parameters := rfl
  body := rfl
  made := by rw [Context.made_making, Context.made_logging rfl]
  env := rfl
  unlike value known := numbered.same_fresh rfl known
  unbound bindings member name value bound := by
    obtain rfl | member := List.mem_cons.mp member
    · exact numbered.same_fresh rfl (numbered.active name value bound)
    · exact numbered.same_fresh rfl (numbered.saved bindings member name value bound)

/-- Evaluations hand values on as they are. -/
structure HandsOn (bound : Nat) (context : Context) : Prop where
  /-- A name evaluates to the value that it is bound to. -/
  fetched : ∀ name value, context.env.get? name = some value →
    eval (bound + 1) (.symbol name) context =
      .returned value (context.logging (.evaluating (.symbol name)))
  /-- An assignment binds the name to what the code evaluates to, and nothing else. -/
  assigned : ∀ name code result after,
    apply bound (.builtin .assign) [.symbol name, code] context = .returned result after →
    ∃ value middle, eval bound code (context.logging (.called .assign [.symbol name, code])) =
        .returned value middle ∧
      after.env = middle.env.set name value
  /-- A lambda binds its parameters to what the arguments evaluate to, and returns what its body
      evaluates to. -/
  passed : ∀ closure args value after, closure.kind = .lambda →
    apply bound (.closure closure) args context = .returned value after →
    ∃ begun values ready inside last, begun.env = context.env.snapshot ∧
      Evaluation.values (eval bound) args begun = .returned values ready ∧
      (∀ name, inside.env.get? name =
        ((closure.parameters.zip values).reverse.lookup name).or (ready.env.get? name)) ∧
      eval bound closure.body inside = .returned value last
  /-- An expander returns what its expansion evaluates to. -/
  expanded : ∀ closure args value after, closure.kind = .expander →
    apply bound (.closure closure) args context = .returned value after →
    ∃ inside expansion middle last,
      eval bound closure.body inside = .returned (.atom expansion) middle ∧
      eval bound expansion (middle.logging (.expanded expansion)) = .returned value last
  /-- After a call of a closure, the bindings are those before it. -/
  restored : ∀ closure args after,
    (apply bound (.closure closure) args context).after? = some after → after.env = context.env

theorem assign_eq_returned {name : String} {code : Atom} {result : Value} {after : Context}
    (returned : apply bound (.builtin .assign) [.symbol name, code] context =
      .returned result after) :
    ∃ value middle, eval bound code (context.logging (.called .assign [.symbol name, code])) =
        .returned value middle ∧
      after.env = middle.env.set name value := by
  have call : Builtin.assign.operation? [.symbol name, code] =
      some (.assignment (.symbol name) code) := rfl
  change callBuiltin (eval bound) bound .assign [.symbol name, code] context = _ at returned
  rw [callBuiltin_eq call, Action.reported] at returned
  simp only [perform, Atom.symbol?, Action.expect, Bind.bind, Action.bind, Pure.pure,
    Action.pure] at returned
  cases evaluated : eval bound code (context.logging (.called .assign [.symbol name, code])) with
  | returned value middle =>
      rw [evaluated] at returned
      cases returned
      exact ⟨value, middle, rfl, rfl⟩
  | failed | unfinished =>
      rw [evaluated] at returned
      cases returned

/-- A call of a closure that returns has done what the closure says on a snapshot. -/
theorem callClosure_eq_returned {closure : Closure} {args : List Atom} {value : Value}
    {after : Context}
    (returned : callClosure (eval bound) closure args context = .returned value after) :
    ∃ begun last, begun.env = context.env.snapshot ∧
      enter (eval bound) closure args begun = .returned value last := by
  unfold callClosure at returned
  split at returned
  · obtain ⟨_, begun, recorded, returned⟩ := Action.bind_eq_returned_iff.mp returned
    cases recorded
    let copy : Context :=
      { context.logging (.entered closure args) with env := context.env.snapshot }
    refine ⟨copy, ?_⟩
    change (enter (eval bound) closure args).inSnapshot (context.logging (.entered closure args)) =
      _ at returned
    rw [Action.inSnapshot_eq] at returned
    change (enter (eval bound) closure args copy).onContext _ = _ at returned
    cases entered : enter (eval bound) closure args copy with
    | returned result last =>
        rw [entered] at returned
        cases returned
        exact ⟨last, rfl, rfl⟩
    | failed | unfinished =>
        rw [entered] at returned
        cases returned
  · cases returned

theorem callClosure_restores {closure : Closure} {args : List Atom} {after : Context}
    (ends : (callClosure (eval bound) closure args context).after? = some after) :
    after.env = context.env := by
  unfold callClosure at ends
  split at ends
  · change ((enter (eval bound) closure args).inSnapshot
      (context.logging (.entered closure args))).after? = _ at ends
    rw [(enter_ignoresSaved bound closure args).inSnapshot_eq, Outcome.after?_onContext,
      Option.map_eq_some_iff] at ends
    obtain ⟨last, _, rfl⟩ := ends
    rfl
  · cases ends
    rfl

theorem enter_lambda_eq_returned {closure : Closure} {args : List Atom} {begun last : Context}
    {value : Value} (kind : closure.kind = .lambda)
    (returned : enter (eval bound) closure args begun = .returned value last) :
    ∃ values ready inside, Evaluation.values (eval bound) args begun = .returned values ready ∧
      (∀ name, inside.env.get? name =
        ((closure.parameters.zip values).reverse.lookup name).or (ready.env.get? name)) ∧
      eval bound closure.body inside = .returned value last := by
  unfold enter at returned
  rw [kind] at returned
  obtain ⟨values, ready, evaluated, returned⟩ := Action.bind_eq_returned_iff.mp returned
  obtain ⟨_, inside, bound, returned⟩ := Action.bind_eq_returned_iff.mp returned
  cases bound
  refine ⟨values, ready, _, evaluated, ?_, returned⟩
  intro name
  rw [Environment.setAll_eq]
  exact Bindings.getElem?_override ready.env.active (closure.parameters.zip values) name

theorem enter_expander_eq_returned {closure : Closure} {args : List Atom} {begun last : Context}
    {value : Value} (kind : closure.kind = .expander)
    (returned : enter (eval bound) closure args begun = .returned value last) :
    ∃ inside expansion middle,
      eval bound closure.body inside = .returned (.atom expansion) middle ∧
      eval bound expansion (middle.logging (.expanded expansion)) = .returned value last := by
  unfold enter at returned
  rw [kind] at returned
  obtain ⟨_, inside, _, returned⟩ := Action.bind_eq_returned_iff.mp returned
  obtain ⟨result, middle, evaluated, returned⟩ := Action.bind_eq_returned_iff.mp returned
  obtain ⟨expansion, _, expected, returned⟩ := Action.bind_eq_returned_iff.mp returned
  cases result with
  | atom code =>
      cases expected
      obtain ⟨_, _, recorded, returned⟩ := Action.bind_eq_returned_iff.mp returned
      cases recorded
      exact ⟨inside, _, middle, evaluated, returned⟩
  | nil | integer | boolean | builtin | closure => cases expected

theorem handsOn (bound : Nat) (context : Context) : HandsOn bound context where
  fetched name value found := eval_symbol found bound
  assigned name code result after := assign_eq_returned
  passed closure args value after kind returned := by
    obtain ⟨begun, last, copy, entered⟩ := callClosure_eq_returned returned
    obtain ⟨values, ready, inside, evaluated, passed, body⟩ :=
      enter_lambda_eq_returned kind entered
    exact ⟨begun, values, ready, inside, last, copy, evaluated, passed, body⟩
  expanded closure args value after kind returned := by
    obtain ⟨begun, last, _, entered⟩ := callClosure_eq_returned returned
    obtain ⟨inside, expansion, middle, body, result⟩ := enter_expander_eq_returned kind entered
    exact ⟨inside, expansion, middle, last, body, result⟩
  restored closure args after := callClosure_restores

/-- The outcomes are opposite truth values, or the same error, or both none, whatever has been
    logged. -/
inductive Opposite : Outcome EvalError Value → Outcome EvalError Value → Prop where
  | returned (truth : Bool) {after after' : Context} : after.withoutLog = after'.withoutLog →
      Opposite (.returned (.boolean truth) after) (.returned (.boolean !truth) after')
  | failed (error : EvalError) {after after' : Context} : after.withoutLog = after'.withoutLog →
      Opposite (.failed error after) (.failed error after')
  | unfinished : Opposite .unfinished .unfinished

/-- Whether two atoms evaluate to the same value. -/
def sameness (ev : Evaluator) (left right : Atom) : Action EvalError Bool := do
  let x ← ev left
  let y ← ev right
  return x.same y

theorem perform_equality (ev : Evaluator) (bound : Nat) (negated : Bool) (left right : Atom) :
    perform ev bound (.equality negated left right) =
      (do let truth ← sameness ev left right; return .boolean (truth != negated)) := by
  simp only [perform, sameness, bind_assoc, pure_bind]

theorem sameness_ignoresLog (bound : Nat) (left right : Atom) :
    (sameness (eval bound) left right).IgnoresLog := by
  intro older
  refine (eval_ignoresLog bound left older).bind ?_
  intro x
  refine Action.Commutes.bind (eval_ignoresLog bound right older) ?_
  intro y context
  rfl

/-- Whether two values are the same is the opposite of whether they differ. -/
theorem opposite_equality (bound : Nat) (left right : Atom) (context : Context) :
    Opposite (apply bound (.builtin .equal) [left, right] context)
      (apply bound (.builtin .notEqual) [left, right] context) := by
  have equal : Builtin.equal.operation? [left, right] = some (.equality false left right) := rfl
  have notEqual : Builtin.notEqual.operation? [left, right] = some (.equality true left right) :=
    rfl
  change Opposite (callBuiltin (eval bound) bound .equal [left, right] context)
    (callBuiltin (eval bound) bound .notEqual [left, right] context)
  rw [callBuiltin_eq equal, callBuiltin_eq notEqual, perform_equality, perform_equality]
  have ignores := sameness_ignoresLog bound left right
  have alike := (ignores.withoutLog_eq (context.logging (.called .equal [left, right]))).trans
    (ignores.withoutLog_eq (context.logging (.called .notEqual [left, right]))).symm
  simp only [Action.reported, Bind.bind, Action.bind]
  generalize sameness (eval bound) left right (context.logging (.called .equal [left, right])) =
    outcome at alike
  generalize sameness (eval bound) left right (context.logging (.called .notEqual [left, right])) =
    outcome' at alike
  cases outcome with
  | returned truth after =>
      cases outcome' with
      | returned truth' after' =>
          obtain ⟨rfl, same⟩ := Outcome.returned.inj alike
          cases truth with
          | true => exact .returned true same
          | false => exact .returned false same
      | failed | unfinished => cases alike
  | failed error after =>
      cases outcome' with
      | failed error' after' =>
          obtain ⟨rfl, same⟩ := Outcome.failed.inj alike
          exact .failed error same
      | returned | unfinished => cases alike
  | unfinished =>
      cases outcome' with
      | unfinished => exact .unfinished
      | returned | failed => cases alike

/-- The built-in `=` asks whether the values of its operands are the same. -/
theorem apply_equal {left right : Atom} {x y : Value} {last : Context}
    (first : eval bound left (context.logging (.called .equal [left, right])) = .returned x middle)
    (second : eval bound right middle = .returned y last) :
    apply bound (.builtin .equal) [left, right] context =
      .returned (.boolean (x.same y)) (last.logging (.resulted .equal (.boolean (x.same y)))) := by
  have equal : Builtin.equal.operation? [left, right] = some (.equality false left right) := rfl
  change callBuiltin (eval bound) bound .equal [left, right] context = _
  rw [callBuiltin_eq equal, Action.reported]
  simp only [perform, Bind.bind, Action.bind, first, second, Bool.bne_false]
  rfl

end Evaluation

end Homoiconic
