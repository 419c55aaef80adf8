import Homoiconic.Evaluation.Bound
import Homoiconic.Proofs.Evaluation.Unseen

/-! # Evaluation in a single pass

Without loops and closures, evaluation is a pass through the code: it evaluates parts of the code
from left to right, none of them twice, and nothing else. So it ends, and evaluations nest no deeper
than the code does. Under whatever names, no value comes up on the way that a call could do more
with, and code that is held as data is never run.
-/

namespace Homoiconic

/-- Whether a call evaluates its arguments once at most, and yields no closure. -/
def Builtin.isSinglePass : Builtin → Bool
  | .loop | .makeLambda | .makeExpander => false
  | _ => true

namespace Operation

def isSinglePass : Operation → Bool
  | .loop .. | .closure .. => false
  | _ => true

theorem isSinglePass_of_call {builtin : Builtin} {args : List Atom} {operation : Operation}
    (single : builtin.isSinglePass) (call : builtin.operation? args = some operation) :
    operation.isSinglePass := by
  unfold Builtin.operation? at call
  split at call <;> cases call <;> first | rfl | cases single

end Operation

def Value.isSinglePass : Value → Bool
  | .builtin operation => operation.isSinglePass
  | .closure _ => false
  | _ => true

/-- No name is bound to a closure, nor to a built-in that loops or makes closures. -/
def Bindings.IsSinglePass (bindings : Bindings) : Prop :=
  ∀ (name : String) (value : Value), bindings[name]? = some value → value.isSinglePass

theorem Bindings.IsSinglePass.insert {bindings : Bindings} (single : bindings.IsSinglePass)
    (name : String) {value : Value} (fits : value.isSinglePass) :
    Bindings.IsSinglePass (bindings.insert name value) :=
  Bindings.forall_insert single name fits

theorem Bindings.IsSinglePass.ofList {entries : List (String × Value)}
    (each : ∀ entry ∈ entries, entry.2.isSinglePass) :
    Bindings.IsSinglePass (.ofList entries compare) :=
  Bindings.forall_ofList each

namespace Atom

mutual
/-- How deep the lists in the atom are nested; a quotation is as deep as what it quotes. -/
def depth : Atom → Nat
  | .list items => depths items + 1
  | .quoted inner => inner.depth
  | .number _ | .symbol _ => 1

def depths : List Atom → Nat
  | [] => 0
  | item :: rest => max item.depth (depths rest)
end

mutual
/-- The atom and its parts, each as often as it occurs, from left to right. -/
def occurrences : Atom → List Atom
  | .list items => .list items :: occurrencesIn items
  | .quoted inner => .quoted inner :: inner.occurrences
  | .number value => [.number value]
  | .symbol name => [.symbol name]

def occurrencesIn : List Atom → List Atom
  | [] => []
  | item :: rest => item.occurrences ++ occurrencesIn rest
end

theorem depth_pos (code : Atom) : 0 < code.depth := by
  cases code with
  | number | symbol | list => exact Nat.succ_pos _
  | quoted inner => exact inner.depth_pos

theorem depth_le_depths {code : Atom} {codes : List Atom} (member : code ∈ codes) :
    code.depth ≤ depths codes := by
  induction codes with
  | nil => cases member
  | cons first rest ih =>
      cases member with
      | head => exact Nat.le_max_left _ _
      | tail _ member => exact Nat.le_trans (ih member) (Nat.le_max_right _ _)

@[simp]
theorem depth_unquoted (code : Atom) : code.unquoted.depth = code.depth := by
  cases code <;> rfl

theorem occurrences_unquoted (code : Atom) :
    code.unquoted.occurrences.Sublist code.occurrences := by
  cases code with
  | quoted inner => exact List.sublist_cons_self _ _
  | number | symbol | list => exact List.Sublist.refl _

theorem occurrencesIn_unquoted (codes : List Atom) :
    (occurrencesIn (codes.map unquoted)).Sublist (occurrencesIn codes) := by
  induction codes with
  | nil => exact List.Sublist.refl _
  | cons code rest ih => exact code.occurrences_unquoted.append ih

end Atom

open Atom

/-- The operation has its parts in the order in which they come as arguments. -/
theorem Operation.occurrencesIn_parts {builtin : Builtin} {args : List Atom}
    {operation : Operation} (call : builtin.operation? args = some operation) :
    (occurrencesIn operation.parts).Sublist (occurrencesIn args) := by
  unfold Builtin.operation? at call
  split at call <;> cases call
  case h_11 => exact occurrencesIn_unquoted _
  all_goals first
    | exact List.Sublist.refl _
    | exact List.nil_sublist _
    | exact List.sublist_append_right _ _

/-- The atom whose evaluation is recorded. -/
def Record.evaluated? : Record → Option Atom
  | .evaluating code => some code
  | _ => none

/-- The atoms that have been evaluated, in the order of time. -/
def Context.evaluated (context : Context) : List Atom :=
  context.log.reverse.filterMap Record.evaluated?

/-- What part of a pass leaves: good bindings, after the evaluation of some of the codes. -/
structure Context.Passes (context : Context) (codes : List Atom) (after : Context) : Prop where
  active : after.env.active.IsSinglePass
  evaluated : ∃ visited, visited.Sublist codes ∧ after.evaluated = context.evaluated ++ visited

/-- A part of a pass may evaluate nothing at all. -/
theorem Context.Passes.still {context after : Context} (codes : List Atom)
    (active : after.env.active.IsSinglePass) (log : after.log = context.log) :
    context.Passes codes after :=
  ⟨active, [], List.nil_sublist _, by
    rw [Context.evaluated, log, List.append_nil, Context.evaluated]⟩

namespace Action

variable {α β : Type}

/-- The action is part of a pass: it evaluates some of the codes in order, and ends. -/
def Passes (codes : List Atom) (good : α → Prop) (action : Action EvalError α) : Prop :=
  ∀ context, context.env.active.IsSinglePass → ∃ after, context.Passes codes after ∧
    ((∃ value, good value ∧ action context = .returned value after) ∨
      ∃ error, action context = .failed error after)

namespace Passes

variable {codes codes' : List Atom} {good : α → Prop} {good' : β → Prop}
  {action : Action EvalError α} {next : α → Action EvalError β}

theorem mono (passes : Passes codes good action) (more : codes.Sublist codes') :
    Passes codes' good action := by
  intro context single
  obtain ⟨after, ⟨active, visited, within, evaluated⟩, ends⟩ := passes context single
  exact ⟨after, ⟨active, visited, within.trans more, evaluated⟩, ends⟩

theorem bind (first : Passes codes good action)
    (later : ∀ value, good value → Passes codes' good' (next value)) :
    Passes (codes ++ codes') good' (action >>= next) := by
  intro context single
  obtain ⟨middle, ⟨active, visited, within, evaluated⟩, ends⟩ := first context single
  simp only [Bind.bind, Action.bind]
  rcases ends with ⟨value, fits, returned⟩ | ⟨error, failed⟩
  · obtain ⟨after, ⟨active', visited', within', evaluated'⟩, ends⟩ := later value fits middle active
    rw [returned]
    refine ⟨after, ⟨active', visited ++ visited', within.append within', ?_⟩, ends⟩
    rw [evaluated', evaluated, List.append_assoc]
  · rw [failed]
    refine ⟨middle, ⟨active, visited, ?_, evaluated⟩, .inr ⟨error, rfl⟩⟩
    exact within.trans (List.sublist_append_left _ _)

theorem imp {weaker : α → Prop} (passes : Passes codes good action)
    (implies : ∀ value, good value → weaker value) : Passes codes weaker action := by
  intro context single
  obtain ⟨after, passed, ends⟩ := passes context single
  refine ⟨after, passed, ends.imp_left ?_⟩
  rintro ⟨value, fits, returned⟩
  exact ⟨value, implies value fits, returned⟩

/-- To go on without evaluating anything. -/
theorem goOn (first : Passes codes good action)
    (later : ∀ value, good value → Passes [] good' (next value)) :
    Passes codes good' (action >>= next) := by
  simpa using first.bind later

theorem pure {value : α} (fits : good value) : Passes [] good (Pure.pure value) :=
  fun context single => ⟨context, .still _ single rfl, .inl ⟨value, fits, rfl⟩⟩

theorem fail (codes : List Atom) (good : α → Prop) (error : EvalError) :
    Passes codes good (Action.fail error) :=
  fun context single => ⟨context, .still _ single rfl, .inr ⟨error, rfl⟩⟩

theorem expect (expected : Expectation) (found : Option α) :
    Passes [] (fun value => found = some value) (Action.expect expected found) := by
  cases found with
  | none => exact .fail _ _ _
  | some value => exact .pure rfl

theorem record (entry : Record) :
    Passes entry.evaluated?.toList (fun _ => True) (Action.record entry) := by
  intro context single
  refine ⟨{ context with log := entry :: context.log }, ⟨single, _, .refl _, ?_⟩,
    .inl ⟨(), trivial, rfl⟩⟩
  cases found : entry.evaluated? <;> simp [Context.evaluated, found]

theorem lookup (name : String) :
    Passes [] (fun value => value.isSinglePass) (Action.lookup name) := by
  intro context single
  refine ⟨context, .still _ single rfl, ?_⟩
  unfold Action.lookup Environment.fetch
  cases found : context.env.get? name with
  | none => exact .inr ⟨_, rfl⟩
  | some value => exact .inl ⟨value, single name value found, rfl⟩

theorem assign (name : String) {value : Value} (fits : value.isSinglePass) :
    Passes [] (fun _ => True) (Action.bindAll [(name, value)]) :=
  fun context single => ⟨{ context with env := context.env.set name value },
    .still _ (single.insert name fits) rfl, .inl ⟨(), trivial, rfl⟩⟩

theorem ask (request : Sink → Except SinkError Unit × Sink) :
    Passes [] (fun _ => True) (Action.ask request) := by
  intro context single
  unfold Action.ask
  cases request context.sink with
  | mk result sink =>
      refine ⟨{ context with sink }, .still _ single rfl, ?_⟩
      cases result with
      | ok => exact .inl ⟨(), trivial, rfl⟩
      | error cause => exact .inr ⟨_, rfl⟩

theorem reported (builtin : Builtin) {good : Value → Prop} {action : Action EvalError Value}
    (passes : Passes codes good action) : Passes codes good (Action.reported builtin action) := by
  intro context single
  obtain ⟨after, ⟨active, visited, within, evaluated⟩, ends⟩ := passes context single
  have logged (entry : Record) (other : entry.evaluated? = none) :
      context.Passes codes { after with log := entry :: after.log } := by
    refine ⟨active, visited, within, ?_⟩
    rw [← evaluated]
    simp [Context.evaluated, other]
  rcases ends with ⟨value, fits, returned⟩ | ⟨error, failed⟩
  · exact ⟨_, logged (.resulted builtin value) rfl, .inl ⟨value, fits, by
      rw [Action.reported, returned]⟩⟩
  · exact ⟨_, logged (.failed builtin error) rfl, .inr ⟨error, by rw [Action.reported, failed]⟩⟩

end Passes

end Action

namespace Evaluation

open Homoiconic.Action

section Rules

variable {ev : Evaluator} {code : Atom} {codes : List Atom}

/-- The evaluation of the atom is a pass through it. -/
def EvalPasses (ev : Evaluator) (code : Atom) : Prop :=
  Passes code.occurrences (fun value => value.isSinglePass) (ev code)

theorem integer_passes (passes : EvalPasses ev code) :
    Passes code.occurrences (fun _ => True) (integer ev code) :=
  passes.goOn fun _ _ => (Passes.expect _ _).imp fun _ _ => trivial

theorem boolean_passes (passes : EvalPasses ev code) :
    Passes code.occurrences (fun _ => True) (boolean ev code) :=
  passes.goOn fun _ _ => (Passes.expect _ _).imp fun _ _ => trivial

theorem accumulate_passes (kind : Arithmetic) (total : Int64)
    (passes : ∀ code ∈ codes, EvalPasses ev code) :
    Passes (occurrencesIn codes) (fun _ => True) (accumulate ev kind total codes) := by
  induction codes generalizing total with
  | nil => exact .pure trivial
  | cons code rest ih =>
      obtain ⟨first, others⟩ := List.forall_mem_cons.mp passes
      refine (integer_passes first).bind fun operand _ => ?_
      cases kind.apply? total operand with
      | none => exact .fail _ _ _
      | some total => exact ih total others

theorem sequence_passes {last : Value} (fits : last.isSinglePass)
    (passes : ∀ code ∈ codes.map Atom.unquoted, EvalPasses ev code) :
    Passes (occurrencesIn (codes.map Atom.unquoted)) (fun value => value.isSinglePass)
      (sequence ev last codes) := by
  induction codes generalizing last with
  | nil => exact .pure fits
  | cons statement rest ih =>
      obtain ⟨first, others⟩ := List.forall_mem_cons.mp passes
      exact first.bind fun value fits => ih fits others

theorem conjunction_passes (passes : ∀ code ∈ codes, EvalPasses ev code) :
    Passes (occurrencesIn codes) (fun _ => True) (conjunction ev codes) := by
  induction codes with
  | nil => exact .pure trivial
  | cons condition rest ih =>
      obtain ⟨first, others⟩ := List.forall_mem_cons.mp passes
      refine (boolean_passes first).bind fun holds _ => ?_
      cases holds with
      | true => exact ih others
      | false => exact (Passes.pure trivial).mono (List.nil_sublist _)

theorem disjunction_passes (passes : ∀ code ∈ codes, EvalPasses ev code) :
    Passes (occurrencesIn codes) (fun _ => True) (disjunction ev codes) := by
  induction codes with
  | nil => exact .pure trivial
  | cons condition rest ih =>
      obtain ⟨first, others⟩ := List.forall_mem_cons.mp passes
      refine (boolean_passes first).bind fun holds _ => ?_
      cases holds with
      | true => exact (Passes.pure trivial).mono (List.nil_sublist _)
      | false => exact ih others

theorem printAll_passes (passes : ∀ code ∈ codes, EvalPasses ev code) :
    Passes (occurrencesIn codes) (fun _ => True) (printAll ev codes) := by
  induction codes with
  | nil => exact .pure trivial
  | cons item rest ih =>
      obtain ⟨first, others⟩ := List.forall_mem_cons.mp passes
      refine first.bind fun value _ => ?_
      exact (Passes.ask _).bind fun _ _ => ih others

theorem perform_passes (bound : Nat) {operation : Operation} (single : operation.isSinglePass)
    (passes : ∀ code ∈ operation.parts, EvalPasses ev code) :
    Passes (occurrencesIn operation.parts) (fun value => value.isSinglePass)
      (perform ev bound operation) := by
  cases operation with
  | arithmetic kind first rest =>
      obtain ⟨start, others⟩ := List.forall_mem_cons.mp passes
      refine (integer_passes start).bind fun total _ => ?_
      exact (accumulate_passes kind total others).goOn fun _ _ => .pure rfl
  | comparison order left right =>
      obtain ⟨one, others⟩ := List.forall_mem_cons.mp passes
      obtain ⟨other, -⟩ := List.forall_mem_cons.mp others
      exact (integer_passes one).bind fun _ _ => (integer_passes other).bind fun _ _ => .pure rfl
  | equality negated left right =>
      obtain ⟨one, others⟩ := List.forall_mem_cons.mp passes
      obtain ⟨other, -⟩ := List.forall_mem_cons.mp others
      exact one.bind fun _ _ => other.bind fun _ _ => .pure rfl
  | sequence statements => exact sequence_passes rfl passes
  | choice condition consequent alternative =>
      obtain ⟨decides, others⟩ := List.forall_mem_cons.mp passes
      obtain ⟨holding, others⟩ := List.forall_mem_cons.mp others
      obtain ⟨otherwise, -⟩ := List.forall_mem_cons.mp others
      refine (boolean_passes decides).bind fun holds _ => ?_
      cases holds with
      | true => exact holding.mono (List.sublist_append_left _ _)
      | false =>
          refine otherwise.mono ?_
          exact (List.sublist_append_left _ _).trans (List.sublist_append_right _ _)
  | conjunction conditions => exact (conjunction_passes passes).goOn fun _ _ => .pure rfl
  | disjunction conditions => exact (disjunction_passes passes).goOn fun _ _ => .pure rfl
  | negation condition =>
      obtain ⟨only, -⟩ := List.forall_mem_cons.mp passes
      exact (boolean_passes only).bind fun _ _ => .pure rfl
  | loop | closure => cases single
  | assignment target code =>
      obtain ⟨only, -⟩ := List.forall_mem_cons.mp passes
      refine (Passes.expect _ _).bind fun name _ => only.bind fun value fits => ?_
      refine (Passes.record (.assigned name value)).bind fun _ _ => ?_
      exact (Passes.assign name fits).goOn fun _ _ => .pure rfl
  | stepping amount target =>
      refine (Passes.expect _ _).bind fun name _ => (Passes.lookup name).goOn fun value _ => ?_
      refine (Passes.expect _ _).bind fun n _ => ?_
      exact (Passes.assign name rfl).goOn fun _ _ => .pure rfl
  | evaluation code =>
      obtain ⟨only, -⟩ := List.forall_mem_cons.mp passes
      exact only.mono (List.sublist_append_left _ _)
  | printing items =>
      refine (printAll_passes passes).goOn fun _ _ => (Passes.ask _).goOn fun _ _ => ?_
      exact (Passes.ask _).goOn fun _ _ => .pure rfl

theorem callBuiltin_passes (bound : Nat) {builtin : Builtin} (single : builtin.isSinglePass)
    (passes : ∀ code ∈ codes, EvalPasses ev code ∧ EvalPasses ev code.unquoted) :
    Passes (occurrencesIn codes) (fun value => value.isSinglePass)
      (callBuiltin ev bound builtin codes) := by
  unfold callBuiltin
  cases call : builtin.operation? codes with
  | none => exact .fail _ _ _
  | some operation =>
      have parts : ∀ code ∈ operation.parts, EvalPasses ev code := by
        intro code part
        rcases List.mem_append.mp (Builtin.parts_subset call part) with member | member
        · exact (passes code member).1
        · obtain ⟨arg, given, rfl⟩ := List.mem_map.mp member
          exact (passes arg given).2
      have work := perform_passes bound (Operation.isSinglePass_of_call single call) parts
      refine (Passes.record (.called builtin codes)).bind fun _ _ => ?_
      exact (work.mono (Operation.occurrencesIn_parts call)).reported builtin

theorem meaning_passes (bound : Nat)
    (passes : ∀ part : Atom, part.depth < code.depth → EvalPasses ev part) :
    Passes code.occurrences (fun value => value.isSinglePass) (meaning ev bound code) := by
  have recorded := Passes.record (.evaluating code)
  cases code with
  | number n => exact recorded.bind fun _ _ => .pure rfl
  | symbol name => exact recorded.bind fun _ _ => .lookup name
  | quoted inner =>
      have held : Passes [] (fun value => value.isSinglePass) (pure (Value.atom inner)) :=
        .pure rfl
      exact recorded.bind fun _ _ => held.mono (List.nil_sublist _)
  | list items =>
      cases items with
      | nil => exact recorded.bind fun _ _ => .pure rfl
      | cons head args =>
          have items : ∀ item ∈ head :: args, item.depth < (Atom.list (head :: args)).depth :=
            fun item member => Nat.lt_succ_of_le (depth_le_depths member)
          refine recorded.bind fun _ _ => ?_
          refine (passes head (items head (List.mem_cons_self ..))).bind fun callee fits => ?_
          cases callee with
          | builtin builtin =>
              refine callBuiltin_passes bound fits fun arg member => ?_
              have within := items arg (List.mem_cons_of_mem head member)
              exact ⟨passes arg within, passes _ (arg.depth_unquoted ▸ within)⟩
          | closure => cases fits
          | nil | integer | boolean | atom => exact .fail _ _ _

end Rules

theorem eval_passes {bound : Nat} {code : Atom} (deep : code.depth ≤ bound) :
    EvalPasses (eval bound) code := by
  induction bound generalizing code with
  | zero => exact absurd code.depth_pos (Nat.not_lt.mpr deep)
  | succ bound ih =>
      refine meaning_passes bound fun part within => ih ?_
      exact Nat.le_of_lt_succ (Nat.lt_of_lt_of_le within deep)

/-- **Without loops and closures, evaluation is a single pass.** If no name is bound to a closure
    nor to a built-in that loops or makes closures, then the evaluation of an atom ends, with a value
    or an error, and evaluations nest no deeper than the lists of the atom do. All that is evaluated
    are occurrences of its parts from left to right, and none of them twice; and still no name is
    bound to such a value. -/
theorem single_pass_evaluation_ends (code : Atom) (context : Context)
    (single : context.env.active.IsSinglePass) (bound : Nat) (deep : code.depth ≤ bound) :
    ∃ after, (eval bound code context).after? = some after ∧ after.env.active.IsSinglePass ∧
      ∃ visited, visited.Sublist code.occurrences ∧
        after.evaluated = context.evaluated ++ visited := by
  obtain ⟨after, ⟨active, visited⟩, ends⟩ := eval_passes deep context single
  refine ⟨after, ?_, active, visited⟩
  rcases ends with ⟨value, -, returned⟩ | ⟨error, failed⟩
  · rw [returned]
    rfl
  · rw [failed]
    rfl

/-- With all other built-ins, and with code that could be run again when it is fetched, but is
    not. -/
theorem single_pass_evaluation_ends_quoted :
    let bindings : Bindings := .ofList ((Builtin.every.filter (·.isSinglePass)).map fun builtin =>
      (builtin.name, .builtin builtin)) compare
    let code : Atom := .list [.symbol "do",
      .quoted (.list [.symbol "set", .symbol "x", .quoted (.list [.symbol "x"])]),
      .list [.symbol "print", .symbol "x", .symbol "x"]]
    bindings.IsSinglePass ∧ code.depth = 4 ∧
      ∃ after, (eval 4 code { env := { active := bindings } }).after? = some after ∧
        after.env.active.IsSinglePass ∧
        ∃ visited, visited.Sublist code.occurrences ∧ after.evaluated = visited := by
  intro bindings code
  have single : bindings.IsSinglePass := by
    refine .ofList fun entry member => ?_
    obtain ⟨builtin, kept, rfl⟩ := List.mem_map.mp member
    exact (List.mem_filter.mp kept).2
  have deep : code.depth = 4 := by decide
  exact ⟨single, deep, single_pass_evaluation_ends code { env := { active := bindings } } single 4
    (Nat.le_of_eq deep)⟩

end Evaluation

end Homoiconic
