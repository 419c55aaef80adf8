import Homoiconic.Proofs.Evaluation.SavedStack

/-! # Errors in the log

The records of calls of built-ins are nested like the calls themselves. An error is raised in one
context, by a step that is not made up of others, and then nothing is left to do but to log the
failure of each call that is open there, from the inside out.
-/

namespace Homoiconic

namespace Record

def isFailure : Record → Bool
  | .failed .. => true
  | _ => false

/-- The open calls of built-ins after one more record, the innermost first. What a call comes to has
    to be recorded for the innermost one. -/
def openAfter? (calls : List Builtin) : Record → Option (List Builtin)
  | .called builtin _ => some (builtin :: calls)
  | .resulted builtin _ | .failed builtin _ =>
      match calls with
      | innermost :: outer => if builtin = innermost then some outer else none
      | [] => none
  | _ => some calls

/-- The open calls after some records in order, if the records are nested. -/
def openAfterAll? (calls : List Builtin) (records : List Record) : Option (List Builtin) :=
  records.foldlM openAfter? calls

@[simp]
theorem openAfterAll?_nil (calls : List Builtin) : openAfterAll? calls [] = some calls :=
  rfl

@[simp]
theorem openAfterAll?_cons (calls : List Builtin) (record : Record) (records : List Record) :
    openAfterAll? calls (record :: records) =
      (openAfter? calls record).bind (openAfterAll? · records) :=
  List.foldlM_cons

@[simp]
theorem openAfterAll?_append (calls : List Builtin) (first second : List Record) :
    openAfterAll? calls (first ++ second) =
      (openAfterAll? calls first).bind (openAfterAll? · second) :=
  List.foldlM_append

theorem openAfter?_of_not_call {record : Record} (other : record.isOfCall = false)
    (calls : List Builtin) : openAfter? calls record = some calls := by
  cases record <;> first | rfl | cases other

/-- The failures of some calls, the innermost first, close these calls. -/
theorem openAfterAll?_failures (calls outer : List Builtin) (error : EvalError) :
    openAfterAll? (calls ++ outer) (calls.map (.failed · error)) = some outer := by
  induction calls with
  | nil => rfl
  | cons innermost calls ih => simp [openAfter?, ih]

/-- The records are nested and without a failure, and leave just these calls open. -/
structure LeaveOpen (calls : List Builtin) (records : List Record) : Prop where
  nested : ∀ outer, openAfterAll? outer records = some (calls ++ outer)
  calm : ∀ record ∈ records, record.isFailure = false

namespace LeaveOpen

variable {calls : List Builtin} {first second records : List Record}

theorem nil : LeaveOpen [] [] where
  nested _ := rfl
  calm := by simp

theorem append (before : LeaveOpen [] first) (after : LeaveOpen calls second) :
    LeaveOpen calls (first ++ second) where
  nested outer := by simp [before.nested, after.nested]
  calm record member := by
    rcases List.mem_append.mp member with member | member
    · exact before.calm record member
    · exact after.calm record member

theorem of_not_calls (others : ∀ record ∈ records, record.isOfCall = false) :
    LeaveOpen [] records where
  nested outer := by
    induction records with
    | nil => rfl
    | cons record records ih =>
        obtain ⟨other, others⟩ := List.forall_mem_cons.mp others
        simp [openAfter?_of_not_call other, ih others]
  calm record member := by
    have other := others record member
    cases record <;> first | rfl | cases other

theorem called (builtin : Builtin) (args : List Atom) (inside : LeaveOpen calls records) :
    LeaveOpen (calls ++ [builtin]) (.called builtin args :: records) where
  nested outer := by simp [openAfter?, inside.nested]
  calm := List.forall_mem_cons.mpr ⟨rfl, inside.calm⟩

theorem resulted (builtin : Builtin) (args : List Atom) (value : Value)
    (inside : LeaveOpen [] records) :
    LeaveOpen [] (.called builtin args :: records ++ [.resulted builtin value]) where
  nested outer := by simp [openAfter?, inside.nested]
  calm record member := by
    simp only [List.cons_append, List.mem_cons, List.mem_append, List.not_mem_nil,
      or_false] at member
    obtain rfl | member | rfl := member
    · rfl
    · exact inside.calm record member
    · rfl

end LeaveOpen

end Record

namespace Action

variable {α β : Type}

/-- The action, begun in the first context, raises the error in the second: there a step fails that
    is not made up of others. -/
inductive Raises : {α : Type} → Action EvalError α → Context → EvalError → Context → Prop where
  | fail {α : Type} {error : EvalError} {context : Context} :
      Raises (α := α) (fail error) context error context
  | lookup {name : String} {context point : Context} {error : EvalError} :
      lookup name context = .failed error point → Raises (lookup name) context error point
  | write {text : String} {context point : Context} {error : EvalError} :
      write text context = .failed error point → Raises (write text) context error point
  | flush {context point : Context} {error : EvalError} :
      flush context = .failed error point → Raises flush context error point
  | first {α β : Type} {action : Action EvalError α} {next : α → Action EvalError β}
      {context point : Context} {error : EvalError} :
      Raises action context error point → Raises (action >>= next) context error point
  | next {α β : Type} {action : Action EvalError α} {next : α → Action EvalError β} {value : α}
      {context middle point : Context} {error : EvalError} :
      action context = .returned value middle → Raises (next value) middle error point →
      Raises (action >>= next) context error point
  | inSnapshot {α : Type} {action : Action EvalError α} {context point : Context}
      {error : EvalError} :
      Raises action { context with env := context.env.snapshot } error point →
      Raises action.inSnapshot context error point
  | reported {builtin : Builtin} {action : Action EvalError Value} {context point : Context}
      {error : EvalError} :
      Raises action context error point → Raises (reported builtin action) context error point

/-- An error that is raised is never caught, and nothing is printed after it. -/
theorem Raises.sink_eq {action : Action EvalError α} {context point : Context}
    {error : EvalError} (raised : Raises action context error point) :
    ∃ after, action context = .failed error after ∧ after.sink = point.sink := by
  induction raised with
  | fail => exact ⟨_, rfl, rfl⟩
  | lookup fails | write fails | flush fails => exact ⟨_, fails, rfl⟩
  | first _ ih =>
      obtain ⟨after, fails, sink⟩ := ih
      exact ⟨after, by simp only [Bind.bind, Action.bind, fails], sink⟩
  | next returns _ ih =>
      obtain ⟨after, fails, sink⟩ := ih
      exact ⟨after, by simp only [Bind.bind, Action.bind, returns, fails], sink⟩
  | inSnapshot _ ih =>
      obtain ⟨after, fails, sink⟩ := ih
      exact ⟨{ after with env := after.env.restore }, by simp only [Action.inSnapshot, fails], sink⟩
  | @reported builtin _ _ _ error _ ih =>
      obtain ⟨after, fails, sink⟩ := ih
      exact ⟨{ after with log := .failed builtin error :: after.log },
        by simp only [Action.reported, fails], sink⟩

/-- What the log says about an action, from its beginning to its end. -/
structure Unwinds (action : Action EvalError α) : Prop where
  /-- All calls have ended with a result. -/
  returned : ∀ context value after, action context = .returned value after →
    ∃ records, after.log = records.reverse ++ context.log ∧ Record.LeaveOpen [] records
  /-- All calls that were open when the error was raised have failed with it, and nothing else has
      been logged since. -/
  failed : ∀ context error after, action context = .failed error after →
    ∃ point records calls, action.Raises context error point ∧
      point.log = records.reverse ++ context.log ∧ Record.LeaveOpen calls records ∧
      after.log = (calls.map (Record.failed · error)).reverse ++ point.log

namespace Unwinds

/-- A step that logs nothing, and that raises its errors itself. -/
theorem of_quiet {action : Action EvalError α}
    (quiet : ∀ context after, (action context).after? = some after → after.log = context.log)
    (raises : ∀ context error after, action context = .failed error after →
      action.Raises context error after) : action.Unwinds where
  returned context value after returns :=
    ⟨[], quiet context after (by rw [returns]; rfl), .nil⟩
  failed context error after fails :=
    ⟨after, [], [], raises context error after fails, quiet context after (by rw [fails]; rfl),
      .nil, rfl⟩

theorem record {entry : Record} (other : entry.isOfCall = false) :
    (Action.record entry : Action EvalError Unit).Unwinds where
  returned context value after returns := by
    cases returns
    exact ⟨[entry], rfl, .of_not_calls (by simpa using other)⟩
  failed context error after fails := by cases fails

theorem bind {action : Action EvalError α} {next : α → Action EvalError β}
    (first : action.Unwinds) (later : ∀ value, (next value).Unwinds) :
    (action >>= next).Unwinds where
  returned context value after returns := by
    simp only [Bind.bind, Action.bind] at returns
    cases outcome : action context with
    | returned found middle =>
        rw [outcome] at returns
        obtain ⟨before, begun, settled⟩ := first.returned context found middle outcome
        obtain ⟨records, ended, settled'⟩ := (later found).returned middle value after returns
        exact ⟨before ++ records, by simp [ended, begun], settled.append settled'⟩
    | failed | unfinished =>
        rw [outcome] at returns
        cases returns
  failed context error after fails := by
    simp only [Bind.bind, Action.bind] at fails
    cases outcome : action context with
    | returned found middle =>
        rw [outcome] at fails
        obtain ⟨before, begun, settled⟩ := first.returned context found middle outcome
        obtain ⟨point, records, calls, raised, log, leave, unwound⟩ :=
          (later found).failed middle error after fails
        exact ⟨point, before ++ records, calls, .next outcome raised, by simp [log, begun],
          settled.append leave, unwound⟩
    | failed cause last =>
        rw [outcome] at fails
        cases fails
        obtain ⟨point, records, calls, raised, shape⟩ := first.failed context error after outcome
        exact ⟨point, records, calls, .first raised, shape⟩
    | unfinished =>
        rw [outcome] at fails
        cases fails

theorem lookup (name : String) : (lookup name).Unwinds := by
  refine of_quiet ?_ fun _ _ _ fails => .lookup fails
  intro context after ends
  unfold Action.lookup at ends
  split at ends <;> cases ends <;> rfl

theorem ask {request : Sink → Except SinkError Unit × Sink}
    (raises : ∀ {context error after}, ask request context = .failed error after →
      (ask request).Raises context error after) : (ask request).Unwinds := by
  refine of_quiet ?_ fun _ _ _ fails => raises fails
  intro context after ends
  unfold Action.ask at ends
  split at ends <;> cases ends <;> rfl

/-- A call of a built-in is logged before and after what it does. -/
theorem called (builtin : Builtin) (args : List Atom) {action : Action EvalError Value}
    (inside : action.Unwinds) :
    (do Action.record (.called builtin args); reported builtin action).Unwinds where
  returned context value after returns := by
    simp only [Bind.bind, Action.bind, Action.record, reported] at returns
    split at returns <;> cases returns
    rename_i last outcome
    obtain ⟨records, ended, settled⟩ := inside.returned _ _ _ outcome
    exact ⟨_, by simp [ended], settled.resulted builtin args value⟩
  failed context error after fails := by
    simp only [Bind.bind, Action.bind, Action.record, reported] at fails
    split at fails <;> cases fails
    rename_i last outcome
    obtain ⟨point, records, calls, raised, log, leave, unwound⟩ := inside.failed _ _ _ outcome
    exact ⟨point, _, _, .next rfl (.reported raised), by simp [log], leave.called builtin args,
      by simp [unwound]⟩

theorem inSnapshot {action : Action EvalError α} (inside : action.Unwinds) :
    action.inSnapshot.Unwinds where
  returned context value after returns := by
    unfold Action.inSnapshot at returns
    split at returns <;> cases returns
    rename_i last outcome
    exact inside.returned { context with env := context.env.snapshot } value last outcome
  failed context error after fails := by
    unfold Action.inSnapshot at fails
    split at fails <;> cases fails
    rename_i last outcome
    obtain ⟨point, records, calls, raised, shape⟩ := inside.failed _ _ _ outcome
    exact ⟨point, records, calls, .inSnapshot raised, shape⟩

theorem closed : Closed Unwinds where
  pure _ := of_quiet (by rintro _ _ ⟨⟩; rfl) (by rintro _ _ _ ⟨⟩)
  bind := bind
  fail _ := of_quiet (by rintro _ _ ⟨⟩; rfl) (by rintro _ _ _ ⟨⟩; exact .fail)
  unfinished _ := of_quiet (by rintro _ _ ⟨⟩) (by rintro _ _ _ ⟨⟩)
  record _ := record
  freshIdentity := of_quiet (by rintro _ _ ⟨⟩; rfl) (by rintro _ _ _ ⟨⟩)
  lookup := lookup
  write _ := ask .write
  flush := ask .flush
  called builtin args inside := called builtin args inside
  bindAll _ := of_quiet (by rintro _ _ ⟨⟩; rfl) (by rintro _ _ _ ⟨⟩)
  inSnapshot := inSnapshot

end Unwinds

end Action

theorem Evaluation.eval_unwinds (bound : Nat) (code : Atom) : (eval bound code).Unwinds :=
  eval_closed Action.Unwinds.closed bound code

end Homoiconic
