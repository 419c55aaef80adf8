import Mathlib.Data.List.SplitBy
import Homoiconic.Proofs.Console.Blank

/-! # The console and the session

What a console does with the lines typed at it is what a session does that runs those that are not
blank, one after the other, whether they fail or not. Its rows are the lines, each with what came of
it below, and its history is the lines that were run, where a line counts once as long as it is
repeated. What else is read only adds rows, and the first thing that is not a line or a signal ends
it all.
-/

namespace Homoiconic

namespace Session

/-- What comes of a line: a text to show, or nothing to show, or an error. -/
abbrev Reply :=
  Except RunError (Option String)

/-- The line comes to an end with this reply and this context, within some bound. -/
inductive Replies (line : String) (context : Context) : Reply → Context → Prop where
  | shown {bound : Nat} {text : Option String} {after : Context} :
      rep bound line context = .returned text after → Replies line context (.ok text) after
  | failed {bound : Nat} {error : RunError} {after : Context} :
      rep bound line context = .failed error after → Replies line context (.error error) after

/-- So do these lines, one after the other. A line that fails does not keep the others from being
    run. -/
inductive RepliesAll : List String → Context → List Reply → Context → Prop where
  | nil {context : Context} : RepliesAll [] context [] context
  | cons {line : String} {lines : List String} {context middle after : Context} {reply : Reply}
      {replies : List Reply} :
      Replies line context reply middle → RepliesAll lines middle replies after →
      RepliesAll (line :: lines) context (reply :: replies) after

end Session

namespace Console

open Homoiconic.Session (Reply Replies RepliesAll start get?_do_start rep_of_error rep_of_le
  rep_of_value rep_unreadable)

/-- The lines that are typed before the input ends or cannot be read. -/
def typed : List Input → List String
  | .line line :: inputs => line :: typed inputs
  | .signal _ :: inputs => typed inputs
  | .endOfInput :: _ | .failure _ :: _ | [] => []

/-- The lines that are not blank after trimming. -/
def nonblank (lines : List String) : List String :=
  lines.filter (WhiteSpace.trim · ≠ "")

/-- The lines with each run of equal lines reduced to one. -/
def reduced (lines : List String) : List String :=
  (lines.splitBy (· == ·)).filterMap List.head?

/-- What is written for a reply. Errors are red on a terminal, and plain elsewhere. -/
def written (output : StandardOutput) : Reply → Option String
  | .ok shown => shown
  | .error error =>
      match output.isTerminal with
      | false => some ("error: " ++ error.message)
      | true => some (output.red ("error: " ++ error.message))

/-- The lines as they are typed, and below each that is not blank what is written for its reply;
    between them the signals, and at the end the reason why the input cannot be read. -/
def transcript (output : StandardOutput) : List Input → List Reply → List String
  | .line line :: inputs, replies =>
      (prompt ++ line) ::
        if WhiteSpace.trim line = "" then transcript output inputs replies
        else
          (replies.head?.bind (written output)).toList ++ transcript output inputs replies.tail
  | .signal name :: inputs, replies =>
      ("Received signal " ++ name) :: transcript output inputs replies
  | .failure description :: _, _ => ["Error: " ++ description]
  | .endOfInput :: _, _ | [], _ => []

section History

variable {line next : String} {lines : List String}

theorem reduced_repeated : reduced (line :: line :: lines) = reduced (line :: lines) := by
  obtain ⟨run, runs, split⟩ :
      ∃ run runs, (line :: lines).splitBy (· == ·) = (line :: run) :: runs := by
    cases split : (line :: lines).splitBy (· == ·) with
    | nil => simp at split
    | cons first runs =>
        have whole := List.flatten_splitBy (· == ·) (line :: lines)
        have filled := List.ne_nil_of_mem_splitBy (split ▸ List.mem_cons_self)
        obtain ⟨head, run, rfl⟩ := List.exists_cons_of_ne_nil filled
        rw [split] at whole
        cases whole
        exact ⟨run, runs, rfl⟩
  have longer : (line :: line :: lines).splitBy (· == ·) = (line :: line :: run) :: runs := by
    obtain ⟨whole, filled, equal, apart⟩ := List.splitBy_eq_iff.mp split
    rw [List.splitBy_eq_iff]
    refine ⟨?_, ?_, ?_, ?_⟩
    · rw [whole]
      rfl
    · simpa using filled
    · simpa using equal
    · cases runs with
      | nil => simp
      | cons next runs => simpa using apart
  rw [reduced, reduced, split, longer]
  rfl

theorem reduced_other (other : line ≠ next) :
    reduced (line :: next :: lines) = line :: reduced (next :: lines) := by
  have split := List.splitBy_append_cons (r := (· == ·)) (l := [line]) (a := next) lines
    (by simpa using other)
  rw [reduced, ← List.singleton_append, split]
  rfl

/-- The history goes on with the lines in reduced form. -/
theorem foldl_remember (line : String) (older lines : List String) :
    lines.foldl (flip remember) (line :: older) = (reduced (line :: lines)).reverse ++ older := by
  induction lines generalizing line older with
  | nil => rfl
  | cons next lines ih =>
      rw [List.foldl_cons, flip, remember]
      split
      next same => rw [ih, same, reduced_repeated]
      next other =>
        rw [ih, reduced_other (Ne.symm other), List.reverse_cons, List.append_assoc]
        rfl

theorem foldl_remember_nil (lines : List String) :
    lines.foldl (flip remember) [] = (reduced lines).reverse := by
  cases lines with
  | nil => rfl
  | cons line lines => exact (foldl_remember line [] lines).trans (List.append_nil _)

end History

section Run

variable {bound : Nat} {output : StandardOutput} {line : String} {lines : List String}
  {inputs : List Input} {context after : Context} {console : Console} {reply : Reply}
  {replies : List Reply}

theorem written_error (output : StandardOutput) (error : RunError) :
    written output (.error error) = some (complaint output error) := by
  rw [written, complaint]
  cases output.isTerminal <;> rfl

theorem answer_of_replies (replied : Replies line context reply after) :
    ∃ enough, ∀ bound ≥ enough,
      answer bound output line context = some (written output reply, after) := by
  cases replied with
  | @shown enough text _ returned =>
      refine ⟨enough, fun bound le => ?_⟩
      rw [answer, rep_of_le le (by simp [returned]), returned]
      rfl
  | @failed enough error _ fails =>
      refine ⟨enough, fun bound le => ?_⟩
      rw [answer, rep_of_le le (by simp [fails]), fails, written_error]

theorem replies_of_answer {row : Option String}
    (answered : answer bound output line context = some (row, after)) :
    ∃ reply, Replies line context reply after := by
  rw [answer] at answered
  cases ran : Session.rep bound line context with
  | returned shown _ =>
      rw [ran] at answered
      cases answered
      exact ⟨_, .shown ran⟩
  | failed error _ =>
      rw [ran] at answered
      cases answered
      exact ⟨_, .failed ran⟩
  | unfinished =>
      rw [ran] at answered
      cases answered

theorem enter_filled (filled : WhiteSpace.trim line ≠ "") :
    enter bound console line =
      (answer bound console.output line console.context).map fun (row, context) =>
        { console with
          context
          rows := row.toList ++ (prompt ++ line) :: console.rows
          history := remember line console.history } := by
  rw [enter, if_neg (mt (WhiteSpace.trim_eq_empty_iff line).mpr filled)]

/-- A line that is not blank is written, run, answered and remembered. -/
theorem enter_of_replies (filled : WhiteSpace.trim line ≠ "")
    (replied : Replies line console.context reply after) :
    ∃ enough, ∀ bound ≥ enough, enter bound console line =
      some { console with
        context := after
        rows := (written console.output reply).toList ++ (prompt ++ line) :: console.rows
        history := remember line console.history } := by
  obtain ⟨enough, answers⟩ := answer_of_replies replied
  refine ⟨enough, fun bound le => ?_⟩
  rw [enter_filled filled, answers bound le]
  rfl

theorem replies_of_enter {next : Console} (filled : WhiteSpace.trim line ≠ "")
    (entered : enter bound console line = some next) :
    ∃ reply, Replies line console.context reply next.context := by
  rw [enter_filled filled] at entered
  obtain ⟨⟨row, middle⟩, answered, rfl⟩ := Option.map_eq_some_iff.mp entered
  exact replies_of_answer answered

theorem converse_line : converse bound console (.line line :: inputs) =
    (enter bound console line).bind (converse bound · inputs) :=
  rfl

theorem nonblank_blank (blank : WhiteSpace.trim line = "") :
    nonblank (line :: lines) = nonblank lines :=
  List.filter_cons_of_neg (by simpa using blank)

theorem nonblank_filled (filled : WhiteSpace.trim line ≠ "") :
    nonblank (line :: lines) = line :: nonblank lines :=
  List.filter_cons_of_pos (by simpa using filled)

/-- A session is carried out by the console, wherever it begins. -/
theorem converse_of_replies
    (session : RepliesAll (nonblank (typed inputs)) console.context replies after) :
    ∃ enough, ∀ bound ≥ enough, converse bound console inputs =
      some { console with
        context := after
        rows := (transcript console.output inputs replies).reverse ++ console.rows
        history := (nonblank (typed inputs)).foldl (flip remember) console.history } := by
  induction inputs generalizing console replies with
  | nil =>
      cases session
      exact ⟨0, fun _ _ => rfl⟩
  | cons input inputs ih =>
      cases input with
      | line line =>
          rw [typed] at session ⊢
          by_cases blank : WhiteSpace.trim line = ""
          · rw [nonblank_blank blank] at session ⊢
            obtain ⟨enough, goesOn⟩ :=
              @ih { console with rows := (prompt ++ line) :: console.rows } _ session
            refine ⟨enough, fun bound le => ?_⟩
            rw [converse_line, enter_blank blank]
            exact (goesOn bound le).trans (by simp [transcript, blank])
          · rw [nonblank_filled blank] at session ⊢
            cases session with
            | @cons _ _ _ middle _ reply replies replied session =>
                obtain ⟨enough, enters⟩ := enter_of_replies blank replied
                obtain ⟨enough', goesOn⟩ := @ih { console with
                  context := middle
                  rows := (written console.output reply).toList ++
                    (prompt ++ line) :: console.rows
                  history := remember line console.history } _ session
                refine ⟨max enough enough', fun bound le => ?_⟩
                rw [converse_line, enters bound (le_trans (le_max_left ..) le)]
                refine (goesOn bound (le_trans (le_max_right ..) le)).trans ?_
                cases shown : written console.output reply <;>
                  simp [transcript, blank, shown, flip]
      | signal name =>
          obtain ⟨enough, goesOn⟩ :=
            @ih { console with rows := ("Received signal " ++ name) :: console.rows } _ session
          refine ⟨enough, fun bound le => (goesOn bound le).trans ?_⟩
          simp [transcript, typed]
      | endOfInput | failure =>
          cases session
          exact ⟨0, fun _ _ => rfl⟩

/-- A console that comes to an end has carried out a session. -/
theorem replies_of_converse {last : Console}
    (ended : converse bound console inputs = some last) :
    ∃ replies, RepliesAll (nonblank (typed inputs)) console.context replies last.context := by
  induction inputs generalizing console with
  | nil =>
      cases ended
      exact ⟨_, .nil⟩
  | cons input inputs ih =>
      cases input with
      | line line =>
          rw [converse_line] at ended
          obtain ⟨next, entered, ended⟩ := Option.bind_eq_some_iff.mp ended
          obtain ⟨replies, session⟩ := ih ended
          rw [typed]
          by_cases blank : WhiteSpace.trim line = ""
          · rw [enter_blank blank] at entered
            cases entered
            rw [nonblank_blank blank]
            exact ⟨replies, session⟩
          · obtain ⟨reply, replied⟩ := replies_of_enter blank entered
            rw [nonblank_filled blank]
            exact ⟨reply :: replies, .cons replied session⟩
      | signal name =>
          exact @ih { console with rows := ("Received signal " ++ name) :: console.rows } ended
      | endOfInput | failure =>
          cases ended
          exact ⟨_, .nil⟩

end Run

/-- A console comes to its end just if the session with the typed lines that are not blank does; and
    then it has the context that the session leaves, its rows are the transcript of the session, and
    its history is the lines of the session, with each run of equal lines reduced to one. What the
    standard output is makes a difference only to the way in which errors are written. -/
theorem console_refines_session (context : Context) (output : StandardOutput)
    (inputs : List Input) (last : Console) :
    (∃ enough, ∀ bound ≥ enough, converse bound { context, output } inputs = some last) ↔
      ∃ replies after, RepliesAll (nonblank (typed inputs)) context replies after ∧
        last.context = after ∧ last.output = output ∧
        last.rows.reverse = transcript output inputs replies ∧
        last.history.reverse = reduced (nonblank (typed inputs)) := by
  constructor
  · rintro ⟨enough, ended⟩
    obtain ⟨replies, session⟩ := replies_of_converse (ended enough le_rfl)
    obtain ⟨enough', carried⟩ := converse_of_replies session
    have same := (ended (max enough enough') (le_max_left ..)).symm.trans
      (carried (max enough enough') (le_max_right ..))
    rw [foldl_remember_nil, List.append_nil, Option.some.injEq] at same
    exact ⟨replies, _, session, rfl, by rw [same], by rw [same, List.reverse_reverse],
      by rw [same, List.reverse_reverse]⟩
  · rintro ⟨replies, after, session, rfl, rfl, rows, history⟩
    obtain ⟨enough, carried⟩ :=
      @converse_of_replies _ _ { context, output := last.output } _ session
    refine ⟨enough, fun bound le => (carried bound le).trans ?_⟩
    rw [foldl_remember_nil, ← rows, ← history]
    simp

/-- Equal lines with a blank one or a signal between them, and lines that fail, count once in the
    history, but each of them is run and answered; and on a terminal the same errors are red. -/
theorem console_refines_session_repeated :
    (∃ last, (∃ enough, ∀ bound ≥ enough, converse bound { context := start {} }
        [.line "7", .line "\u00a0", .line "7", .signal "Interrupt", .line ")", .line ")",
          .line ";", .line "x", .failure "broken pipe", .line "7"] = some last) ∧
      last.rows.reverse =
        [">>> 7", "7", ">>> \u00a0", ">>> 7", "7", "Received signal Interrupt",
          ">>> )", "error: syntax error: unexpected token ')' at 0",
          ">>> )", "error: syntax error: unexpected token ')' at 0",
          ">>> ;", ">>> x", "error: undefined variable 'x'", "Error: broken pipe"] ∧
      last.history.reverse = ["7", ")", ";", "x"]) ∧
    ∃ last, (∃ enough, ∀ bound ≥ enough,
        enterAll bound { context := start {}, output := { isTerminal := true } }
          ["7", "\u00a0", "7", ")", ")", ";", "x"] = some last) ∧
      last.rows.reverse =
        [">>> 7", "7", ">>> \u00a0", ">>> 7", "7",
          ">>> )", "\x1b[31merror: syntax error: unexpected token ')' at 0\x1b[0m",
          ">>> )", "\x1b[31merror: syntax error: unexpected token ')' at 0\x1b[0m",
          ">>> ;", ">>> x", "\x1b[31merror: undefined variable 'x'\x1b[0m"] ∧
      last.history.reverse = ["7", ")", ";", "x"] := by
  have seven : ∀ log, ∃ later, Replies "7" { start {} with log } (.ok (some "7"))
      { start {} with log := later } := by
    intro log
    have readable : read "7" = .ok (.list [.symbol "do", .quoted (.number 7)]) := by decide +kernel
    obtain ⟨later, returned⟩ := @rep_of_value 1 _ { start {} with log } (.integer 7) _
      readable (get?_do_start {}) rfl
    exact ⟨later, .shown returned⟩
  have nothing : ∀ log, ∃ later, Replies ";" { start {} with log } (.ok none)
      { start {} with log := later } := by
    intro log
    have readable : read ";" = .ok (.list [.symbol "do", .quoted (.list [])]) := by decide +kernel
    obtain ⟨later, returned⟩ := @rep_of_value 1 _ { start {} with log } .nil _
      readable (get?_do_start {}) rfl
    exact ⟨later, .shown returned⟩
  have misplaced : ∀ log, ∃ later, Replies ")" { start {} with log }
      (.error (.unreadable (.unexpectedToken ")" none 0))) { start {} with log := later } := by
    intro log
    have unreadable : read ")" = .error (.unexpectedToken ")" none 0) := by decide +kernel
    exact ⟨_, .failed (rep_unreadable 0 unreadable { start {} with log })⟩
  have unknown : ∀ log, ∃ later, Replies "x" { start {} with log }
      (.error (.evaluation (.undefinedVariable "x"))) { start {} with log := later } := by
    intro log
    have readable : read "x" = .ok (.list [.symbol "do", .quoted (.symbol "x")]) := by
      decide +kernel
    have unbound : (start {}).env.get? "x" = none := by decide +kernel
    have fails := @Evaluation.eval_unknown _ (Context.withoutLog { start {} with log }) unbound 1
    obtain ⟨later, failed⟩ := @rep_of_error 1 _ { start {} with log } _ (.undefinedVariable "x")
      readable (get?_do_start {}) (by
        simp only [Evaluation.sequence, Atom.unquoted, Bind.bind, Action.bind, fails]
        rfl)
    exact ⟨later, .failed failed⟩
  obtain ⟨log₁, first⟩ := seven (start {}).log
  obtain ⟨log₂, second⟩ := seven log₁
  obtain ⟨log₃, third⟩ := misplaced log₂
  obtain ⟨log₄, fourth⟩ := misplaced log₃
  obtain ⟨log₅, fifth⟩ := nothing log₄
  obtain ⟨log₆, sixth⟩ := unknown log₅
  have session := RepliesAll.cons first (.cons second (.cons third (.cons fourth
    (.cons fifth (.cons sixth .nil)))))
  have carried (output : StandardOutput) {inputs : List Input}
      (filled : nonblank (typed inputs) = ["7", "7", ")", ")", ";", "x"]) :=
    (console_refines_session _ output inputs ⟨_, output, List.reverse _, List.reverse _⟩).mpr
      ⟨_, _, filled ▸ session, rfl, rfl, List.reverse_reverse _, List.reverse_reverse _⟩
  refine ⟨⟨_, carried {} ?_, (List.reverse_reverse _).trans ?_, (List.reverse_reverse _).trans ?_⟩,
    ⟨_, carried { isTerminal := true } ?_, (List.reverse_reverse _).trans ?_,
      (List.reverse_reverse _).trans ?_⟩⟩
  all_goals decide +kernel

end Console

end Homoiconic
