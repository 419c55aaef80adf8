import Mathlib.Data.List.DropRight
import Homoiconic.Console
import Homoiconic.Proofs.Evaluation.Calls
import Homoiconic.Proofs.Session.Program
import Homoiconic.Proofs.Token.Concatenation

/-! # Lines of nothing but white space

The console passes over a line if trimming leaves nothing of it. That makes no difference as long as
the line has only the blanks that separate tokens: to run it would be to run a program without
statements. But other white space makes up names. A line with some of it is a program that looks up
the first of these names, and fails if nothing is bound to it.
-/

namespace Homoiconic

namespace WhiteSpace

/-- A text without the white space at its two ends. -/
def trim (text : String) : String :=
  .ofList ((text.toList.dropWhile contains).rdropWhile contains)

/-- A text is blank just if trimming leaves nothing of it. -/
theorem trim_eq_empty_iff (text : String) : trim text = "" ↔ isBlankText text := by
  rw [trim, isBlankText, String.ofList_eq_empty_iff, List.rdropWhile_eq_nil_iff, List.all_eq_true,
    ← List.dropWhile_eq_nil_iff, ← List.dropWhile_eq_nil_iff, List.dropWhile_idempotent]

variable {c : Char}

theorem punctuation?_eq_none (white : contains c) : Lexeme.punctuation? c = none := by
  unfold Lexeme.punctuation?
  split <;> first | rfl | exact absurd white (by decide)

theorem isDigit_eq_false (white : contains c) : c.isDigit = false := by
  simp only [contains, ranges, List.any_cons, List.any_nil, Char.toNat, Bool.or_eq_true,
    Bool.and_eq_true, decide_eq_true_eq, Bool.or_false] at white
  simp only [Char.isDigit, Bool.and_eq_false_iff, decide_eq_false_iff_not, ge_iff_le,
    UInt32.le_iff_toNat_le, Char.reduceVal, UInt32.reduceToNat]
  omega

end WhiteSpace

/-- The first word of a text, up to a blank or its end. -/
def firstWord (text : String) : String :=
  .ofList ((text.toList.dropWhile Lexeme.isBlank).takeWhile (!Lexeme.isBlank ·))

section White

variable {text : String} (white : ∀ c ∈ text.toList, WhiteSpace.contains c)

include white

/-- White space spells nothing but names. -/
theorem kind_of_white {token : Token} (member : token ∈ innerTokens text) :
    token.kind = .symbol := by
  obtain ⟨within, rest, stands⟩ := (spells_innerTokens text).stands token member
  generalize token.text.toList = chars at within stands
  generalize token.kind = kind at stands ⊢
  cases stands with
  | punctuation mark =>
      rw [WhiteSpace.punctuation?_eq_none (white _ (within List.mem_cons_self))] at mark
      cases mark
  | number nonempty digits _ =>
      obtain ⟨c, others, rfl⟩ := List.exists_cons_of_ne_nil nonempty
      have digit := digits c List.mem_cons_self
      rw [WhiteSpace.isDigit_eq_false (white c (within List.mem_cons_self))] at digit
      cases digit
  | symbol => rfl

/-- The first of these names is the first word. -/
theorem text_of_white {first : Token} {others : List Token}
    (scanned : innerTokens text = first :: others) : first.text = firstWord text := by
  have kind := kind_of_white white (scanned ▸ List.mem_cons_self)
  have spells := spells_innerTokens text
  rw [scanned] at spells
  rw [firstWord]
  generalize text.toList = chars at white spells ⊢
  cases spells with
  | @token _ blanks name rest shape _ before stands _ =>
      obtain rfl : shape = .symbol := kind
      have isName := Lexeme.isSymbolName_of_stands stands
      have inside : ∀ c ∈ name, Lexeme.isBlank c = false := fun c member =>
        Bool.or_eq_false_iff.mp (Lexeme.isDelimiter_eq_false_of_mem_name isName c member) |>.1
      have filled : name ≠ [] := by
        rintro rfl
        cases isName
      have follows : ∀ c ∈ rest.head?, Lexeme.isBlank c := by
        intro c member
        have after := white c (by simp [List.mem_of_mem_head? member])
        cases stands with
        | punctuation mark =>
            rw [WhiteSpace.punctuation?_eq_none (white _ (by simp))] at mark
            cases mark
        | symbol _ boundary =>
            rcases boundary c member with delimiter | rfl
            · simpa [Lexeme.isDelimiter, WhiteSpace.punctuation?_eq_none after] using delimiter
            · exact absurd after (by decide)
      rw [List.append_assoc, (Lexeme.span_append before ?_).2,
        (Lexeme.span_append (p := (!Lexeme.isBlank ·)) ?_ ?_).1]
      · simpa using inside
      · simpa using follows
      · rw [List.head?_append_of_ne_nil _ filled]
        exact fun c member => inside c (List.mem_of_mem_head? member)

end White

theorem Grammar.Forms.of_symbols {tokens : List Token}
    (symbols : ∀ token ∈ tokens, token.kind = .symbol) (rest : List Token) :
    Forms (tokens ++ rest) (tokens.map (.symbol ·.text)) rest := by
  induction tokens with
  | nil => exact .nil
  | cons token tokens ih =>
      obtain ⟨kind, symbols⟩ := List.forall_mem_cons.mp symbols
      exact .cons (.symbol kind) (ih symbols)

/-- A text with blanks only is the program without statements. -/
theorem read_blank {text : String} (blank : ∀ c ∈ text.toList, Lexeme.isBlank c) :
    read text = .ok (.list [.symbol "do"]) := by
  have scanned := (spells_iff text []).mp (.blanks blank)
  have derived : Grammar.Statements (tokens text) [] [⟨.endOfInput, "", text.utf8ByteSize⟩] := by
    rw [scanned]
    exact .nil
  exact read_of_program (.mk derived rfl)

/-- Other white space is a program with one statement, which begins with the first word. -/
theorem read_white {text : String} (white : ∀ c ∈ text.toList, WhiteSpace.contains c)
    (filled : ¬ ∀ c ∈ text.toList, Lexeme.isBlank c) :
    ∃ others, read text =
      .ok (.list [.symbol "do", Block.statement (.symbol (firstWord text) :: others)]) := by
  cases scanned : innerTokens text with
  | nil =>
      have spells := spells_innerTokens text
      rw [scanned] at spells
      generalize text.toList = chars at filled spells
      cases spells with
      | blanks blank => exact absurd blank filled
  | cons first others =>
      have symbols : ∀ token ∈ first :: others, token.kind = .symbol := fun token member =>
        kind_of_white white (scanned ▸ member)
      have forms := Grammar.Forms.of_symbols symbols [⟨.endOfInput, "", text.utf8ByteSize⟩]
      rw [← scanned, ← tokens_eq_innerTokens, scanned, List.map_cons,
        text_of_white white scanned] at forms
      exact ⟨_, read_of_program (.mk (.last forms (by simp) (.of_forms _)) rfl)⟩

namespace Evaluation

variable {name : String} {context : Context}

/-- A statement that begins with an unknown name fails before anything else is evaluated. -/
theorem eval_unknown_first (unknown : context.env.get? name = none) (others : List Atom)
    (bound : Nat) :
    ∃ log, eval (bound + 2) (Block.statement (.symbol name :: others)).unquoted context =
      .failed (.undefinedVariable name) { context with log } := by
  cases others with
  | nil => exact ⟨_, eval_unknown unknown (bound + 1)⟩
  | cons next others =>
      have fails := @eval_unknown name
        (context.logging (.evaluating (.list (.symbol name :: next :: others)))) unknown bound
      exact ⟨_, eval_list_failed fails⟩

end Evaluation

namespace Session

open Homoiconic.Evaluation (eval_unknown_first)

theorem get?_do_start (sink : Sink) : (start sink).env.get? "do" = some (.builtin .sequence) :=
  Environment.get?_standard .sequence

variable {line : String} {context : Context}

/-- To run a line with blanks only does nothing. -/
theorem rep_blank (head : context.env.get? "do" = some (.builtin .sequence))
    (blank : ∀ c ∈ line.toList, Lexeme.isBlank c) (bound : Nat) :
    ∃ log, rep (bound + 2) line context = .returned none { context with log } :=
  rep_of_value (read_blank blank) head rfl

/-- To run a line with other white space only looks up its first word, if that is not bound. -/
theorem rep_white (head : context.env.get? "do" = some (.builtin .sequence))
    (white : ∀ c ∈ line.toList, WhiteSpace.contains c)
    (filled : ¬ ∀ c ∈ line.toList, Lexeme.isBlank c)
    (unknown : context.env.get? (firstWord line) = none) (bound : Nat) :
    ∃ log, rep (bound + 3) line context =
      .failed (.evaluation (.undefinedVariable (firstWord line))) { context with log } := by
  obtain ⟨others, reads⟩ := read_white white filled
  obtain ⟨log, fails⟩ := @eval_unknown_first _ context.withoutLog unknown others bound
  refine rep_of_error reads head ?_
  simp only [Evaluation.sequence, Bind.bind, Action.bind, fails]
  rfl

end Session

namespace Console

open Homoiconic.Session (start get?_do_start rep_blank rep_white rep_of_le)

/-- A line that is blank after trimming is passed over. -/
theorem enter_blank {line : String} (blank : WhiteSpace.trim line = "") (bound : Nat)
    (console : Console) :
    enter bound console line = some { console with rows := (prompt ++ line) :: console.rows } := by
  rw [enter, if_pos ((WhiteSpace.trim_eq_empty_iff line).mp blank)]

/-- The console passes over every line that is blank after trimming. To run such a line would do
    nothing either, if it consists of the blanks that separate tokens. If it has any other white
    space, it would fail at its first word, unless a value is bound to that. -/
theorem skipped_lines_run {context : Context} {line : String}
    (head : context.env.get? "do" = some (.builtin .sequence))
    (blank : WhiteSpace.trim line = "") :
    (∀ bound console, enter bound console line =
      some { console with rows := (prompt ++ line) :: console.rows }) ∧
    ((∀ c ∈ line.toList, Lexeme.isBlank c) → ∀ bound, ∃ log,
      Session.rep (bound + 2) line context = .returned none { context with log }) ∧
    ((¬ ∀ c ∈ line.toList, Lexeme.isBlank c) → context.env.get? (firstWord line) = none →
      ∀ bound, ∃ log, Session.rep (bound + 3) line context =
        .failed (.evaluation (.undefinedVariable (firstWord line))) { context with log }) := by
  have white : ∀ c ∈ line.toList, WhiteSpace.contains c :=
    List.all_eq_true.mp ((WhiteSpace.trim_eq_empty_iff line).mp blank)
  refine ⟨enter_blank blank, fun blanks => rep_blank head blanks, fun filled unknown => ?_⟩
  exact rep_white head white filled unknown

theorem skipped_lines_run_at_start :
    (∃ log, Session.rep 2 " \t" (start {}) = .returned none { start {} with log }) ∧
    ∃ log, Session.rep 3 " \u00a0\u2003 \u00a0" (start {}) =
      .failed (.evaluation (.undefinedVariable "\u00a0\u2003")) { start {} with log } := by
  constructor
  · have blanks : " \t".toList.all Lexeme.isBlank := by decide
    exact (skipped_lines_run (get?_do_start {}) (by decide +kernel)).2.1
      (List.all_eq_true.mp blanks) 0
  · have filled : ¬ " \u00a0\u2003 \u00a0".toList.all Lexeme.isBlank := by decide
    have word : firstWord " \u00a0\u2003 \u00a0" = "\u00a0\u2003" := by decide +kernel
    have unknown : (start {}).env.get? "\u00a0\u2003" = none := by decide +kernel
    rw [List.all_eq_true] at filled
    rw [← word] at unknown ⊢
    exact (skipped_lines_run (get?_do_start {}) (by decide +kernel)).2.2 filled unknown 0

/-- But it makes a difference whether a no-break space alone is run or passed over. -/
theorem no_break_space_runs_differently :
    ¬ ∀ (context : Context) (line : String),
      context.env.get? "do" = some (.builtin .sequence) → WhiteSpace.trim line = "" →
        ∃ bound after, Session.rep bound line context = .returned none after ∧
          after.env = context.env ∧ after.sink = context.sink := by
  intro unobservable
  obtain ⟨bound, after, returned, -⟩ :=
    unobservable (start {}) "\u00a0" (get?_do_start {}) (by decide +kernel)
  have white : ∀ c ∈ "\u00a0".toList, WhiteSpace.contains c :=
    List.all_eq_true.mp (by decide)
  have filled : ¬ "\u00a0".toList.all Lexeme.isBlank := by decide
  rw [List.all_eq_true] at filled
  obtain ⟨log, fails⟩ := rep_white (get?_do_start {}) white filled (by decide +kernel) bound
  have ends : Session.rep bound "\u00a0" (start {}) ≠ .unfinished := by simp [returned]
  have same := rep_of_le (Nat.le_add_right bound 3) ends
  rw [fails, returned] at same
  cases same

end Console

end Homoiconic
