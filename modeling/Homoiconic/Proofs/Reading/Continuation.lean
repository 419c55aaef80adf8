import Mathlib.Control.Monad.Basic
import Mathlib.Data.List.Induction
import Homoiconic.Proofs.Reading.Soundness
import Homoiconic.Proofs.Token.Growth

/-! # Reading a text that goes on

A text fails to be a program in one of two ways. Either some token has no place where it stands, and
then no text that goes on with it is a program. Or all tokens have a place and only the end of the
text comes too early. Then the forms that are open can be closed one after the other, from the
inside out, and each takes a known number of tokens, so that some continuation is a program.
-/

namespace Homoiconic

/-- The text ends too early: more text can still make it a program. -/
def ReadError.isIncomplete : ReadError → Bool
  | .unexpectedEnd _ | .danglingQuote _ => true
  | .unexpectedToken .. | .malformedBracket _ | .badInteger .. => false

/-- The errors of a text that goes on with the characters `more`, for which its own error stands:
    the same one, but that a number out of range may have got more digits. -/
inductive ReadError.Persists (more : List Char) : ReadError → ReadError → Prop where
  | same {cause : ReadError} : Persists more cause cause
  | digits {literal : String} {offset : Nat} {digits rest : List Char} :
      more = digits ++ rest → (∀ c ∈ digits, c.isDigit) →
      Persists more (.badInteger literal offset)
        (.badInteger (literal ++ String.ofList digits) offset)

namespace Nesting

variable {here next outer : Nesting} {token grown : Token} {cause : ReadError}
  {remarks : List Juxtaposition}

/-- Take several tokens, one after the other. -/
def shiftAll (here : Nesting) (tokens : List Token) : Except ReadError Nesting :=
  tokens.foldlM (fun here token => Prod.fst <$> here.shift token) here

theorem shiftAll_append (here : Nesting) (first second : List Token) :
    here.shiftAll (first ++ second) = here.shiftAll first >>= (·.shiftAll second) :=
  List.foldlM_append

theorem shiftAll_cons (here : Nesting) (token : Token) (rest : List Token) :
    here.shiftAll (token :: rest) = Prod.fst <$> here.shift token >>= (·.shiftAll rest) :=
  List.foldlM_cons

theorem readOn_append (here : Nesting) (tokens rest : List Token) :
    here.readOn (tokens ++ rest) = here.shiftAll tokens >>= (·.readOn rest) := by
  induction tokens generalizing here with
  | nil => rfl
  | cons token others ih =>
      rw [List.cons_append, shiftAll_cons]
      cases shifted : here.shift token with
      | error cause => exact readOn_error shifted _
      | ok shift => exact (readOn_shift shifted _).trans (ih shift.1)

theorem shiftAll_singleton : here.shiftAll [token] = Prod.fst <$> here.shift token := by
  rw [shiftAll_cons]
  cases here.shift token <;> rfl

theorem shiftAll_concat {tokens : List Token} :
    here.shiftAll (tokens ++ [token]) = .ok next ↔
      ∃ middle remarks, here.shiftAll tokens = .ok middle ∧
        middle.shift token = .ok (next, remarks) := by
  rw [shiftAll_append]
  constructor
  · intro shifted
    cases begun : here.shiftAll tokens with
    | error cause =>
        rw [begun] at shifted
        cases shifted
    | ok middle =>
        rw [begun] at shifted
        change middle.shiftAll [token] = _ at shifted
        rw [shiftAll_singleton] at shifted
        cases last : middle.shift token with
        | error cause =>
            rw [last] at shifted
            cases shifted
        | ok step =>
            rw [last] at shifted
            cases shifted
            exact ⟨middle, step.2, rfl, last⟩
  · rintro ⟨middle, remarks, begun, last⟩
    rw [begun]
    change middle.shiftAll [token] = _
    rw [shiftAll_singleton, last]
    rfl

section Errors

theorem isIncomplete_of_finish (fails : here.finish = .error cause) : cause.isIncomplete := by
  cases here <;> cases fails <;> rfl

theorem isIncomplete_of_shift (fails : here.shift token = .error cause) :
    cause.isIncomplete = false := by
  cases refuses_of_shift fails <;> rfl

/-- If some tokens are refused, then one of them is, where those before it lead to. -/
theorem exists_culprit {tokens : List Token}
    (fails : here.shiftAll tokens = .error cause) :
    ∃ before token later middle, tokens = before ++ token :: later ∧
      here.shiftAll before = .ok middle ∧ middle.shift token = .error cause := by
  induction tokens generalizing here with
  | nil => cases fails
  | cons token rest ih =>
      rw [shiftAll_cons] at fails
      cases shifted : here.shift token with
      | error found =>
          rw [shifted] at fails
          cases fails
          exact ⟨[], token, rest, here, rfl, rfl, shifted⟩
      | ok step =>
          rw [shifted] at fails
          obtain ⟨before, culprit, later, middle, rfl, begun, stops⟩ := ih fails
          refine ⟨token :: before, culprit, later, middle, rfl, ?_, stops⟩
          rw [shiftAll_cons, shifted]
          exact begun

theorem isIncomplete_of_shiftAll {tokens : List Token}
    (fails : here.shiftAll tokens = .error cause) : cause.isIncomplete = false := by
  obtain ⟨_, _, _, _, _, _, stops⟩ := exists_culprit fails
  exact isIncomplete_of_shift stops

theorem le_ofDigitChars (digits : List Char) (value : Nat) :
    value ≤ Nat.ofDigitChars 10 digits value := by
  induction digits generalizing value with
  | nil => exact Nat.le_refl _
  | cons c rest ih =>
      rw [Nat.ofDigitChars_cons]
      have more := ih (10 * value + (c.toNat - '0'.toNat))
      omega

/-- More digits do not bring a number back into range. -/
theorem integer?_append {digits : String} (outOfRange : integer? digits = none)
    (added : List Char) : integer? (digits ++ String.ofList added) = none := by
  have more := le_ofDigitChars added (Nat.ofDigitChars 10 digits.toList 0)
  simp only [integer?, ite_eq_right_iff, reduceCtorEq, imp_false, String.toList_append,
    String.toList_ofList, Nat.ofDigitChars_append] at outOfRange ⊢
  omega

/-- A token that has no place here has none if it grows. -/
theorem shift_grown {more : List Char} (fails : here.shift token = .error cause)
    (grows : token.GrowsTo more grown) :
    ∃ cause', here.shift grown = .error cause' ∧ cause.Persists more cause' := by
  obtain ⟨kind, offset, added, rest, rfl, text, digits, fixed⟩ := grows
  by_cases grew : token.kind = .number ∨ token.kind = .symbol
  · have notEnd : token.kind ≠ .endOfInput := by rcases grew with h | h <;> simp [h]
    have notClosing : token.kind ≠ .rightBracket := by rcases grew with h | h <;> simp [h]
    cases full : here.full? with
    | some opened =>
        rw [shift_full full notEnd notClosing] at fails
        cases fails
        exact ⟨_, shift_full full (kind ▸ notEnd) (kind ▸ notClosing), .same⟩
    | none =>
        rcases grew with number | symbol
        · rw [shift_integer number full] at fails
          rw [shift_integer (kind.trans number) full]
          cases inRange : integer? token.text with
          | some value => simp [inRange] at fails
          | none =>
              rw [inRange] at fails
              cases fails
              rw [text, integer?_append inRange, offset]
              exact ⟨_, rfl, .digits rfl (digits number)⟩
        · rw [shift_symbol symbol full] at fails
          cases fails
  · rw [not_or] at grew
    obtain rfl := fixed grew.1 grew.2
    have same : grown = token := by
      cases grown
      cases token
      simp_all
    exact ⟨cause, same ▸ fails, .same⟩

theorem shiftAll_goOn {spelled : List Token} {more : List Char}
    (fails : here.shiftAll (spelled ++ [token]) = .error cause) (grows : token.GrowsTo more grown)
    (others : List Token) :
    ∃ cause', here.shiftAll (spelled ++ grown :: others) = .error cause' ∧
      cause.Persists more cause' := by
  rw [shiftAll_append] at fails ⊢
  cases begun : here.shiftAll spelled with
  | error before =>
      rw [begun] at fails
      cases fails
      exact ⟨cause, rfl, .same⟩
  | ok place =>
      rw [begun] at fails
      change place.shiftAll [token] = _ at fails
      change ∃ cause', place.shiftAll (grown :: others) = _ ∧ _
      rw [shiftAll_cons] at fails ⊢
      cases shifted : place.shift token with
      | ok shift =>
          rw [shifted] at fails
          cases fails
      | error last =>
          rw [shifted] at fails
          cases fails
          obtain ⟨cause', failed, persists⟩ := shift_grown shifted grows
          exact ⟨cause', by rw [failed]; rfl, persists⟩

end Errors

section Closing

/-- No form is open inside a square bracket that has its three forms already, and none has more. -/
def Proper : Nesting → Prop
  | .program _ => True
  | .list outer _ _ | .brace outer _ _ | .mark outer _ => outer.full? = none ∧ outer.Proper
  | .bracket outer _ items => items.length ≤ 3 ∧ outer.full? = none ∧ outer.Proper

theorem Proper.supply (proper : here.Proper) (notFull : here.full? = none) (form : Atom)
    (start : Nat) : (here.supply form start).Proper := by
  induction here generalizing form start with
  | program block => trivial
  | list outer opened items => exact proper
  | brace outer opened block => exact proper
  | mark outer opened ih => exact ih proper.2 proper.1 (.quoted form) opened
  | bracket outer opened items =>
      have room := full?_bracket_eq_none.mp notFull
      have few := proper.1
      refine ⟨?_, proper.2⟩
      rw [List.length_cons]
      omega

theorem Proper.shift (proper : here.Proper) (shifted : here.shift token = .ok (next, remarks)) :
    next.Proper := by
  cases takes_of_shift shifted with
  | endOfInput => exact proper
  -- What is opened here is not inside a full bracket.
  | leftParen _ notFull | leftBrace _ notFull | quoteMark _ notFull => exact ⟨notFull, proper⟩
  | leftBracket _ notFull => exact ⟨by simp, notFull, proper⟩
  | symbol _ notFull | number _ notFull => exact proper.supply notFull _ _
  | semicolon => trivial
  | semicolonInBrace => exact proper
  | rightParen | rightBrace => exact proper.2.supply proper.1 _ _
  | rightBracket => exact proper.2.2.supply proper.2.1 _ _

theorem Proper.shiftAll {tokens : List Token} (proper : here.Proper)
    (shifted : here.shiftAll tokens = .ok next) : next.Proper := by
  induction tokens using List.reverseRecOn generalizing next with
  | nil =>
      cases shifted
      exact proper
  | append_singleton tokens token ih =>
      obtain ⟨middle, remarks, begun, last⟩ := shiftAll_concat.mp shifted
      exact (ih begun).shift last

/-- A character that, as a token, brings the place nearer to the end of the program, unless it is
    there already. -/
def wanted? (here : Nesting) : Option Char :=
  match here with
  | .program _ => none
  | .list .. => some ')'
  | .brace .. => some '\x7d'
  | .mark .. => some 'x'
  | .bracket .. => if here.full?.isSome then some ']' else some 'x'

/-- How many tokens are enough to get to the end of the program. -/
def demand : Nesting → Nat
  | .program _ => 0
  | .list outer _ _ | .brace outer _ _ | .mark outer _ => outer.demand + 1
  | .bracket outer _ items => outer.demand + 1 + (3 - items.length)

theorem demand_supply (form : Atom) (start : Nat) (here : Nesting) :
    (here.supply form start).demand ≤ here.demand := by
  induction here generalizing form start with
  | program | list | brace => exact Nat.le_refl _
  | bracket outer opened items =>
      simp only [supply, demand, List.length_cons]
      omega
  | mark outer opened ih => exact Nat.le_succ_of_le (ih (.quoted form) opened)

/-- The kind of token that a character is by itself, if it is a delimiter or a name. -/
def kindOf (c : Char) : TokenKind :=
  (Lexeme.punctuation? c).getD .symbol

theorem wanted?_eq_none (arrived : here.wanted? = none) : ∃ block, here = .program block := by
  cases here with
  | program block => exact ⟨block, rfl⟩
  | list | brace | mark => cases arrived
  | bracket outer opened items =>
      simp only [wanted?] at arrived
      split at arrived <;> cases arrived

theorem stands_wanted {c : Char} (wanted : here.wanted? = some c) (rest : List Char) :
    Lexeme.Stands (kindOf c) [c] (' ' :: rest) := by
  have name : Lexeme.Stands .symbol ['x'] (' ' :: rest) := .symbol (by decide) (by simp; decide)
  cases here with
  | program => cases wanted
  | list | brace =>
      cases wanted
      exact .punctuation rfl
  | mark =>
      cases wanted
      exact name
  | bracket outer opened items =>
      simp only [wanted?] at wanted
      split at wanted <;> cases wanted
      · exact .punctuation rfl
      · exact name

theorem shift_wanted (proper : here.Proper) {c : Char} (wanted : here.wanted? = some c)
    (kind : token.kind = kindOf c) :
    ∃ next remarks, here.shift token = .ok (next, remarks) ∧ next.demand < here.demand := by
  cases here with
  | program block => cases wanted
  | list outer opened items =>
      cases wanted
      exact ⟨_, _, shift_rightParen kind, Nat.lt_succ_of_le (demand_supply _ _ outer)⟩
  | brace outer opened block =>
      cases wanted
      exact ⟨_, _, shift_rightBrace kind, Nat.lt_succ_of_le (demand_supply _ _ outer)⟩
  | mark outer opened =>
      cases wanted
      exact ⟨_, _, shift_symbol kind rfl, Nat.lt_succ_of_le (demand_supply _ _ outer)⟩
  | bracket outer opened items =>
      by_cases three : items.length = 3
      · match items, three with
        | [right, operator, left], _ =>
        cases wanted
        exact ⟨_, _, shift_rightBracket kind, Nat.lt_succ_of_le (demand_supply _ _ outer)⟩
      · have notFull : (bracket outer opened items).full? = none := full?_bracket_eq_none.mpr three
        have name : c = 'x' := by simpa [wanted?, notFull] using wanted.symm
        subst name
        refine ⟨_, _, shift_symbol kind notFull, ?_⟩
        have few := proper.1
        simp only [supply, demand, List.length_cons]
        omega

/-- What is open can be closed, after a blank: one token after the other lowers the demand, and
    where nothing is wanted the program may end. -/
theorem exists_closing {here : Nesting} (proper : here.Proper) (offset : Nat) :
    ∃ more tokens, Spells offset (' ' :: more) tokens ∧
      ∀ ending : Token, ending.kind = .endOfInput →
        ∃ program, here.readOn (tokens ++ [ending]) = .ok program := by
  cases wanted : here.wanted? with
  | none =>
      obtain ⟨block, rfl⟩ := wanted?_eq_none wanted
      refine ⟨[], [], .blanks (by simp [Lexeme.isBlank]), ?_⟩
      intro ending isEnd
      exact ⟨block.close, readOn_shift (shift_endOfInput isEnd) []⟩
  | some c =>
      let token : Token := ⟨kindOf c, String.ofList [c], offset + byteLength [' ']⟩
      have isKind : token.kind = kindOf c := rfl
      obtain ⟨next, remarks, shifted, less⟩ := shift_wanted proper wanted isKind
      obtain ⟨more, tokens, spells, closes⟩ :=
        exists_closing (proper.shift shifted) (offset + byteLength ([' '] ++ [c]))
      refine ⟨c :: ' ' :: more, token :: tokens,
        .token (by simp [Lexeme.isBlank]) (stands_wanted wanted more) spells, ?_⟩
      intro ending isEnd
      obtain ⟨program, read⟩ := closes ending isEnd
      exact ⟨program, (readOn_shift shifted _).trans read⟩
termination_by here.demand

end Closing

end Nesting

open Nesting

/-- What reading makes of a text is decided by its tokens before the end. -/
theorem read_eq_finish {source : String} {spelled : List Token}
    (spells : Spells 0 source.toList spelled) :
    read source = start.shiftAll spelled >>= fun here => Prod.fst <$> here.finish := by
  rw [read_eq_readOn, (spells_iff source spelled).mp spells, readOn_append]
  congr 1
  funext here
  rw [readOn_shift (shift_endOfInput rfl)]
  simp only [readOn, Reading.ofTokens]
  cases here.finish <;> rfl

/-- A text is no program because of one of its tokens, and that is final, or because it ends too
    early, and that is not. -/
theorem error_cases {source : String} {spelled : List Token} {cause : ReadError}
    (spells : Spells 0 source.toList spelled) (fails : read source = .error cause) :
    (start.shiftAll spelled = .error cause ∧ cause.isIncomplete = false) ∨
      ∃ here, start.shiftAll spelled = .ok here ∧ here.Proper ∧ cause.isIncomplete := by
  rw [read_eq_finish spells] at fails
  cases place : start.shiftAll spelled with
  | error found =>
      rw [place] at fails
      cases fails
      exact .inl ⟨rfl, isIncomplete_of_shiftAll place⟩
  | ok here =>
      rw [place] at fails
      change Prod.fst <$> here.finish = .error cause at fails
      have proper : start.Proper := trivial
      cases finished : here.finish with
      | error found =>
          rw [finished] at fails
          cases fails
          exact .inr ⟨here, rfl, proper.shiftAll place, isIncomplete_of_finish finished⟩
      | ok finish =>
          rw [finished] at fails
          cases fails

theorem exists_program {source : String} {cause : ReadError} (fails : read source = .error cause)
    (incomplete : cause.isIncomplete) : ∃ more program, read (source ++ more) = .ok program := by
  obtain ⟨spelled, spells⟩ := exists_spells 0 source.toList
  rcases error_cases spells fails with ⟨_, final⟩ | ⟨here, place, proper, _⟩
  · rw [incomplete] at final
    cases final
  · obtain ⟨more, tokens, later, closes⟩ :=
      exists_closing proper (0 + byteLength source.toList)
    have whole := spells.append (by decide) later
    obtain ⟨program, closed⟩ := closes ⟨.endOfInput, "", _⟩ rfl
    refine ⟨String.ofList (' ' :: more), program, ?_⟩
    rw [read_eq_readOn, (spells_iff _ (spelled ++ tokens)).mp (by simpa using whole),
      List.append_assoc, readOn_append, place]
    exact closed

theorem error_persists {source : String} {cause : ReadError} (fails : read source = .error cause)
    (final : cause.isIncomplete = false) (more : String) :
    ∃ cause', read (source ++ more) = .error cause' ∧ cause.Persists more.toList cause' := by
  obtain ⟨spelled, spells⟩ := exists_spells 0 source.toList
  rcases error_cases spells fails with ⟨failed, _⟩ | ⟨_, _, _, incomplete⟩
  · rcases List.eq_nil_or_concat spelled with rfl | ⟨before, last, rfl⟩
    · cases failed
    · rw [List.concat_eq_append] at spells failed
      obtain ⟨grown, others, grows, whole⟩ := spells.goOn more.toList
      obtain ⟨cause', failed', persists⟩ := shiftAll_goOn failed grows others
      refine ⟨cause', ?_, persists⟩
      rw [read_eq_finish (by simpa using whole), failed']
      rfl
  · rw [final] at incomplete
    cases incomplete

/-- An error that speaks of the end of the text says that the text is the beginning of a program.
    Any other error says that it is not, and stays whatever the text goes on with. -/
theorem errors_tell_incomplete_from_hopeless (source : String) (cause : ReadError)
    (fails : read source = .error cause) :
    (cause.isIncomplete → ∃ more program, read (source ++ more) = .ok program) ∧
    (cause.isIncomplete = false → ∀ more,
      ∃ cause', read (source ++ more) = .error cause' ∧ cause.Persists more.toList cause') :=
  ⟨exists_program fails, error_persists fails⟩

theorem errors_tell_incomplete_from_hopeless_in_brackets :
    read "(a [1 \x60" = .error (.danglingQuote 6) ∧
      (∃ more program, read ("(a [1 \x60" ++ more) = .ok program) ∧
      read "(a [1 2 3 45" = .error (.malformedBracket 3) ∧
      ∀ more, ∃ cause, read ("(a [1 2 3 45" ++ more) = .error cause ∧
        (ReadError.malformedBracket 3).Persists more.toList cause := by
  have incomplete : read "(a [1 \x60" = .error (.danglingQuote 6) := by decide +kernel
  have hopeless : read "(a [1 2 3 45" = .error (.malformedBracket 3) := by decide +kernel
  exact ⟨incomplete, (errors_tell_incomplete_from_hopeless _ _ incomplete).1 rfl,
    hopeless, (errors_tell_incomplete_from_hopeless _ _ hopeless).2 rfl⟩

end Homoiconic
