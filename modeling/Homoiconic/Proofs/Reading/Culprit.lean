import Homoiconic.Proofs.Reading.Continuation
import Homoiconic.Proofs.Reading.Concatenation

/-! # What an error points at

The forms that are open at some place of a program are the tokens that have been opened and not
closed on the way there, each with the forms that have been completed since. So whatever the reader
says about the place where it stops can be found in the text.
-/

namespace Homoiconic

open Grammar

/-- The kind of token that closes what one of this kind opens. -/
def TokenKind.closing? : TokenKind → Option TokenKind
  | .leftParen => some .rightParen
  | .leftBrace => some .rightBrace
  | .leftBracket => some .rightBracket
  | _ => none

/-- Among these tokens each one that opens something has its closing, and the other way round. -/
inductive Balanced : List Token → Prop where
  | nil : Balanced []
  /-- A token that opens and closes nothing. -/
  | plain {token : Token} {rest : List Token} :
      token.kind ∈ [.symbol, .number, .quoteMark, .semicolon] → Balanced rest →
      Balanced (token :: rest)
  | enclosed {opening closing : Token} {inside rest : List Token} :
      opening.kind.closing? = some closing.kind → Balanced inside → Balanced rest →
      Balanced (opening :: inside ++ closing :: rest)

theorem Balanced.append {first second : List Token} (before : Balanced first)
    (after : Balanced second) : Balanced (first ++ second) := by
  induction before with
  | nil => exact after
  | plain kind _ ih => exact .plain kind ih
  | enclosed pair inside _ _ ih =>
      have whole := Balanced.enclosed pair inside ih
      simpa using whole

namespace Grammar

mutual
theorem Form.balanced {first rest : List Token} {form : Atom} (derived : Form first form rest) :
    ∃ used, first = used ++ rest ∧ Balanced used := by
  match derived with
  | @Form.symbol token rest kind => exact ⟨[token], rfl, .plain (by simp [kind]) .nil⟩
  | @Form.number token rest _ kind _ _ => exact ⟨[token], rfl, .plain (by simp [kind]) .nil⟩
  | @Form.list opening closing _ _ _ opens row closes =>
      obtain ⟨used, rfl, inside⟩ := row.balanced
      have pair : opening.kind.closing? = some closing.kind := by rw [opens, closes]; rfl
      exact ⟨opening :: used ++ [closing], by simp, .enclosed pair inside .nil⟩
  | @Form.quoted mark _ _ _ kind quotation =>
      obtain ⟨used, rfl, inside⟩ := quotation.balanced
      exact ⟨mark :: used, rfl, .plain (by simp [kind]) inside⟩
  | @Form.bracket opening closing _ _ _ _ _ _ _ opens one two three closes =>
      obtain ⟨used₁, rfl, inside₁⟩ := one.balanced
      obtain ⟨used₂, rfl, inside₂⟩ := two.balanced
      obtain ⟨used₃, rfl, inside₃⟩ := three.balanced
      have pair : opening.kind.closing? = some closing.kind := by rw [opens, closes]; rfl
      exact ⟨opening :: (used₁ ++ used₂ ++ used₃) ++ [closing], by simp,
        .enclosed pair ((inside₁.append inside₂).append inside₃) .nil⟩
  | @Form.brace opening closing _ _ _ opens row closes =>
      obtain ⟨used, rfl, inside⟩ := row.balanced
      have pair : opening.kind.closing? = some closing.kind := by rw [opens, closes]; rfl
      exact ⟨opening :: used ++ [closing], by simp, .enclosed pair inside .nil⟩

theorem Forms.balanced {first rest : List Token} {items : List Atom}
    (derived : Forms first items rest) : ∃ used, first = used ++ rest ∧ Balanced used := by
  match derived with
  | .nil => exact ⟨[], rfl, .nil⟩
  | .cons head tail =>
      obtain ⟨used, rfl, inside⟩ := head.balanced
      obtain ⟨others, rfl, more⟩ := tail.balanced
      exact ⟨used ++ others, by simp, inside.append more⟩

theorem Statements.balanced {first rest : List Token} {statements : List Atom}
    (derived : Statements first statements rest) :
    ∃ used, first = used ++ rest ∧ Balanced used := by
  match derived with
  | .nil => exact ⟨[], rfl, .nil⟩
  | .last row _ _ => exact row.balanced
  | @Statements.more semicolon _ _ _ _ _ _ row kind _ others =>
      obtain ⟨used, rfl, inside⟩ := row.balanced
      obtain ⟨later, rfl, more⟩ := others.balanced
      exact ⟨used ++ semicolon :: later, by simp, inside.append (.plain (by simp [kind]) more)⟩
end

/-- All tokens of a row that is complete are balanced. -/
theorem Forms.balanced_of_complete {inside rest : List Token} {items : List Atom}
    (derived : Forms (inside ++ rest) items rest) : Balanced inside := by
  obtain ⟨used, same, balanced⟩ := derived.balanced
  rwa [List.append_cancel_right same]

theorem Statements.balanced_of_complete {inside rest : List Token} {statements : List Atom}
    (derived : Statements (inside ++ rest) statements rest) : Balanced inside := by
  obtain ⟨used, same, balanced⟩ := derived.balanced
  rwa [List.append_cancel_right same]

theorem Forms.append {first middle rest : List Token} {items others : List Atom}
    (before : Forms first items middle) (after : Forms middle others rest) :
    Forms first (items ++ others) rest := by
  match before with
  | .nil => exact after
  | .cons head tail => exact .cons head (tail.append after)

end Grammar

/-- The tokens are what has been taken since the block was opened: whatever the block goes on with
    makes with them the statements of an empty one. -/
def Block.MadeOf (block : Block) (tokens : List Token) : Prop :=
  ∀ first statements rest, block.Continues first statements rest →
    ({} : Block).Continues (tokens ++ first) statements rest

namespace Block.MadeOf

variable {block : Block} {tokens used : List Token}

theorem empty : ({} : Block).MadeOf [] :=
  fun _ _ _ continues => continues

theorem add (made : block.MadeOf tokens) {form : Atom}
    (whole : ∀ rest, Form (used ++ rest) form rest) (start : Nat) :
    (block.add form start).MadeOf (tokens ++ used) := by
  intro first statements rest continues
  rw [List.append_assoc]
  exact made _ _ _ (.cons (whole first) continues)

theorem endStatement (made : block.MadeOf tokens) {semicolon : Token}
    (kind : semicolon.kind = .semicolon) : block.endStatement.MadeOf (tokens ++ [semicolon]) := by
  intro first statements rest continues
  rw [List.append_assoc]
  exact made _ _ _ (.semicolon kind continues)

theorem statements (made : block.MadeOf tokens) (rest : List Token) :
    Statements (tokens ++ rest) block.ended rest := by
  obtain ⟨others, whole, row⟩ := (made _ _ _ (.last .nil)).of_between rfl
  rw [List.reverse_nil, List.nil_append] at whole
  exact whole ▸ row

end Block.MadeOf

namespace Nesting

/-- The place that some tokens lead to from the start of a text, token by token: what is open are
    tokens among them, and after each of these come the forms that it has so far. -/
inductive Reached : List Token → Nesting → Prop where
  | program {tokens : List Token} {block : Block} :
      block.MadeOf tokens → Reached tokens (.program block)
  | list {before inside : List Token} {opening : Token} {outer : Nesting} {items : List Atom} :
      Reached before outer → opening.kind = .leftParen →
      (∀ rest, Forms (inside ++ rest) items.reverse rest) →
      Reached (before ++ opening :: inside) (.list outer opening.offset items)
  | bracket {before inside : List Token} {opening : Token} {outer : Nesting} {items : List Atom} :
      Reached before outer → opening.kind = .leftBracket →
      (∀ rest, Forms (inside ++ rest) items.reverse rest) →
      Reached (before ++ opening :: inside) (.bracket outer opening.offset items)
  | brace {before inside : List Token} {opening : Token} {outer : Nesting} {block : Block} :
      Reached before outer → opening.kind = .leftBrace → block.MadeOf inside →
      Reached (before ++ opening :: inside) (.brace outer opening.offset block)
  | mark {before : List Token} {sign : Token} {outer : Nesting} :
      Reached before outer → sign.kind = .quoteMark →
      Reached (before ++ [sign]) (.mark outer sign.offset)

namespace Reached

variable {tokens used : List Token} {here next : Nesting} {token : Token}
  {remarks : List Juxtaposition}

/-- A row of forms and one more. -/
theorem row_concat {inside : List Token} {items : List Atom} {form : Atom}
    (row : ∀ rest, Forms (inside ++ rest) items.reverse rest)
    (whole : ∀ rest, Form (used ++ rest) form rest) (rest : List Token) :
    Forms (inside ++ used ++ rest) (form :: items).reverse rest := by
  rw [List.reverse_cons, List.append_assoc]
  exact (row _).append (.cons (whole rest) .nil)

theorem supply (reached : Reached tokens here) {form : Atom}
    (whole : ∀ rest, Form (used ++ rest) form rest) (start : Nat) :
    Reached (tokens ++ used) (here.supply form start) := by
  induction reached generalizing form used start with
  | program made => exact .program (made.add whole start)
  | list outside kind row =>
      rw [List.append_assoc]
      exact .list outside kind (row_concat row whole)
  | bracket outside kind row =>
      rw [List.append_assoc]
      exact .bracket outside kind (row_concat row whole)
  | brace outside kind made =>
      rw [List.append_assoc]
      exact .brace outside kind (made.add whole start)
  | mark _ kind ih =>
      rw [List.append_assoc]
      exact ih (fun rest => .quoted kind (whole rest)) _

theorem shift (reached : Reached tokens here) (inner : token.kind ≠ .endOfInput)
    (shifted : here.shift token = .ok (next, remarks)) : Reached (tokens ++ [token]) next := by
  cases takes_of_shift shifted with
  | endOfInput kind => exact absurd kind inner
  -- The four tokens that open a form.
  | leftParen kind => exact .list reached kind fun _ => .nil
  | leftBracket kind => exact .bracket reached kind fun _ => .nil
  | leftBrace kind => exact .brace reached kind .empty
  | quoteMark kind => exact .mark reached kind
  -- The two tokens that are forms by themselves.
  | symbol kind => exact reached.supply (fun _ => .symbol kind) _
  | number kind _ integer => exact reached.supply (fun _ => .of_integer? kind integer) _
  -- The tokens that end a statement or a form, whose tokens are all that the place has taken.
  | semicolon kind =>
      cases reached with
      | program made => exact .program (made.endStatement kind)
  | semicolonInBrace kind =>
      cases reached with
      | brace outside opens made =>
          rw [List.append_assoc]
          exact .brace outside opens (made.endStatement kind)
  | rightParen kind =>
      cases reached with
      | list outside opens row =>
          rw [List.append_assoc]
          refine outside.supply (fun rest => ?_) _
          exact .list opens (by simpa using row (token :: rest)) kind
  | rightBracket kind =>
      cases reached with
      | bracket outside opens row =>
          rw [List.append_assoc]
          refine outside.supply (fun rest => ?_) _
          obtain ⟨_, _, one, two, three⟩ := (row (token :: rest)).of_three rfl
          exact .bracket opens (by simpa using one) two three kind
  | rightBrace kind =>
      cases reached with
      | brace outside opens made =>
          rw [List.append_assoc]
          refine outside.supply (fun rest => ?_) _
          rw [Block.close_eq]
          exact .brace opens (by simpa using made.statements (token :: rest)) kind

/-- Reading some tokens of a text leads to the place that they reach. -/
theorem of_shiftAll (inner : ∀ token ∈ tokens, token.kind ≠ .endOfInput)
    (shifted : start.shiftAll tokens = .ok here) : Reached tokens here := by
  induction tokens using List.reverseRecOn generalizing here with
  | nil =>
      cases shifted
      exact .program .empty
  | append_singleton tokens token ih =>
      obtain ⟨middle, remarks, begun, last⟩ := shiftAll_concat.mp shifted
      have before := ih (fun other member => inner other (List.mem_append_left _ member)) begun
      exact before.shift (inner token (by simp)) last

end Reached

/-- Digits that stand for no integer stand for a number above all of them. -/
theorem lt_of_integer?_eq_none {digits : String} (none : integer? digits = none) :
    Int64.maxValue.toInt < Nat.ofDigitChars 10 digits.toList 0 := by
  simp only [integer?, ite_eq_right_iff, reduceCtorEq, imp_false, Nat.not_lt] at none
  rw [Int64.toInt_maxValue]
  omega

theorem mark_of_shift {here next : Nesting} {token : Token} {remarks : List Juxtaposition}
    (kind : token.kind = .quoteMark) (shifted : here.shift token = .ok (next, remarks)) :
    next = .mark here token.offset := by
  cases takes_of_shift shifted with
  | quoteMark => rfl
  | _ => simp_all

end Nesting

/-- The characters of a token stand in the text at its offset. -/
theorem Spells.placed {offset : Nat} {chars : List Char} {spelled : List Token}
    (spells : Spells offset chars spelled) : ∀ token ∈ spelled, ∃ before after,
      chars = before ++ token.text.toList ++ after ∧ token.offset = offset + byteLength before := by
  induction spells with
  | blanks => simp
  | @token offset blanks text rest kind tokens _ _ _ ih =>
      refine List.forall_mem_cons.mpr ⟨⟨blanks, rest, by simp, rfl⟩, ?_⟩
      intro token member
      obtain ⟨before, after, rfl, place⟩ := ih token member
      refine ⟨blanks ++ text ++ before, after, by simp, ?_⟩
      rw [place, byteLength_append (blanks ++ text), Nat.add_assoc]

/-- The token is one of the text, and its characters stand there at its offset. -/
def Token.StandsIn (source : String) (token : Token) : Prop :=
  token ∈ tokens source ∧ ∃ before after : String,
    source = before ++ token.text ++ after ∧ before.utf8ByteSize = token.offset

theorem Token.standsIn_of_mem {source : String} {token : Token}
    (member : token ∈ innerTokens source) : token.StandsIn source := by
  refine ⟨?_, ?_⟩
  · rw [tokens_eq_innerTokens]
    exact List.mem_append_left _ member
  · obtain ⟨before, after, whole, place⟩ := (spells_innerTokens source).placed token member
    refine ⟨String.ofList before, String.ofList after, ?_, ?_⟩
    · rw [← String.toList_inj, whole]
      simp
    · rw [place, Nat.zero_add]
      rfl

/-- What there is in a text that an error is about. -/
inductive ReadError.Justified (source : String) : ReadError → Prop where
  /-- A token that closes a form or ends a statement, and nothing else is ever said about it. -/
  | unexpectedToken {token : Token} :
      token.StandsIn source →
      token.kind ∈ [.rightParen, .rightBrace, .rightBracket, .semicolon] →
      Justified source (.unexpectedToken token.text none token.offset)
  /-- A number that is too large. -/
  | badInteger {token : Token} :
      token.StandsIn source → token.kind = .number →
      Int64.maxValue.toInt < Nat.ofDigitChars 10 token.text.toList 0 →
      Justified source (.badInteger token.text token.offset)
  /-- A square bracket with fewer than three complete forms and then its closing, or with three and
      then another token, which is not the end of the text. -/
  | malformedBracket {before first rest : List Token} {opening culprit : Token}
      {forms : List Atom} :
      tokens source = before ++ opening :: first → opening.StandsIn source →
      opening.kind = .leftBracket → Forms first forms (culprit :: rest) →
      (forms.length < 3 ∧ culprit.kind = .rightBracket ∨
        forms.length = 3 ∧ culprit.kind ≠ .rightBracket ∧ culprit.kind ≠ .endOfInput) →
      Justified source (.malformedBracket opening.offset)
  /-- A quote mark that is the last token. -/
  | danglingQuote {before : List Token} {mark : Token} :
      innerTokens source = before ++ [mark] → mark.StandsIn source → mark.kind = .quoteMark →
      Justified source (.danglingQuote mark.offset)
  /-- The innermost token that is left open: whatever is opened after it is closed, and nothing
      else is. The last token is no quote mark. -/
  | unexpectedEnd {before after : List Token} {opening : Token} :
      innerTokens source = before ++ opening :: after →
      opening.kind ∈ [.leftParen, .leftBrace, .leftBracket] → Balanced after →
      (∀ last ∈ (innerTokens source).getLast?, last.kind ≠ .quoteMark) →
      Justified source (.unexpectedEnd opening.kind)

section Justified

open Nesting

variable {source : String} {before later : List Token} {token : Token} {here : Nesting}
  {cause : ReadError}

theorem justified_of_bracket {outer : Nesting} {opened : Nat} {items : List Atom}
    (split : innerTokens source = before ++ token :: later)
    (reached : Reached before (.bracket outer opened items))
    (found : items.length < 3 ∧ token.kind = .rightBracket ∨
      items.length = 3 ∧ token.kind ≠ .rightBracket) :
    (ReadError.malformedBracket opened).Justified source := by
  have notEnd : token.kind ≠ .endOfInput :=
    (spells_innerTokens source).kind_ne token (by simp [split])
  cases reached with
  | @bracket before inside opening _ _ _ opens row =>
      have whole := tokens_eq_innerTokens source
      rw [split, List.append_assoc, List.append_assoc, List.cons_append] at whole
      refine .malformedBracket whole (Token.standsIn_of_mem (by simp [split])) opens (row _) ?_
      rw [List.length_reverse]
      exact found.imp_right fun full => ⟨full.1, full.2, notEnd⟩

theorem justified_of_shift (split : innerTokens source = before ++ token :: later)
    (reached : Reached before here) (proper : here.Proper)
    (fails : here.shift token = .error cause) : cause.Justified source := by
  have stands : token.StandsIn source := Token.standsIn_of_mem (by simp [split])
  cases refuses_of_shift fails with
  | full full _ notClosing =>
      obtain ⟨outer, items, rfl, three⟩ := exists_bracket_of_full? full
      exact justified_of_bracket split reached (.inr ⟨three, notClosing⟩)
  | malformed closing notThree =>
      have few := Nat.lt_of_le_of_ne proper.1 notThree
      exact justified_of_bracket split reached (.inl ⟨few, closing⟩)
  | outOfRange kind _ none => exact .badInteger stands kind (lt_of_integer?_eq_none none)
  | misplaced kind => exact .unexpectedToken stands kind

/-- A text that ends in some form ends just after a quote mark or inside what is left open. -/
theorem justified_of_finish (reached : Reached (innerTokens source) here)
    (place : start.shiftAll (innerTokens source) = .ok here)
    (fails : here.finish = .error cause) : cause.Justified source := by
  have noMark (notMark : ∀ outer opened, here ≠ .mark outer opened) :
      ∀ last ∈ (innerTokens source).getLast?, last.kind ≠ .quoteMark := by
    intro last isLast kind
    obtain ⟨before, split⟩ := List.getLast?_eq_some_iff.mp isLast
    rw [split] at place
    obtain ⟨middle, remarks, _, shifted⟩ := shiftAll_concat.mp place
    exact notMark _ _ (mark_of_shift kind shifted)
  generalize whole : innerTokens source = inner at reached
  cases reached with
  | program => cases fails
  | @list before inside opening _ _ _ kind row =>
      cases fails
      have noMark := noMark fun _ _ same => by cases same
      exact kind ▸ .unexpectedEnd whole (by simp [kind]) (row []).balanced_of_complete noMark
  | @bracket before inside opening _ _ _ kind row =>
      cases fails
      have noMark := noMark fun _ _ same => by cases same
      exact kind ▸ .unexpectedEnd whole (by simp [kind]) (row []).balanced_of_complete noMark
  | @brace before inside opening _ _ _ kind made =>
      cases fails
      have noMark := noMark fun _ _ same => by cases same
      have row := made.statements []
      exact kind ▸ .unexpectedEnd whole (by simp [kind]) row.balanced_of_complete noMark
  | @mark before sign outer _ kind =>
      cases fails
      exact .danglingQuote whole (Token.standsIn_of_mem (by simp [whole])) kind

end Justified

/-- What an error says of the text is so. -/
theorem errors_point_at_culprit (source : String) (cause : ReadError)
    (fails : read source = .error cause) : cause.Justified source := by
  have notEnd := (spells_innerTokens source).kind_ne
  rw [read_eq_finish (spells_innerTokens source)] at fails
  cases place : Nesting.start.shiftAll (innerTokens source) with
  | error found =>
      rw [place] at fails
      cases fails
      obtain ⟨before, token, later, middle, split, begun, stops⟩ := Nesting.exists_culprit place
      have earlier : ∀ token ∈ before, token.kind ≠ .endOfInput := fun token member =>
        notEnd token (by simp [split, member])
      have proper : Nesting.start.Proper := trivial
      exact justified_of_shift split (.of_shiftAll earlier begun) (proper.shiftAll begun) stops
  | ok here =>
      rw [place] at fails
      change Prod.fst <$> here.finish = .error cause at fails
      cases finished : here.finish with
      | error found =>
          rw [finished] at fails
          cases fails
          exact justified_of_finish (.of_shiftAll notEnd place) place finished
      | ok finish =>
          rw [finished] at fails
          cases fails

/-- Inside of a brace and a list, and with closed forms all around, the bracket is what is left
    open; and a bracket is to blame for a fourth form even if that one is wrong itself. -/
theorem errors_point_at_culprit_in_bracket :
    read "(a) (b \x7bc; [1 \x60(2)" = .error (.unexpectedEnd .leftBracket) ∧
      (ReadError.unexpectedEnd .leftBracket).Justified "(a) (b \x7bc; [1 \x60(2)" ∧
      read "é [1 (2) 3 )" = .error (.malformedBracket 3) ∧
      (ReadError.malformedBracket 3).Justified "é [1 (2) 3 )" := by
  have open_ : read "(a) (b \x7bc; [1 \x60(2)" = .error (.unexpectedEnd .leftBracket) := by
    decide +kernel
  have full : read "é [1 (2) 3 )" = .error (.malformedBracket 3) := by decide +kernel
  exact ⟨open_, errors_point_at_culprit _ _ open_, full, errors_point_at_culprit _ _ full⟩

end Homoiconic
