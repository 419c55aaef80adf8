import Homoiconic.Reading.Nesting

/-! # What a token does at a place

What comes of taking a token is decided by its kind and by the innermost open form. There is an
equation for each token that has its place, and the other way round: from a token that is taken, or
refused, follows what it is and where.
-/

namespace Homoiconic

namespace Nesting

section Equations

variable {here outer : Nesting} {token : Token} {opened : Nat} {items : List Atom} {block : Block}

theorem full?_bracket_eq_none : (bracket outer opened items).full? = none ↔ items.length ≠ 3 := by
  match items with
  | [] | [_] | [_, _] | [_, _, _] | _ :: _ :: _ :: _ :: _ => simp [full?]

theorem exists_bracket_of_full? (full : here.full? = some opened) :
    ∃ outer items, here = .bracket outer opened items ∧ items.length = 3 := by
  unfold full? at full
  split at full
  · cases full
    exact ⟨_, _, rfl, rfl⟩
  · cases full

theorem shift_endOfInput (kind : token.kind = .endOfInput) :
    here.shift token = .ok (here, []) := by
  simp only [shift, kind]

theorem shift_leftParen (kind : token.kind = .leftParen) (notFull : here.full? = none) :
    here.shift token = .ok (.list here token.offset [], []) := by
  simp only [shift, kind, notFull]

theorem shift_leftBracket (kind : token.kind = .leftBracket) (notFull : here.full? = none) :
    here.shift token = .ok (.bracket here token.offset [], []) := by
  simp only [shift, kind, notFull]

theorem shift_leftBrace (kind : token.kind = .leftBrace) (notFull : here.full? = none) :
    here.shift token = .ok (.brace here token.offset {}, []) := by
  simp only [shift, kind, notFull]

theorem shift_quoteMark (kind : token.kind = .quoteMark) (notFull : here.full? = none) :
    here.shift token = .ok (.mark here token.offset, []) := by
  simp only [shift, kind, notFull]

theorem shift_symbol (kind : token.kind = .symbol) (notFull : here.full? = none) :
    here.shift token = .ok (here.supply (.symbol token.text) token.offset, []) := by
  simp only [shift, kind, notFull]

theorem shift_integer (kind : token.kind = .number) (notFull : here.full? = none) :
    here.shift token =
      match integer? token.text with
      | some value => .ok (here.supply (.number value) token.offset, [])
      | none => .error (.badInteger token.text token.offset) := by
  cases found : integer? token.text <;> simp only [shift, kind, notFull, found]

theorem shift_number {value : Nat} (kind : token.kind = .number) (notFull : here.full? = none)
    (decimal : Nat.ofDigitChars 10 token.text.toList 0 = value) (small : value < 1 <<< 63) :
    here.shift token = .ok (here.supply (.number (.ofNat value)) token.offset, []) := by
  simp only [shift, kind, notFull, integer?, decimal, small, if_true]

theorem shift_rightParen (kind : token.kind = .rightParen) :
    (list outer opened items).shift token =
      .ok (outer.supply (.list items.reverse) opened, []) := by
  simp only [shift, kind, full?, close]

theorem shift_rightBracket {left operator right : Atom} (kind : token.kind = .rightBracket) :
    (bracket outer opened [right, operator, left]).shift token =
      .ok (outer.supply (.list [operator, left, right]) opened, []) := by
  simp only [shift, kind, close]

theorem shift_rightBrace (kind : token.kind = .rightBrace) :
    (brace outer opened block).shift token =
      .ok (outer.supply block.close opened, block.remarks) := by
  simp only [shift, kind, full?, close]

/-- A square bracket closes after three forms only. -/
theorem close_malformed (kind : token.kind = .rightBracket) (notThree : items.length ≠ 3) :
    (bracket outer opened items).close token = .error (.malformedBracket opened) := by
  rcases items with _ | ⟨_, _ | ⟨_, _ | ⟨_, _ | _⟩⟩⟩ <;> simp [close, kind] at notThree ⊢

theorem shift_malformed (kind : token.kind = .rightBracket) (notThree : items.length ≠ 3) :
    (bracket outer opened items).shift token = .error (.malformedBracket opened) := by
  simp only [shift, kind]
  exact close_malformed kind notThree

theorem shift_full (full : here.full? = some opened) (notEnd : token.kind ≠ .endOfInput)
    (notClosing : token.kind ≠ .rightBracket) :
    here.shift token = .error (.malformedBracket opened) := by
  simp only [shift, full]

end Equations

/-- Where a token leads to that has its place here, and what there is to remark about the statement
    that it ends. -/
inductive Takes (token : Token) : Nesting → Nesting → List Juxtaposition → Prop where
  | endOfInput {here : Nesting} : token.kind = .endOfInput → Takes token here here []
  | leftParen {here : Nesting} :
      token.kind = .leftParen → here.full? = none →
      Takes token here (.list here token.offset []) []
  | leftBracket {here : Nesting} :
      token.kind = .leftBracket → here.full? = none →
      Takes token here (.bracket here token.offset []) []
  | leftBrace {here : Nesting} :
      token.kind = .leftBrace → here.full? = none →
      Takes token here (.brace here token.offset {}) []
  | quoteMark {here : Nesting} :
      token.kind = .quoteMark → here.full? = none → Takes token here (.mark here token.offset) []
  | symbol {here : Nesting} :
      token.kind = .symbol → here.full? = none →
      Takes token here (here.supply (.symbol token.text) token.offset) []
  | number {here : Nesting} {value : Int64} :
      token.kind = .number → here.full? = none → integer? token.text = some value →
      Takes token here (here.supply (.number value) token.offset) []
  /-- A statement of the program ends. -/
  | semicolon {block : Block} :
      token.kind = .semicolon →
      Takes token (.program block) (.program block.endStatement) block.remarks
  /-- A statement in a brace ends. -/
  | semicolonInBrace {outer : Nesting} {opened : Nat} {block : Block} :
      token.kind = .semicolon →
      Takes token (.brace outer opened block) (.brace outer opened block.endStatement)
        block.remarks
  | rightParen {outer : Nesting} {opened : Nat} {items : List Atom} :
      token.kind = .rightParen →
      Takes token (.list outer opened items) (outer.supply (.list items.reverse) opened) []
  | rightBracket {outer : Nesting} {opened : Nat} {left operator right : Atom} :
      token.kind = .rightBracket →
      Takes token (.bracket outer opened [right, operator, left])
        (outer.supply (.list [operator, left, right]) opened) []
  | rightBrace {outer : Nesting} {opened : Nat} {block : Block} :
      token.kind = .rightBrace →
      Takes token (.brace outer opened block) (outer.supply block.close opened) block.remarks

/-- The error about a token that has no place here. -/
inductive Refuses (token : Token) : Nesting → ReadError → Prop where
  /-- Three forms are in the bracket, and this token does not close it. -/
  | full {here : Nesting} {opened : Nat} :
      here.full? = some opened → token.kind ≠ .endOfInput → token.kind ≠ .rightBracket →
      Refuses token here (.malformedBracket opened)
  /-- The bracket is closed with fewer forms, or more. -/
  | malformed {outer : Nesting} {opened : Nat} {items : List Atom} :
      token.kind = .rightBracket → items.length ≠ 3 →
      Refuses token (.bracket outer opened items) (.malformedBracket opened)
  | outOfRange {here : Nesting} :
      token.kind = .number → here.full? = none → integer? token.text = none →
      Refuses token here (.badInteger token.text token.offset)
  | misplaced {here : Nesting} :
      token.kind ∈ [.rightParen, .rightBrace, .rightBracket, .semicolon] →
      Refuses token here (unexpected token)

section Inversion

variable {here next : Nesting} {token : Token} {remarks : List Juxtaposition} {cause : ReadError}

theorem takes_of_close (closed : here.close token = .ok (next, remarks)) :
    here.Takes token next remarks := by
  unfold close at closed
  split at closed <;> cases closed
  case h_1 kind => exact .semicolon kind
  case h_2 kind => exact .semicolonInBrace kind
  case h_3 kind => exact .rightParen kind
  case h_4 kind => exact .rightBracket kind
  case h_6 kind => exact .rightBrace kind

theorem takes_of_shift (shifted : here.shift token = .ok (next, remarks)) :
    here.Takes token next remarks := by
  unfold shift at shifted
  split at shifted
  case h_2 | h_10 => exact takes_of_close shifted
  case h_9 kind notFull =>
      cases integer : integer? token.text <;> rw [integer] at shifted <;> cases shifted
      exact .number kind notFull integer
  all_goals cases shifted
  case h_1 kind => exact .endOfInput kind
  case h_4 kind notFull => exact .leftParen kind notFull
  case h_5 kind notFull => exact .leftBracket kind notFull
  case h_6 kind notFull => exact .leftBrace kind notFull
  case h_7 kind notFull => exact .quoteMark kind notFull
  case h_8 kind notFull => exact .symbol kind notFull

theorem refuses_of_close
    (closing : token.kind ∈ [.rightParen, .rightBrace, .rightBracket, .semicolon])
    (fails : here.close token = .error cause) : here.Refuses token cause := by
  unfold close at fails
  split at fails <;> cases fails
  case h_5 outer opened items notThree kind =>
      have notFull : (bracket outer opened items).full? = none := by
        simp only [full?]
        split <;> simp_all
      exact .malformed kind (full?_bracket_eq_none.mp notFull)
  case h_7 => exact .misplaced closing

theorem refuses_of_shift (fails : here.shift token = .error cause) :
    here.Refuses token cause := by
  by_cases isEnd : token.kind = .endOfInput
  · rw [shift_endOfInput isEnd] at fails
    cases fails
  by_cases closing : token.kind = .rightBracket
  · simp only [shift, closing] at fails
    exact refuses_of_close (by simp [closing]) fails
  cases full : here.full? with
  | some opened =>
      rw [shift_full full isEnd closing] at fails
      cases fails
      exact .full full isEnd closing
  | none =>
      cases kind : token.kind <;> simp only [shift, kind, full] at fails
      case number =>
        cases integer : integer? token.text <;> rw [integer] at fails <;> cases fails
        exact .outOfRange kind full integer
      case rightParen | rightBrace | semicolon => exact refuses_of_close (by simp [kind]) fails
      case rightBracket => exact absurd kind closing
      all_goals cases fails

end Inversion

end Nesting

end Homoiconic
