import Mathlib.Data.List.Basic
import Homoiconic.Proofs.Reading.Continuation

/-! # Reading the same tokens elsewhere

The reader decides by the kinds and the texts of tokens; their offsets it only puts into errors. So
if two rows of tokens differ in nothing but offsets, then reading them goes through the same places,
but for offsets, and ends with the same error, but for its offset, or with the same statements. One
of the two may begin after some statements of its program: these stay in front of all others.

What is known of the offsets is a relation `moves` from those of the one row to those of the other.
-/

namespace Homoiconic

/-- The same token, but for its offset. -/
structure Token.Elsewhere (moves : Nat → Nat → Prop) (token there : Token) : Prop where
  kind : there.kind = token.kind
  text : there.text = token.text
  offset : moves token.offset there.offset

/-- The same error, but for its offset. -/
inductive ReadError.Elsewhere (moves : Nat → Nat → Prop) : ReadError → ReadError → Prop where
  | unexpectedToken {found : String} {expected : Option TokenKind} {offset offset' : Nat} :
      moves offset offset' →
      Elsewhere moves (.unexpectedToken found expected offset)
        (.unexpectedToken found expected offset')
  | unexpectedEnd {inside : TokenKind} :
      Elsewhere moves (.unexpectedEnd inside) (.unexpectedEnd inside)
  | malformedBracket {offset offset' : Nat} :
      moves offset offset' → Elsewhere moves (.malformedBracket offset) (.malformedBracket offset')
  | badInteger {literal : String} {offset offset' : Nat} :
      moves offset offset' →
      Elsewhere moves (.badInteger literal offset) (.badInteger literal offset')
  | danglingQuote {offset offset' : Nat} :
      moves offset offset' → Elsewhere moves (.danglingQuote offset) (.danglingQuote offset')

/-- Two readings come to results that agree, or to the same error, but for its offset. -/
inductive Agree {α β : Type} (moves : Nat → Nat → Prop) (same : α → β → Prop) :
    Except ReadError α → Except ReadError β → Prop where
  | ok {result : α} {result' : β} :
      same result result' → Agree moves same (.ok result) (.ok result')
  | error {cause cause' : ReadError} :
      cause.Elsewhere moves cause' → Agree moves same (.error cause) (.error cause')

namespace Agree

variable {α β γ δ : Type} {moves : Nat → Nat → Prop} {same : α → β → Prop}
  {result : Except ReadError α} {result' : Except ReadError β}

theorem bind {same' : γ → δ → Prop} (first : Agree moves same result result')
    {next : α → Except ReadError γ} {next' : β → Except ReadError δ}
    (later : ∀ value value', same value value' → Agree moves same' (next value) (next' value')) :
    Agree moves same' (result >>= next) (result' >>= next') := by
  cases first with
  | ok related => exact later _ _ related
  | error related => exact .error related

theorem map {same' : γ → δ → Prop} (first : Agree moves same result result') {f : α → γ} {g : β → δ}
    (later : ∀ value value', same value value' → same' (f value) (g value')) :
    Agree moves same' (f <$> result) (g <$> result') := by
  cases first with
  | ok related => exact .ok (later _ _ related)
  | error related => exact .error related

theorem imp {same' : α → β → Prop} (agree : Agree moves same result result')
    (implies : ∀ value value', same value value' → same' value value') :
    Agree moves same' result result' := by
  cases agree with
  | ok related => exact .ok (implies _ _ related)
  | error related => exact .error related

end Agree

/-- The same block, but for its start, and after some statements more, the latest first. -/
structure Block.Follows (earlier : List Atom) (block there : Block) : Prop where
  statements : there.statements = block.statements ++ earlier
  forms : there.forms = block.forms

namespace Block.Follows

variable {earlier : List Atom} {block there : Block}

theorem add (follows : block.Follows earlier there) (form : Atom) (start start' : Nat) :
    (block.add form start).Follows earlier (there.add form start') where
  statements := by rw [statements_add, statements_add, follows.statements]
  forms := by rw [forms_add, forms_add, follows.forms]

theorem endStatement (follows : block.Follows earlier there) :
    block.endStatement.Follows earlier there.endStatement where
  statements := by
    rw [Block.endStatement, Block.endStatement, follows.statements, follows.forms, List.cons_append]
  forms := rfl

theorem ended (follows : block.Follows earlier there) :
    there.ended = earlier.reverse ++ block.ended := by
  by_cases between : block.forms = []
  · rw [ended_of_between between, ended_of_between (follows.forms.trans between),
      follows.statements, List.reverse_append]
  · have filled : there.forms ≠ [] := by rwa [follows.forms]
    rw [ended_of_forms between, ended_of_forms filled, follows.statements, follows.forms,
      List.reverse_append, List.append_assoc]

end Block.Follows

namespace Nesting

/-- The same place, but for offsets, and after some statements of the program more. -/
inductive Elsewhere (moves : Nat → Nat → Prop) (earlier : List Atom) :
    Nesting → Nesting → Prop where
  | program {block block' : Block} :
      block.Follows earlier block' → Elsewhere moves earlier (.program block) (.program block')
  | list {outer outer' : Nesting} {opened opened' : Nat} {items : List Atom} :
      Elsewhere moves earlier outer outer' → moves opened opened' →
      Elsewhere moves earlier (.list outer opened items) (.list outer' opened' items)
  | bracket {outer outer' : Nesting} {opened opened' : Nat} {items : List Atom} :
      Elsewhere moves earlier outer outer' → moves opened opened' →
      Elsewhere moves earlier (.bracket outer opened items) (.bracket outer' opened' items)
  | brace {outer outer' : Nesting} {opened opened' : Nat} {block block' : Block} :
      Elsewhere moves earlier outer outer' → moves opened opened' → block.Follows [] block' →
      Elsewhere moves earlier (.brace outer opened block) (.brace outer' opened' block')
  | mark {outer outer' : Nesting} {opened opened' : Nat} :
      Elsewhere moves earlier outer outer' → moves opened opened' →
      Elsewhere moves earlier (.mark outer opened) (.mark outer' opened')

variable {moves : Nat → Nat → Prop} {earlier : List Atom} {here there : Nesting}
  {token token' : Token} {tokens tokens' : List Token}

namespace Elsewhere

theorem supply (place : here.Elsewhere moves earlier there) (form : Atom) (start start' : Nat) :
    (here.supply form start).Elsewhere moves earlier (there.supply form start') := by
  induction place generalizing form start start' with
  | program follows => exact .program (follows.add form start start')
  | list outside moved => exact .list outside moved
  | bracket outside moved => exact .bracket outside moved
  | brace outside moved follows => exact .brace outside moved (follows.add form start start')
  | mark _ _ ih => exact ih (.quoted form) _ _

theorem full? (place : here.Elsewhere moves earlier there) :
    here.full? = none ∧ there.full? = none ∨ ∃ opened opened', moves opened opened' ∧
      here.full? = some opened ∧ there.full? = some opened' := by
  cases place with
  | program | list | brace | mark => exact .inl ⟨rfl, rfl⟩
  | @bracket outer outer' opened opened' items outside moved =>
      by_cases three : items.length = 3
      · obtain ⟨_, _, _, rfl⟩ := List.length_eq_three.mp three
        exact .inr ⟨opened, opened', moved, rfl, rfl⟩
      · exact .inl ⟨full?_bracket_eq_none.mpr three, full?_bracket_eq_none.mpr three⟩

theorem unexpected (same : token.Elsewhere moves token') :
    (Nesting.unexpected token).Elsewhere moves (Nesting.unexpected token') := by
  rw [Nesting.unexpected, Nesting.unexpected, same.text]
  exact .unexpectedToken same.offset

/-- Two steps from such places lead to such places. -/
abbrev Steps (moves : Nat → Nat → Prop) (earlier : List Atom) :
    Except ReadError (Nesting × List Juxtaposition) →
      Except ReadError (Nesting × List Juxtaposition) → Prop :=
  Agree moves fun next next' => next.1.Elsewhere moves earlier next'.1

theorem close (place : here.Elsewhere moves earlier there) (same : token.Elsewhere moves token') :
    Steps moves earlier (here.close token) (there.close token') := by
  cases place with
  | program follows =>
      cases kind : token.kind <;> simp only [Nesting.close, same.kind, kind]
      case semicolon => exact .ok (.program follows.endStatement)
      all_goals exact .error (unexpected same)
  | list outside moved =>
      cases kind : token.kind <;> simp only [Nesting.close, same.kind, kind]
      case rightParen => exact .ok (outside.supply _ _ _)
      all_goals exact .error (unexpected same)
  | @bracket _ _ _ _ items outside moved =>
      cases kind : token.kind
      case rightBracket =>
        have kind' : token'.kind = .rightBracket := same.kind.trans kind
        by_cases three : items.length = 3
        · obtain ⟨_, _, _, rfl⟩ := List.length_eq_three.mp three
          simp only [Nesting.close, kind, kind']
          exact .ok (outside.supply _ _ _)
        · rw [close_malformed kind three, close_malformed kind' three]
          exact .error (.malformedBracket moved)
      all_goals
        simp only [Nesting.close, same.kind, kind]
        exact .error (unexpected same)
  | brace outside moved follows =>
      cases kind : token.kind <;> simp only [Nesting.close, same.kind, kind]
      case semicolon => exact .ok (.brace outside moved follows.endStatement)
      case rightBrace =>
        rw [Block.close_eq, Block.close_eq, follows.ended]
        exact .ok (outside.supply _ _ _)
      all_goals exact .error (unexpected same)
  | mark outside moved =>
      cases kind : token.kind <;> simp only [Nesting.close, same.kind, kind]
      all_goals exact .error (unexpected same)

theorem shift (place : here.Elsewhere moves earlier there) (same : token.Elsewhere moves token') :
    Steps moves earlier (here.shift token) (there.shift token') := by
  by_cases isEnd : token.kind = .endOfInput
  · rw [shift_endOfInput isEnd, shift_endOfInput (same.kind.trans isEnd)]
    exact .ok place
  by_cases closing : token.kind = .rightBracket
  · simp only [Nesting.shift, same.kind, closing]
    exact place.close same
  rcases place.full? with ⟨notFull, notFull'⟩ | ⟨opened, opened', moved, full, full'⟩
  · have closed := place.close same
    cases kind : token.kind
    case number =>
      rw [shift_integer kind notFull, shift_integer (same.kind.trans kind) notFull', same.text]
      cases integer? token.text with
      | some value => exact .ok (place.supply _ _ _)
      | none => exact .error (.badInteger same.offset)
    all_goals simp only [Nesting.shift, same.kind, same.text, kind, notFull, notFull']
    case leftParen => exact .ok (.list place same.offset)
    case leftBracket => exact .ok (.bracket place same.offset)
    case leftBrace => exact .ok (.brace place same.offset ⟨rfl, rfl⟩)
    case quoteMark => exact .ok (.mark place same.offset)
    case symbol => exact .ok (place.supply _ _ _)
    case rightBracket => exact absurd kind closing
    case endOfInput => exact absurd kind isEnd
    all_goals exact closed
  · rw [shift_full full isEnd closing,
      shift_full full' (same.kind ▸ isEnd) (same.kind ▸ closing)]
    exact .error (.malformedBracket moved)

theorem shiftAll (place : here.Elsewhere moves earlier there)
    (same : List.Forall₂ (Token.Elsewhere moves) tokens tokens') :
    Agree moves (Nesting.Elsewhere moves earlier) (here.shiftAll tokens)
      (there.shiftAll tokens') := by
  induction same generalizing here there with
  | nil => exact .ok place
  | cons first _ ih =>
      rw [shiftAll_cons, shiftAll_cons]
      have moved := (place.shift first).map (f := Prod.fst) (g := Prod.fst) fun _ _ next => next
      exact moved.bind fun _ _ next => ih next

/-- The programs are those of the one row, and of the earlier statements and the other row. -/
def Extends (earlier : List Atom) (program program' : Atom) : Prop :=
  ∃ statements, program = .list (.symbol "do" :: statements) ∧
    program' = .list (.symbol "do" :: (earlier.reverse ++ statements))

theorem finish (place : here.Elsewhere moves earlier there) :
    Agree moves (fun last last' => Extends earlier last.1 last'.1) here.finish there.finish := by
  cases place with
  | @program block _ follows =>
      refine .ok ⟨block.ended, block.close_eq, ?_⟩
      rw [Block.close_eq, follows.ended]
  | list | bracket | brace => exact .error .unexpectedEnd
  | mark outside moved => exact .error (.danglingQuote moved)

/-- What reading tokens up to the end of the text comes to. -/
theorem toEnd (place : here.Elsewhere moves earlier there)
    (same : List.Forall₂ (Token.Elsewhere moves) tokens tokens') :
    Agree moves (Extends earlier)
      (here.shiftAll tokens >>= fun last => Prod.fst <$> last.finish)
      (there.shiftAll tokens' >>= fun last => Prod.fst <$> last.finish) :=
  (place.shiftAll same).bind fun _ _ last => last.finish.map fun _ _ extends_ => extends_

end Elsewhere

end Nesting

end Homoiconic
