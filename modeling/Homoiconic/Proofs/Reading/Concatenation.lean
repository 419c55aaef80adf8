import Homoiconic.Proofs.Reading.Soundness
import Homoiconic.Proofs.Token.Concatenation

/-! # Reading texts that are put together

The grammar looks at the kinds and the texts of tokens, and at no token after those that it takes.
So the tokens of a form make the same form elsewhere. If a text does not end with a semicolon, then
one after it ends its last statement, and a program that follows adds its own statements.
-/

namespace Homoiconic

namespace Grammar

mutual
/-- The tokens that make a form make it in any place. -/
theorem Form.elsewhere {first rest : List Token} {form : Atom} (derived : Form first form rest) :
    ∃ used, first = used ++ rest ∧
      ∀ distance after, Form (used.map (·.moved distance) ++ after) form after := by
  match derived with
  | @Form.symbol token rest kind =>
      refine ⟨[token], rfl, ?_⟩
      intro distance after
      exact @Form.symbol (token.moved distance) after kind
  | @Form.number token rest value kind decimal small =>
      refine ⟨[token], rfl, ?_⟩
      intro distance after
      exact @Form.number (token.moved distance) after value kind decimal small
  | @Form.list opening closing inside rest items opens row closes =>
      obtain ⟨used, rfl, inner⟩ := row.elsewhere
      refine ⟨opening :: used ++ [closing], by simp, ?_⟩
      intro distance after
      have inner := inner distance (closing.moved distance :: after)
      simpa using @Form.list (opening.moved distance) _ _ _ _ opens inner closes
  | @Form.quoted mark behind rest inner kind quotation =>
      obtain ⟨used, rfl, inner⟩ := quotation.elsewhere
      refine ⟨mark :: used, rfl, ?_⟩
      intro distance after
      exact @Form.quoted (mark.moved distance) _ _ _ kind (inner distance after)
  | @Form.bracket opening closing inside second third rest left operator right opens one two three
      closes =>
      obtain ⟨used₁, rfl, first⟩ := one.elsewhere
      obtain ⟨used₂, rfl, middle⟩ := two.elsewhere
      obtain ⟨used₃, rfl, last⟩ := three.elsewhere
      refine ⟨opening :: used₁ ++ used₂ ++ used₃ ++ [closing], by simp, ?_⟩
      intro distance after
      have last := last distance (closing.moved distance :: after)
      have bracket := @Form.bracket (opening.moved distance) (closing.moved distance) _ _ _ _ _ _ _
        opens (first distance _) (middle distance _) last closes
      simpa using bracket
  | @Form.brace opening closing inside rest statements opens row closes =>
      obtain ⟨used, rfl, inner⟩ := row.elsewhere
      refine ⟨opening :: used ++ [closing], by simp, ?_⟩
      intro distance after
      have inner := inner distance (closing.moved distance :: after)
      simpa using @Form.brace (opening.moved distance) _ _ _ _ opens inner closes

theorem Forms.elsewhere {first rest : List Token} {items : List Atom}
    (derived : Forms first items rest) :
    ∃ used, first = used ++ rest ∧
      ∀ distance after, Forms (used.map (·.moved distance) ++ after) items after := by
  match derived with
  | .nil => exact ⟨[], rfl, fun _ _ => .nil⟩
  | .cons head tail =>
      obtain ⟨used, rfl, item⟩ := head.elsewhere
      obtain ⟨others, rfl, items⟩ := tail.elsewhere
      refine ⟨used ++ others, by simp, ?_⟩
      intro distance after
      simpa using Forms.cons (item distance _) (items distance after)

theorem Statements.elsewhere {first rest : List Token} {statements : List Atom}
    (derived : Statements first statements rest) :
    ∃ used, first = used ++ rest ∧
      ∀ distance after, Statements (used.map (·.moved distance) ++ after) statements after := by
  match derived with
  | .nil => exact ⟨[], rfl, fun _ _ => .nil⟩
  | .last row filled made =>
      obtain ⟨used, rfl, forms⟩ := row.elsewhere
      exact ⟨used, rfl, fun distance after => .last (forms distance after) filled made⟩
  | @Statements.more semicolon first behind rest forms others statement row kind made more =>
      obtain ⟨used, rfl, forms⟩ := row.elsewhere
      obtain ⟨later, rfl, others⟩ := more.elsewhere
      refine ⟨used ++ semicolon :: later, by simp, ?_⟩
      intro distance after
      have forms :=
        forms distance (semicolon.moved distance :: (later.map (·.moved distance) ++ after))
      simpa using Statements.more forms kind made (others distance after)
end

/-- Statements go on after a semicolon, unless they end with one already. -/
theorem Statements.join {first rest : List Token} {statements : List Atom}
    (derived : Statements first statements rest) {used : List Token} (split : first = used ++ rest)
    (open_ : ∃ last ∈ used.getLast?, last.kind ≠ .semicolon)
    {semicolon : Token} (kind : semicolon.kind = .semicolon)
    {after rest' : List Token} {others : List Atom} (more : Statements after others rest') :
    Statements (used ++ semicolon :: after) (statements ++ others) rest' := by
  match derived with
  | .nil =>
      have none : used = [] := List.self_eq_append_left.mp split
      simp [none] at open_
  | .last row filled made =>
      obtain ⟨tokens, same, forms⟩ := row.elsewhere
      obtain rfl := List.append_cancel_right (split.symm.trans same)
      exact .more (by simpa using forms 0 (semicolon :: after)) kind made more
  | @Statements.more separator first behind rest forms others' statement row separates made later =>
      obtain ⟨tokens, rfl, forms⟩ := row.elsewhere
      obtain ⟨tokens', rfl, _⟩ := later.elsewhere
      obtain rfl : used = tokens ++ separator :: tokens' :=
        List.append_cancel_right (split.symm.trans (by simp))
      -- The last token is not the separator, so that something stands after it.
      have open_ : ∃ last ∈ tokens'.getLast?, last.kind ≠ .semicolon := by
        cases tokens' with
        | nil => simp [separates] at open_
        | cons token others => simpa using open_
      have joined := later.join rfl open_ kind more
      have forms := forms 0 (separator :: (tokens' ++ semicolon :: after))
      simpa using Statements.more (by simpa using forms) separates made joined

end Grammar

/-- A program that is read has the tokens of its statements, and then the end of the text. -/
theorem statements_of_read {source : String} {statements : List Atom}
    (read : read source = .ok (.list (.symbol "do" :: statements))) :
    ∃ spelled ending, tokens source = spelled ++ [ending] ∧
      Grammar.Statements (spelled ++ [ending]) statements [ending] := by
  cases program_of_read read with
  | mk derived isEnd =>
      obtain ⟨spelled, split, _⟩ := derived.elsewhere
      exact ⟨spelled, _, split, split ▸ derived⟩

/-- Two programs with a semicolon between them are the program of all their statements, unless the
    first ends with a semicolon of its own, which would leave an empty statement. -/
theorem read_joined {first second : String} {inner : List Token} {last ending : Token}
    (scanned : tokens first = inner ++ [last, ending]) (open_ : last.kind ≠ .semicolon)
    {statements others : List Atom}
    (before : read first = .ok (.list (.symbol "do" :: statements)))
    (after : read second = .ok (.list (.symbol "do" :: others))) :
    read (first ++ ";" ++ second) = .ok (.list (.symbol "do" :: (statements ++ others))) := by
  obtain ⟨spelled, end₁, scanned₁, derived₁⟩ := statements_of_read before
  obtain ⟨spelled₂, end₂, scanned₂, derived₂⟩ := statements_of_read after
  have same : (inner ++ [last]) ++ [ending] = spelled ++ [end₁] := by simp [← scanned, scanned₁]
  obtain ⟨rfl, -⟩ := List.append_inj' same rfl
  obtain ⟨semicolon, ending₃, kind, isEnd, joined⟩ :=
    tokens_joined (spells_of_tokens scanned₁) (spells_of_tokens scanned₂)
  -- The statements of the second text stand further back now, and before another end.
  obtain ⟨used, split, elsewhere⟩ := derived₂.elsewhere
  obtain rfl := List.append_cancel_right split
  have derived := derived₁.join rfl (by simpa using open_) kind
    (elsewhere (first.utf8ByteSize + 1) [ending₃])
  refine read_of_program (.mk ?_ isEnd)
  rw [joined]
  simpa using derived

end Homoiconic
