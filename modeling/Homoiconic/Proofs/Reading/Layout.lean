import Mathlib.Data.List.Forall2
import Homoiconic.Proofs.Reading.Elsewhere
import Homoiconic.Proofs.Reading.Readable

/-! # Layout

What stands between two tokens of a text does not matter to the reader, not even whether anything
does: the texts of the tokens with a single space between any two of them scan to the same tokens
and read as the same atom. An error is the same as well, but for its offset.
-/

namespace Homoiconic

/-- What a token is, wherever it stands. -/
def Token.shape (token : Token) : TokenKind × String :=
  (token.kind, token.text)

/-- The texts of the tokens of a text, with single spaces between them. -/
def respaced (source : String) : String :=
  " ".intercalate ((innerTokens source).map (·.text))

/-- The two texts read as the same atom, or fail with the same error, but for its offset. -/
def ReadAlike (source other : String) : Prop :=
  Agree (fun _ _ => True) Eq (read source) (read other)

theorem readAlike_of_shapes {source other : String}
    (same : (tokens source).map Token.shape = (tokens other).map Token.shape) :
    ReadAlike source other := by
  have inner : (innerTokens source).map Token.shape = (innerTokens other).map Token.shape := by
    rw [tokens_eq_innerTokens, tokens_eq_innerTokens other, List.map_append,
      List.map_append] at same
    exact (List.append_inj' same rfl).1
  have elsewhere : List.Forall₂ (Token.Elsewhere fun _ _ => True)
      (innerTokens source) (innerTokens other) := by
    rw [← List.forall₂_eq_eq_eq, List.forall₂_map_left_iff, List.forall₂_map_right_iff] at inner
    refine inner.imp fun token there same => ?_
    obtain ⟨kind, text⟩ := Prod.mk.inj same
    exact ⟨kind.symm, text.symm, trivial⟩
  have place : Nesting.start.Elsewhere (fun _ _ => True) [] .start := .program ⟨rfl, rfl⟩
  rw [ReadAlike, read_eq_finish (spells_innerTokens source),
    read_eq_finish (spells_innerTokens other)]
  refine (place.toEnd elsewhere).imp ?_
  rintro _ _ ⟨statements, rfl, rfl⟩
  rfl

/-- A token stands by itself if nothing comes after it. -/
theorem Lexeme.Stands.alone {kind : TokenKind} {text rest : List Char}
    (stands : Stands kind text rest) : Stands kind text [] := by
  cases stands with
  | punctuation mark => exact .punctuation mark
  | number nonempty digits _ => exact .number nonempty digits (by simp)
  | symbol name _ => exact .symbol name (by simp)

/-- Characters that stand as tokens stand as the same ones with spaces between them. -/
theorem exists_spells_apart {tokens : List Token}
    (stand : ∀ token ∈ tokens, ∃ rest, Lexeme.Stands token.kind token.text.toList rest)
    (offset : Nat) :
    ∃ spelled, Spells offset ([' '].intercalate (tokens.map (·.text.toList))) spelled ∧
      spelled.map Token.shape = tokens.map Token.shape := by
  match tokens with
  | [] => exact ⟨[], .blanks (by simp), rfl⟩
  | [token] =>
      obtain ⟨rest, stands⟩ := stand token (by simp)
      refine ⟨_, by simpa using Spells.single stands.alone offset, ?_⟩
      simp [Token.shape]
  | token :: next :: others =>
      obtain ⟨⟨rest, stands⟩, stand⟩ := List.forall_mem_cons.mp stand
      obtain ⟨spelled, spells, shapes⟩ := exists_spells_apart stand
        (offset + byteLength token.text.toList + byteLength [' '])
      have blank : ∀ c ∈ [' '], Lexeme.isBlank c := by simp [Lexeme.isBlank]
      have whole := (Spells.single stands.alone offset).append (by decide)
        (spells.after_blanks blank)
      refine ⟨_, by simpa [List.intercalate_cons_cons] using whole, ?_⟩
      simpa [Token.shape] using shapes

theorem shapes_respaced (source : String) :
    (tokens (respaced source)).map Token.shape = (tokens source).map Token.shape := by
  have stand : ∀ token ∈ innerTokens source,
      ∃ rest, Lexeme.Stands token.kind token.text.toList rest := fun token member =>
    ((spells_innerTokens source).stands token member).2
  obtain ⟨spelled, spells, shapes⟩ := exists_spells_apart stand 0
  have text : (respaced source).toList =
      [' '].intercalate ((innerTokens source).map (·.text.toList)) := by
    rw [respaced, String.toList_intercalate, List.map_map]
    rfl
  rw [← text, spells_iff] at spells
  rw [spells, tokens_eq_innerTokens source, List.map_append, List.map_append, shapes]
  rfl

/-- A text with its tokens put apart by single spaces has the same kinds and texts of tokens, and
    texts that have these in common read alike. -/
theorem layout_does_not_matter :
    (∀ source, (tokens (respaced source)).map Token.shape = (tokens source).map Token.shape ∧
      ReadAlike source (respaced source)) ∧
    ∀ source other, (tokens source).map Token.shape = (tokens other).map Token.shape →
      ReadAlike source other := by
  refine ⟨?_, ?_⟩
  · intro source
    exact ⟨shapes_respaced source, readAlike_of_shapes (shapes_respaced source).symm⟩
  · intro source other same
    exact readAlike_of_shapes same

/-- Tokens that touch, and the same ones apart: the offset of the culprit is all that differs. -/
theorem layout_does_not_matter_apart :
    (tokens "12a'b(;)").map Token.shape = (tokens "12 a\t'b\n( ; )").map Token.shape ∧
      ReadAlike "12a'b(;)" "12 a\t'b\n( ; )" ∧
      read "12a'b(;)" = .error (.unexpectedToken ";" none 6) ∧
      read "12 a\t'b\n( ; )" = .error (.unexpectedToken ";" none 10) := by
  have same : (tokens "12a'b(;)").map Token.shape = (tokens "12 a\t'b\n( ; )").map Token.shape := by
    decide +kernel
  exact ⟨same, layout_does_not_matter.2 _ _ same, by decide +kernel, by decide +kernel⟩

end Homoiconic
