import Homoiconic.Proofs.Reading.Readable
import Homoiconic.Proofs.Reading.Sequel

/-! # A program in braces

Braces make one statement of a program: a call of `do` on its statements. Marks are tokens by
themselves, whatever stands around them, and what is between them is read as it is alone. So if a
part of a program is put in braces, then its statements are still read, but in a call of their own.
-/

namespace Homoiconic

open Grammar

/-- The text in braces. -/
def braced (source : String) : String :=
  "\x7b" ++ source ++ "\x7d"

theorem exists_spells_braced (source : String) :
    ∃ opening closing : Token, opening.kind = .leftBrace ∧ closing.kind = .rightBrace ∧
      innerTokens (braced source) =
        opening :: (innerTokens source).map (·.moved 1) ++ [closing] := by
  have inside := (spells_innerTokens source).moved 1
  have closing := @Spells.single .rightBrace ['\x7d'] (.punctuation rfl)
    (0 + 1 + byteLength source.toList)
  have whole := @Spells.mark '\x7b' .leftBrace rfl 0 _ _ (inside.append (by decide) closing)
  have text : '\x7b' :: (source.toList ++ ['\x7d']) = (braced source).toList := by
    simp [braced]
  rw [text, spells_iff, tokens_eq_innerTokens] at whole
  exact ⟨_, _, rfl, rfl, (List.append_inj' whole rfl).1⟩

theorem separator_braced (source : String) : separator (braced source) = ";" := by
  obtain ⟨opening, closing, -, kind, inner⟩ := exists_spells_braced source
  refine separator_of_other fun ends => ?_
  rw [inner, List.getLast?_concat] at ends
  rw [ends closing rfl] at kind
  cases kind

/-- A program in braces is a single statement. -/
theorem read_braced {source : String} {statements : List Atom}
    (reads : read source = .ok (.list (.symbol "do" :: statements))) :
    read (braced source) =
      .ok (.list [.symbol "do", .quoted (.list (.symbol "do" :: statements))]) := by
  obtain ⟨spelled, ending, scanned, derived⟩ := statements_of_read reads
  obtain ⟨used, split, elsewhere⟩ := derived.elsewhere
  obtain rfl := List.append_cancel_right split
  obtain ⟨opening, closing, opens, closes, inner⟩ := exists_spells_braced source
  have within : innerTokens source = spelled := by
    rw [tokens_eq_innerTokens] at scanned
    exact (List.append_inj' scanned rfl).1
  have form (rest : List Token) : Form (innerTokens (braced source) ++ rest)
      (.list (.symbol "do" :: statements)) rest := by
    rw [inner, within]
    exact .brace opens (by simpa using elsewhere 1 (closing :: rest)) closes
  have derived : Statements (tokens (braced source))
      [.quoted (.list (.symbol "do" :: statements))]
      [⟨.endOfInput, "", (braced source).utf8ByteSize⟩] := by
    rw [tokens_eq_innerTokens]
    exact .last (.cons (form _) .nil) (by simp) .single
  exact read_of_program (.mk derived rfl)

/-- A part of a program in braces reads as a call of `do` on its statements. -/
theorem read_nested {first inside rest : String} {before statements after : List Atom}
    (reads : read first = .ok (.list (.symbol "do" :: before)))
    (within : read inside = .ok (.list (.symbol "do" :: statements)))
    (readsToo : read rest = .ok (.list (.symbol "do" :: after))) :
    read (first ++ separator first ++ (braced inside ++ ";" ++ rest)) = .ok (.list
      (.symbol "do" :: (before ++ .quoted (.list (.symbol "do" :: statements)) :: after))) := by
  have block := read_separated (read_braced within) readsToo
  rw [separator_braced] at block
  exact read_separated reads block

end Homoiconic
