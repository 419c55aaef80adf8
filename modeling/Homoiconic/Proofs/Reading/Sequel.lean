import Mathlib.Data.List.Forall2
import Homoiconic.Proofs.Reading.Elsewhere

/-! # A program and what comes after it

After a program that ends with a semicolon, and after one without tokens, the reader stands where it
stands at the start of a text, but for the statements that it has; any other program gets there by
one semicolon more. So another text after it is read as by itself: its statements come after those
of the program, and its errors are the same, but stand further back.
-/

namespace Homoiconic

/-- The error as it is when so many bytes come before the text. -/
def ReadError.moved (distance : Nat) : ReadError → ReadError
  | .unexpectedToken found expected offset => .unexpectedToken found expected (offset + distance)
  | .unexpectedEnd inside => .unexpectedEnd inside
  | .malformedBracket offset => .malformedBracket (offset + distance)
  | .badInteger literal offset => .badInteger literal (offset + distance)
  | .danglingQuote offset => .danglingQuote (offset + distance)

theorem ReadError.Elsewhere.eq_moved {distance : Nat} {cause cause' : ReadError}
    (same : cause.Elsewhere (fun offset offset' => offset' = offset + distance) cause') :
    cause' = cause.moved distance := by
  cases same with
  | unexpectedEnd => rfl
  | unexpectedToken offset | malformedBracket offset | badInteger offset | danglingQuote offset =>
      rw [offset, ReadError.moved]

/-- What has to stand between a program and another text: nothing if the program has no tokens or
    ends with a semicolon, and a semicolon otherwise. -/
def separator (source : String) : String :=
  match (innerTokens source).getLast? with
  | none => ""
  | some last => if last.kind = .semicolon then "" else ";"

namespace Nesting

variable {here : Nesting} {block : Block} {token : Token} {remarks : List Juxtaposition}

theorem filled_of_supply {form : Atom} {start : Nat}
    (supplied : here.supply form start = .program block) : block.forms ≠ [] := by
  induction here generalizing form start with
  | program begun =>
      cases supplied
      rw [Block.forms_add]
      exact List.cons_ne_nil _ _
  | list | bracket | brace => cases supplied
  | mark outer opened ih => exact ih supplied

/-- A semicolon leaves the program between two statements, and any other token inside of one. -/
theorem forms_of_shift (inner : token.kind ≠ .endOfInput)
    (shifted : here.shift token = .ok (.program block, remarks)) :
    block.forms = [] ↔ token.kind = .semicolon := by
  generalize place : Nesting.program block = next at shifted
  cases takes_of_shift shifted with
  | endOfInput kind => exact absurd kind inner
  | leftParen | leftBracket | leftBrace | quoteMark | semicolonInBrace => cases place
  | symbol kind | number kind | rightParen kind | rightBracket kind | rightBrace kind =>
      simp [kind, filled_of_supply place.symm]
  | semicolon kind =>
      cases place
      exact iff_of_true rfl kind

/-- What the last of some tokens says about where they lead to. -/
theorem forms_of_shiftAll {spelled : List Token}
    (inner : ∀ token ∈ spelled, token.kind ≠ .endOfInput)
    (shifted : start.shiftAll spelled = .ok (.program block)) :
    block.forms = [] ↔ ∀ last ∈ spelled.getLast?, last.kind = .semicolon := by
  rcases List.eq_nil_or_concat spelled with rfl | ⟨before, last, rfl⟩
  · cases shifted
    simp
  · rw [List.concat_eq_append] at inner shifted ⊢
    obtain ⟨here, remarks, _, moved⟩ := shiftAll_concat.mp shifted
    simpa using forms_of_shift (inner last (by simp)) moved

end Nesting

open Nesting

theorem separator_of_semicolon {source : String}
    (ends : ∀ last ∈ (innerTokens source).getLast?, last.kind = .semicolon) :
    separator source = "" := by
  unfold separator
  cases last : (innerTokens source).getLast? with
  | none => rfl
  | some token => exact if_pos (ends token last)

theorem separator_of_other {source : String}
    (other : ¬ ∀ last ∈ (innerTokens source).getLast?, last.kind = .semicolon) :
    separator source = ";" := by
  unfold separator
  cases last : (innerTokens source).getLast? with
  | none => exact absurd (by simp [last]) other
  | some token =>
      refine if_neg fun kind => other ?_
      rw [last]
      rintro _ ⟨⟩
      exact kind

theorem exists_block_of_read {source : String} {statements : List Atom}
    (reads : read source = .ok (.list (.symbol "do" :: statements))) :
    ∃ block, start.shiftAll (innerTokens source) = .ok (.program block) ∧
      block.ended = statements := by
  rw [read_eq_finish (spells_innerTokens source)] at reads
  cases place : start.shiftAll (innerTokens source) with
  | error cause =>
      rw [place] at reads
      cases reads
  | ok here =>
      rw [place] at reads
      cases here with
      | program block =>
          cases reads
          exact ⟨block, rfl, rfl⟩
      | list | bracket | brace | mark => cases reads

/-- After a program and what has to stand behind it, the reader is between two statements, and the
    tokens of whatever comes next are those that it has by itself, further back. -/
theorem exists_between {first : String} {statements : List Atom}
    (reads : read first = .ok (.list (.symbol "do" :: statements))) (second : String) :
    ∃ before block, start.shiftAll before = .ok (.program block) ∧ block.forms = [] ∧
      block.statements.reverse = statements ∧
      Spells 0 (first ++ separator first ++ second).toList
        (before ++ (innerTokens second).map
          (·.moved (first ++ separator first).utf8ByteSize)) := by
  obtain ⟨block, place, ended⟩ := exists_block_of_read reads
  have spells := spells_innerTokens first
  have between := forms_of_shiftAll spells.kind_ne place
  by_cases ends : ∀ last ∈ (innerTokens first).getLast?, last.kind = .semicolon
  · refine ⟨_, block, place, between.mpr ends, ?_, ?_⟩
    · rw [← ended, Block.ended_of_between (between.mpr ends)]
    · have marks : ∀ last ∈ (innerTokens first).getLast?,
          last.kind ≠ .number ∧ last.kind ≠ .symbol := fun last isLast => by
        simp [ends last isLast]
      have later := (spells_innerTokens second).moved first.utf8ByteSize
      have size : byteLength first.toList = first.utf8ByteSize := by simp [byteLength]
      rw [separator_of_semicolon ends, String.append_empty, String.toList_append]
      exact spells.append_of_mark marks (by rwa [size])
  · have filled : block.forms ≠ [] := fun none => ends (between.mp none)
    obtain ⟨semicolon, ending, kind, _, joined⟩ :=
      tokens_joined spells (spells_innerTokens second)
    refine ⟨innerTokens first ++ [semicolon], block.endStatement, ?_, rfl, ?_, ?_⟩
    · exact shiftAll_concat.mpr ⟨_, _, place, IsBlock.program.shift_semicolon block kind⟩
    · rw [← ended, Block.ended_of_forms filled, Block.endStatement, List.reverse_cons]
    · have size : (first ++ ";").utf8ByteSize = first.utf8ByteSize + 1 :=
        String.utf8ByteSize_append
      rw [separator_of_other ends, size, List.append_assoc]
      exact spells_of_tokens joined

/-- The two readings agree, but for the statements of the program and the offsets. -/
theorem agree_after {first : String} {statements : List Atom}
    (reads : read first = .ok (.list (.symbol "do" :: statements))) (second : String) :
    Agree (fun offset offset' => offset' = offset + (first ++ separator first).utf8ByteSize)
      (Elsewhere.Extends statements.reverse) (read second)
      (read (first ++ separator first ++ second)) := by
  obtain ⟨before, block, place, between, made, spells⟩ := exists_between reads second
  let moves := fun offset offset' =>
    offset' = offset + (first ++ separator first).utf8ByteSize
  have elsewhere : start.Elsewhere moves block.statements (.program block) :=
    .program ⟨rfl, between⟩
  have same : List.Forall₂ (Token.Elsewhere moves) (innerTokens second)
      ((innerTokens second).map (·.moved (first ++ separator first).utf8ByteSize)) := by
    rw [List.forall₂_map_right_iff, List.forall₂_same]
    exact fun token _ => ⟨rfl, rfl, rfl⟩
  rw [read_eq_finish spells, shiftAll_append, place, read_eq_finish (spells_innerTokens second),
    ← made, List.reverse_reverse]
  exact elsewhere.toEnd same

theorem read_separated {first second : String} {statements others : List Atom}
    (reads : read first = .ok (.list (.symbol "do" :: statements)))
    (readsToo : read second = .ok (.list (.symbol "do" :: others))) :
    read (first ++ separator first ++ second) =
      .ok (.list (.symbol "do" :: (statements ++ others))) := by
  have agree := agree_after reads second
  rw [readsToo] at agree
  generalize read (first ++ separator first ++ second) = result at agree ⊢
  cases agree with
  | ok extended =>
      obtain ⟨_, ⟨⟩, rfl⟩ := extended
      rw [List.reverse_reverse]

/-- A program and, after it, another text: if that is a program too, then its statements come after
    those of the first one, and if not, then it fails as by itself, further back. -/
theorem read_after (first second : String) (statements : List Atom)
    (reads : read first = .ok (.list (.symbol "do" :: statements))) :
    (∀ others, read second = .ok (.list (.symbol "do" :: others)) →
      read (first ++ separator first ++ second) =
        .ok (.list (.symbol "do" :: (statements ++ others)))) ∧
    ∀ cause, read second = .error cause →
      read (first ++ separator first ++ second) =
        .error (cause.moved (first ++ separator first).utf8ByteSize) := by
  refine ⟨fun _ => read_separated reads, ?_⟩
  intro cause fails
  have agree := agree_after reads second
  rw [fails] at agree
  generalize read (first ++ separator first ++ second) = result at agree ⊢
  cases agree with
  | error same => rw [same.eq_moved]

/-- A semicolon more makes an empty statement, and offsets are counted in bytes. -/
theorem read_after_accent :
    read "é" = .ok (.list [.symbol "do", .quoted (.symbol "é")]) ∧
    read ";y" = .ok (.list [.symbol "do", .quoted (.list []), .quoted (.symbol "y")]) ∧
    read ("é" ++ ";" ++ ";y") = .ok (.list [.symbol "do", .quoted (.symbol "é"),
      .quoted (.list []), .quoted (.symbol "y")]) ∧
    read "é; " = .ok (.list [.symbol "do", .quoted (.symbol "é")]) ∧
    read "x )" = .error (.unexpectedToken ")" none 2) ∧
    read ("é; " ++ "" ++ "x )") = .error (.unexpectedToken ")" none (2 + 4)) := by
  have open_ : read "é" = .ok (.list [.symbol "do", .quoted (.symbol "é")]) := by decide +kernel
  have closed : read "é; " = .ok (.list [.symbol "do", .quoted (.symbol "é")]) := by decide +kernel
  have second : read ";y" =
      .ok (.list [.symbol "do", .quoted (.list []), .quoted (.symbol "y")]) := by decide +kernel
  have fails : read "x )" = .error (.unexpectedToken ")" none 2) := by decide +kernel
  have joined := (read_after _ ";y" _ open_).1 _ second
  have failed := (read_after _ "x )" _ closed).2 _ fails
  rw [show separator "é" = ";" by decide +kernel] at joined
  rw [show separator "é; " = "" by decide +kernel] at failed
  exact ⟨open_, second, joined, closed, fails, failed⟩

end Homoiconic
