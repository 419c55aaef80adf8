import Homoiconic.Proofs.Token.Pattern

/-! # Scanning by positions

A scanner can also keep the whole text and a position in it, counted in bytes. It then cuts the text
off at the position, which is possible only between two characters, and matches the pattern of a
token; of a punctuation mark it takes the first character, which has to be there. Nothing of this
ever fails: the position is always where the scanner is that keeps the rest of the text, and the two
answer the same.
-/

namespace Homoiconic

/-- What stands after some number of bytes, if there are so many and they end with a character. -/
def dropBytes? : Nat → List Char → Option (List Char)
  | 0, text => some text
  | _ + 1, [] => none
  | bytes + 1, c :: text =>
      if c.utf8Size ≤ bytes + 1 then dropBytes? (bytes + 1 - c.utf8Size) text else none

theorem dropBytes?_append (before rest : List Char) :
    dropBytes? (byteLength before) (before ++ rest) = some rest := by
  induction before with
  | nil => cases rest <;> rfl
  | cons c before ih =>
      have size : byteLength (c :: before) = c.utf8Size + byteLength before := by
        simp [byteLength]
      have positive := c.utf8Size_pos
      obtain ⟨bytes, total⟩ : ∃ bytes, byteLength (c :: before) = bytes + 1 :=
        ⟨c.utf8Size + byteLength before - 1, by omega⟩
      rw [total, List.cons_append, dropBytes?, if_pos (by omega), ← total, size,
        Nat.add_sub_cancel_left]
      exact ih

/-- A scanner that keeps the whole text and the position, in bytes, of the next character. -/
structure Cursor where
  source : String
  position : Nat := 0
  /-- Whether `next?` has already given the end of the text. -/
  finished : Bool := false

namespace Cursor

/-- The end of the text, from wherever the cursor is. -/
def atEnd (cursor : Cursor) : Token × Cursor :=
  let position := cursor.source.utf8ByteSize
  (⟨.endOfInput, "", position⟩, { cursor with position })

/-- The kind of token that a group stands for, by the first character of a punctuation mark. -/
def kind? : Nat → List Char → Option TokenKind
  | 1, text => text.head?.map fun mark => (Lexeme.punctuation? mark).getD .quoteMark
  | 2, _ => some .number
  | _, _ => some .symbol

/-- The next token and the cursor after it, unless something is not where it should be. -/
def nextToken? (cursor : Cursor) : Option (Token × Cursor) := do
  let rest ← dropBytes? cursor.position cursor.source.toList
  match (Pattern.token.first? rest).bind (·.groups.head?) with
  | some (number, before, text, _) =>
      let kind ← kind? number text
      return (⟨kind, String.ofList text, cursor.position + byteLength before⟩,
        { cursor with position := cursor.position + byteLength (before ++ text) })
  | none => return cursor.atEnd

/-- The next token of the stream, which has ended once it has given the end of the text. -/
def next? (cursor : Cursor) : Option (Option Token × Cursor) :=
  if cursor.finished then some (none, cursor)
  else do
    let (token, after) ← cursor.nextToken?
    return (some token, { after with finished := token.kind == .endOfInput })

end Cursor

namespace Scanner

/-- The places in a text that scanning it leads to, by any sequence of the two ways to go on. -/
inductive Scans (source : String) : Scanner → Prop where
  | start : Scans source (ofSource source)
  | nextToken {s : Scanner} : Scans source s → Scans source s.nextToken.2
  | next {s : Scanner} : Scans source s → Scans source s.next.2

/-- The scanner stands in the text where its offset says. -/
def StandsIn (source : String) (s : Scanner) : Prop :=
  ∃ before, source.toList = before ++ s.rest ∧ s.offset = byteLength before

/-- The same place by its position. -/
def cursor (source : String) (s : Scanner) : Cursor where
  source := source
  position := s.offset
  finished := s.finished

variable {source : String} {s : Scanner}

theorem StandsIn.cut (stands : s.StandsIn source) :
    dropBytes? s.offset source.toList = some s.rest := by
  obtain ⟨before, whole, offset⟩ := stands
  rw [whole, offset, dropBytes?_append]

theorem StandsIn.offset_add (stands : s.StandsIn source) :
    s.offset + byteLength s.rest = source.utf8ByteSize := by
  obtain ⟨before, whole, offset⟩ := stands
  rw [offset, ← byteLength_append, ← whole, byteLength, String.ofList_toList]

theorem StandsIn.offset_le (stands : s.StandsIn source) : s.offset ≤ source.utf8ByteSize := by
  have whole := stands.offset_add
  omega

/-- The position is between two characters, or at one of the ends of the text. -/
theorem StandsIn.isValid (stands : s.StandsIn source) :
    String.Pos.Raw.IsValid source ⟨s.offset⟩ := by
  obtain ⟨before, whole, offset⟩ := stands
  refine String.Pos.Raw.isValid_iff_exists_append.mpr
    ⟨String.ofList before, String.ofList s.rest, ?_, ?_⟩
  · rw [← String.ofList_append, ← whole, String.ofList_toList]
  · rw [offset]
    rfl

theorem StandsIn.nextToken (stands : s.StandsIn source) : s.nextToken.2.StandsIn source := by
  obtain ⟨before, whole, offset⟩ := stands
  have blanks := List.takeWhile_append_dropWhile (p := Lexeme.isBlank) (l := s.rest)
  cases left : s.rest.dropWhile Lexeme.isBlank with
  | nil =>
      refine ⟨source.toList, ?_, ?_⟩
      · simp [Scanner.nextToken, skipBlanks, left]
      · rw [left, List.append_nil] at blanks
        simp only [Scanner.nextToken, skipBlanks, left]
        rw [whole, byteLength_append, offset, blanks]
        rfl
  | cons c rest =>
      have lexeme := Lexeme.chars_append_rest c rest
      refine ⟨before ++ s.rest.takeWhile Lexeme.isBlank ++ (Lexeme.ofFirst c rest).chars, ?_, ?_⟩
      · simp only [Scanner.nextToken, skipBlanks, left]
        rw [List.append_assoc, lexeme, List.append_assoc, ← left, blanks]
        exact whole
      · simp only [Scanner.nextToken, skipBlanks, left, byteLength_append, offset]
        rfl

theorem StandsIn.next (stands : s.StandsIn source) : s.next.2.StandsIn source := by
  unfold Scanner.next
  split
  · exact stands
  · exact stands.nextToken

theorem Scans.standsIn (scans : Scans source s) : s.StandsIn source := by
  induction scans with
  | start => exact ⟨[], rfl, rfl⟩
  | nextToken _ ih => exact ih.nextToken
  | next _ ih => exact ih.next

end Scanner

/-- A group that matches is a number, a symbol, or a mark that is there. -/
theorem Pattern.kind?_of_first? {text before chars rest : List Char} {number : Nat}
    (found : (token.first? text).bind (·.groups.head?) = some (number, before, chars, rest)) :
    Cursor.kind? number chars = some (groupKind number chars) := by
  obtain ⟨c, more, filled⟩ : ∃ c more, chars = c :: more := by
    rw [first?_token] at found
    cases left : text.dropWhile Lexeme.isBlank with
    | nil =>
        rw [left, ways, ways_lexeme_eq_nil rfl] at found
        cases found
    | cons c rest =>
        have notBlank : Lexeme.isBlank c = false := Lexeme.head?_dropWhile text (by simp [left])
        obtain ⟨number, others, preferred, _⟩ := ways_lexeme
          (m := { taken := text.takeWhile Lexeme.isBlank, rest := c :: rest }) rfl notBlank
        rw [left, ways, preferred] at found
        cases found
        obtain ⟨first, more, filled, _⟩ := (Lexeme.stands_ofFirst notBlank rest).eq_ofFirst
        exact ⟨first, more, filled⟩
  subst filled
  rcases number with _ | _ | _ | number <;> rfl

namespace Scanner

variable {source : String} {s : Scanner}

/-- The two scanners give the same token, and stand in the same place after it. -/
theorem StandsIn.nextToken?_cursor (stands : s.StandsIn source) :
    (s.cursor source).nextToken? = some (s.nextToken.1, s.nextToken.2.cursor source) := by
  have cut : dropBytes? (s.cursor source).position (s.cursor source).source.toList =
      some s.rest := stands.cut
  have matched := nextToken_eq_matchToken s
  unfold matchToken at matched
  unfold Cursor.nextToken?
  rw [cut]
  cases found : (Pattern.token.first? s.rest).bind (·.groups.head?) with
  | none =>
      rw [found] at matched
      simp only [Option.bind_eq_bind, Option.bind_some, found, matched, endToken,
        stands.offset_add]
      rfl
  | some group =>
      obtain ⟨number, before, text, rest⟩ := group
      rw [found] at matched
      simp only [Option.bind_eq_bind, Option.bind_some, found, matched,
        Pattern.kind?_of_first? found]
      rfl

theorem StandsIn.next?_cursor (stands : s.StandsIn source) :
    (s.cursor source).next? = some (s.next.1, s.next.2.cursor source) := by
  cases running : s.finished with
  | true => simp [Cursor.next?, Scanner.next, cursor, running]
  | false =>
      have goesOn : (s.cursor source).finished = false := running
      simp only [Cursor.next?, Scanner.next, running, goesOn, Bool.false_eq_true, if_false,
        stands.nextToken?_cursor]
      rfl

end Scanner

end Homoiconic
