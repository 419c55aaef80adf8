import Homoiconic.Proofs.Token.Spelling

/-! # The tokens of texts that are put together

Only the character after a token can make it longer, and a delimiter never does. So a text that goes
on with a delimiter spells its tokens as before, and then those of what was added, which stand
further back than in a text of their own.
-/

namespace Homoiconic

/-- The token as it stands when so many bytes come before the text. -/
def Token.moved (distance : Nat) (token : Token) : Token :=
  { token with offset := token.offset + distance }

@[simp]
theorem Token.kind_moved (distance : Nat) (token : Token) :
    (token.moved distance).kind = token.kind :=
  rfl

@[simp]
theorem Token.text_moved (distance : Nat) (token : Token) :
    (token.moved distance).text = token.text :=
  rfl

@[simp]
theorem Token.moved_zero (token : Token) : token.moved 0 = token :=
  rfl

namespace Lexeme

theorem isDelimiter_eq_false_of_isDigit {c : Char} (digit : c.isDigit) : isDelimiter c = false := by
  simp [isDelimiter, isBlank_eq_false_of_isDigit digit, punctuation?_eq_none_of_isDigit digit]

theorem head?_append_delimiter {P : Char → Prop} {rest : List Char} (holds : ∀ d ∈ rest.head?, P d)
    {c : Char} (delimiter : P c) (more : List Char) : ∀ d ∈ (rest ++ c :: more).head?, P d := by
  cases rest with
  | nil => simpa using delimiter
  | cons d rest => simpa using holds

theorem Stands.before_delimiter {kind : TokenKind} {text rest : List Char}
    (stands : Stands kind text rest) {c : Char} (delimiter : isDelimiter c) (more : List Char) :
    Stands kind text (rest ++ c :: more) := by
  cases stands with
  | punctuation mark => exact .punctuation mark
  | number nonempty digits boundary =>
      refine .number nonempty digits (head?_append_delimiter boundary ?_ more)
      intro digit
      rw [isDelimiter_eq_false_of_isDigit digit] at delimiter
      cases delimiter
  | symbol name boundary =>
      exact .symbol name (head?_append_delimiter boundary (.inl delimiter) more)

end Lexeme

namespace Spells

theorem moved {offset : Nat} {chars : List Char} {spelled : List Token}
    (spells : Spells offset chars spelled) (distance : Nat) :
    Spells (offset + distance) chars (spelled.map (·.moved distance)) := by
  induction spells with
  | blanks blank => exact .blanks blank
  | @token offset blanks text rest kind tokens before stands _ ih =>
      rw [Nat.add_right_comm] at ih
      have spells := Spells.token before stands ih
      rwa [Nat.add_right_comm] at spells

theorem after_blanks {offset : Nat} {blanks chars : List Char} {spelled : List Token}
    (before : ∀ c ∈ blanks, Lexeme.isBlank c)
    (spells : Spells (offset + byteLength blanks) chars spelled) :
    Spells offset (blanks ++ chars) spelled := by
  cases spells with
  | blanks blank => exact .blanks (List.forall_mem_append.mpr ⟨before, blank⟩)
  | token blank stands spells =>
      have blank := List.forall_mem_append.mpr ⟨before, blank⟩
      have spells := Spells.token blank stands (by simpa [Nat.add_assoc] using spells)
      simpa [Nat.add_assoc] using spells

/-- A text that goes on with a delimiter spells its own tokens first. -/
theorem append {offset : Nat} {first second : List Char} {spelled others : List Token} {c : Char}
    (spells : Spells offset first spelled) (delimiter : Lexeme.isDelimiter c)
    (later : Spells (offset + byteLength first) (c :: second) others) :
    Spells offset (first ++ c :: second) (spelled ++ others) := by
  induction spells with
  | blanks blank => exact later.after_blanks blank
  | token before stands _ ih =>
      rw [byteLength_append, ← Nat.add_assoc] at later
      have spells := Spells.token before (stands.before_delimiter delimiter second) (ih later)
      simpa using spells

end Spells

theorem spells_of_tokens {source : String} {spelled : List Token} {last : Token}
    (scanned : tokens source = spelled ++ [last]) : Spells 0 source.toList spelled := by
  obtain ⟨others, spells⟩ := exists_spells 0 source.toList
  have same := scanned.symm.trans ((spells_iff source others).mp spells)
  rwa [(List.append_inj' same rfl).1]

/-- The tokens of a text before its end. -/
def innerTokens (source : String) : List Token :=
  (tokens source).filter (·.kind ≠ .endOfInput)

theorem tokens_eq_innerTokens (source : String) :
    tokens source = innerTokens source ++ [⟨.endOfInput, "", source.utf8ByteSize⟩] := by
  obtain ⟨spelled, spells⟩ := exists_spells 0 source.toList
  have scanned := (spells_iff source spelled).mp spells
  have inner : innerTokens source = spelled := by
    simpa [innerTokens, scanned, List.filter_append] using spells.kind_ne
  rw [inner, scanned]

theorem spells_innerTokens (source : String) : Spells 0 source.toList (innerTokens source) :=
  (spells_iff source _).mpr (tokens_eq_innerTokens source)

/-- The tokens of two texts with a semicolon between them. -/
theorem tokens_joined {first second : String} {spelled others : List Token}
    (before : Spells 0 first.toList spelled) (after : Spells 0 second.toList others) :
    ∃ semicolon ending : Token, semicolon.kind = .semicolon ∧ ending.kind = .endOfInput ∧
      tokens (first ++ ";" ++ second) = spelled ++
        semicolon :: others.map (·.moved (first.utf8ByteSize + 1)) ++ [ending] := by
  have size : byteLength first.toList = first.utf8ByteSize := by simp [byteLength]
  have later : Spells (0 + byteLength first.toList) (';' :: second.toList)
      (⟨.semicolon, ";", first.utf8ByteSize⟩ ::
        others.map (·.moved (first.utf8ByteSize + 1))) := by
    have spells := after.moved (first.utf8ByteSize + 1)
    rw [Nat.zero_add] at spells
    rw [size, Nat.zero_add]
    exact @Spells.token _ [] [';'] _ _ _ (by simp) (.punctuation rfl) spells
  have spells := before.append (by decide) later
  have text : (first ++ ";" ++ second).toList = first.toList ++ ';' :: second.toList := by simp
  rw [← text] at spells
  exact ⟨_, _, rfl, rfl, (spells_iff _ _).mp spells⟩

end Homoiconic
