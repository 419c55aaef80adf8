import Homoiconic.Token.Scanner

/-! # How a text spells its tokens

A text spells some tokens if it is their texts in order, with nothing but blanks before, between and
after them, and if no token could be longer where it stands. Each text spells one row of tokens and
no other: the one that the scanner gives before the end of the text.
-/

namespace Homoiconic

/-- How many bytes some characters take up. -/
def byteLength (chars : List Char) : Nat :=
  (String.ofList chars).utf8ByteSize

@[simp]
theorem byteLength_append (first second : List Char) :
    byteLength (first ++ second) = byteLength first + byteLength second := by
  simp only [byteLength, String.ofList_append, String.utf8ByteSize_append]

namespace Lexeme

/-- The characters make up a token of the kind where the last argument is the text after them. -/
inductive Stands : TokenKind → List Char → List Char → Prop where
  | punctuation {c : Char} {kind : TokenKind} {rest : List Char} :
      punctuation? c = some kind → Stands kind [c] rest
  /-- Digits, and not just some of the digits in a row. -/
  | number {digits rest : List Char} :
      digits ≠ [] → (∀ c ∈ digits, c.isDigit) → (∀ c ∈ rest.head?, ¬ c.isDigit) →
      Stands .number digits rest
  /-- A name, up to the end of the text or a character that cannot go on with it. -/
  | symbol {name rest : List Char} :
      isSymbolName name → (∀ c ∈ rest.head?, isDelimiter c ∨ c = '\'') → Stands .symbol name rest

theorem continuesSymbol_eq_false_iff (c : Char) :
    continuesSymbol c = false ↔ isDelimiter c ∨ c = '\'' := by
  cases h : isDelimiter c <;> simp [continuesSymbol, h]

/-- No delimiter stands in a name. -/
theorem isDelimiter_eq_false_of_mem_name {name : List Char} (isName : isSymbolName name) :
    ∀ c ∈ name, isDelimiter c = false := by
  cases name with
  | nil => cases isName
  | cons first rest =>
      simp only [isSymbolName, startsSymbol, continuesSymbol, Bool.and_eq_true, Bool.not_eq_true',
        List.all_eq_true] at isName
      exact List.forall_mem_cons.mpr ⟨isName.1.1, fun c member => (isName.2 c member).1⟩

theorem isBlank_eq_false_of_punctuation {c : Char} {kind : TokenKind}
    (mark : punctuation? c = some kind) : isBlank c = false := by
  unfold punctuation? at mark
  split at mark <;> first | decide | cases mark

theorem punctuation?_eq_none_of_isDigit {c : Char} (digit : c.isDigit) :
    punctuation? c = none := by
  unfold punctuation?
  split <;> first | rfl | exact absurd digit (by decide)

theorem isBlank_eq_false_of_isDigit {c : Char} (digit : c.isDigit) : isBlank c = false := by
  cases blank : isBlank c with
  | false => rfl
  | true =>
      simp only [isBlank, Bool.or_eq_true, beq_iff_eq] at blank
      obtain ((rfl | rfl) | rfl) | rfl := blank <;> exact absurd digit (by decide)

/-- A span of characters of one class is found where it is followed by a character of another. -/
theorem span_append {p : Char → Bool} {chars rest : List Char} (inside : ∀ c ∈ chars, p c)
    (boundary : ∀ c ∈ rest.head?, p c = false) :
    (chars ++ rest).takeWhile p = chars ∧ (chars ++ rest).dropWhile p = rest := by
  rw [List.takeWhile_append_of_pos inside, List.dropWhile_append_of_pos inside]
  cases rest with
  | nil => simp
  | cons c rest => simp [boundary c rfl]

theorem head?_dropWhile {p : Char → Bool} (chars : List Char) {c : Char}
    (first : c ∈ (chars.dropWhile p).head?) : p c = false := by
  have stopped := List.head?_dropWhile_not p chars
  rw [Option.mem_def.mp first] at stopped
  exact stopped

theorem Stands.kind_ne {kind : TokenKind} {text rest : List Char}
    (stands : Stands kind text rest) : kind ≠ .endOfInput := by
  cases stands with
  | punctuation mark =>
      rintro rfl
      unfold punctuation? at mark
      split at mark <;> cases mark
  | number => decide
  | symbol => decide

theorem isSymbolName_of_stands {name rest : List Char} (stands : Stands .symbol name rest) :
    isSymbolName name := by
  cases stands with
  | punctuation mark =>
      unfold punctuation? at mark
      split at mark <;> cases mark
  | symbol name _ => exact name

/-- What stands at the front of a text is split off from it. -/
theorem Stands.eq_ofFirst {kind : TokenKind} {text rest : List Char}
    (stands : Stands kind text rest) :
    ∃ c tail, text = c :: tail ∧ isBlank c = false ∧
      ofFirst c (tail ++ rest) = ⟨kind, text, rest⟩ := by
  cases stands with
  | @punctuation c _ _ mark =>
      refine ⟨c, [], rfl, isBlank_eq_false_of_punctuation mark, ?_⟩
      simp [ofFirst, mark]
  | number nonempty digits boundary =>
      obtain ⟨c, tail, rfl⟩ := List.exists_cons_of_ne_nil nonempty
      have digit : c.isDigit := digits c List.mem_cons_self
      obtain ⟨taken, dropped⟩ := span_append (p := Char.isDigit)
        (fun d member => digits d (List.mem_cons_of_mem c member))
        (fun d first => by simpa using boundary d first)
      refine ⟨c, tail, rfl, isBlank_eq_false_of_isDigit digit, ?_⟩
      simp [ofFirst, punctuation?_eq_none_of_isDigit digit, digit, taken, dropped]
  | symbol name boundary =>
      cases text with
      | nil => cases name
      | cons c tail =>
          simp only [isSymbolName, startsSymbol, isDelimiter, Bool.and_eq_true, Bool.not_eq_true',
            Bool.or_eq_false_iff, Option.isSome_eq_false_iff, Option.isNone_iff_eq_none,
            List.all_eq_true] at name
          obtain ⟨⟨⟨notBlank, noMark⟩, notDigit⟩, continues⟩ := name
          obtain ⟨taken, dropped⟩ := span_append continues
            fun d first => (continuesSymbol_eq_false_iff d).mpr (boundary d first)
          refine ⟨c, tail, rfl, notBlank, ?_⟩
          simp [ofFirst, noMark, notDigit, taken, dropped]

/-- What is split off from a text stands at its front. -/
theorem stands_ofFirst {c : Char} (notBlank : isBlank c = false) (rest : List Char) :
    Stands (ofFirst c rest).kind (ofFirst c rest).chars (ofFirst c rest).rest := by
  unfold ofFirst
  split
  · rename_i kind mark
    exact .punctuation mark
  · rename_i noMark
    split
    · rename_i digit
      refine .number (by simp) ?_ fun d first => by simp [head?_dropWhile _ first]
      simp only [List.mem_cons, forall_eq_or_imp, digit, true_and]
      exact List.all_eq_true.mp List.all_takeWhile
    · rename_i notDigit
      refine .symbol ?_ fun d first => (continuesSymbol_eq_false_iff d).mp (head?_dropWhile _ first)
      simp [isSymbolName, startsSymbol, isDelimiter, notBlank, noMark, notDigit,
        List.all_takeWhile]

end Lexeme

/-- Characters that stand at a byte offset are the texts of the tokens, apart from blanks. -/
inductive Spells : Nat → List Char → List Token → Prop where
  | blanks {offset : Nat} {blanks : List Char} :
      (∀ c ∈ blanks, Lexeme.isBlank c) → Spells offset blanks []
  | token {offset : Nat} {blanks text rest : List Char} {kind : TokenKind} {tokens : List Token} :
      (∀ c ∈ blanks, Lexeme.isBlank c) → Lexeme.Stands kind text rest →
      Spells (offset + byteLength (blanks ++ text)) rest tokens →
      Spells offset (blanks ++ text ++ rest)
        (⟨kind, String.ofList text, offset + byteLength blanks⟩ :: tokens)

namespace Scanner

/-- The token at the end of the text that is left. -/
def endToken (s : Scanner) : Token :=
  ⟨.endOfInput, "", s.offset + byteLength s.rest⟩

/-- The tokens are what the stream gives, one by one, until it has ended. -/
inductive Streams : Scanner → List Token → Prop where
  | ended {s after : Scanner} : s.next = (none, after) → Streams s []
  | given {s after : Scanner} {token : Token} {others : List Token} :
      s.next = (some token, after) → Streams after others → Streams s (token :: others)

theorem nextToken_blank {s : Scanner} (blank : ∀ c ∈ s.rest, Lexeme.isBlank c) :
    s.nextToken = (s.endToken, { s with rest := [], offset := s.offset + byteLength s.rest }) := by
  obtain ⟨taken, dropped⟩ := @Lexeme.span_append Lexeme.isBlank s.rest [] blank (by simp)
  rw [List.append_nil] at taken dropped
  simp [nextToken, skipBlanks, taken, dropped, endToken, byteLength]

theorem nextToken_stands {s : Scanner} {blanks text rest : List Char} {kind : TokenKind}
    (before : ∀ c ∈ blanks, Lexeme.isBlank c) (stands : Lexeme.Stands kind text rest)
    (whole : s.rest = blanks ++ text ++ rest) :
    s.nextToken = (⟨kind, String.ofList text, s.offset + byteLength blanks⟩,
      { s with rest, offset := s.offset + byteLength (blanks ++ text) }) := by
  obtain ⟨c, tail, rfl, notBlank, split⟩ := stands.eq_ofFirst
  obtain ⟨taken, dropped⟩ := @Lexeme.span_append _ _ (c :: (tail ++ rest)) before
    (by simpa using notBlank)
  have text : s.rest = blanks ++ c :: (tail ++ rest) := by simp [whole]
  simp [nextToken, skipBlanks, text, taken, dropped, split, byteLength, Nat.add_assoc]

theorem endToken_after (s : Scanner) (skipped rest : List Char) (whole : s.rest = skipped ++ rest) :
    endToken { s with rest, offset := s.offset + byteLength skipped } = s.endToken := by
  simp [endToken, whole, Nat.add_assoc]

/-- The scanner gives the tokens that the text spells, and then its end. -/
theorem tokens_of_spells {offset : Nat} {chars : List Char} {spelled : List Token}
    (spells : Spells offset chars spelled) {s : Scanner} (here : s.offset = offset)
    (text : s.rest = chars) : s.tokens = spelled ++ [s.endToken] := by
  induction spells generalizing s with
  | blanks blank =>
      rw [← text] at blank
      simp [tokens, nextToken_blank blank, endToken]
  | token before stands _ ih =>
      have taken := nextToken_stands before stands text
      rw [here] at taken
      rw [tokens, taken, if_neg stands.kind_ne, ih rfl rfl, List.cons_append, ← here,
        endToken_after s _ _ text]

theorem finished_nextToken (s : Scanner) : s.nextToken.2.finished = s.finished := by
  cases left : s.rest.dropWhile Lexeme.isBlank <;> simp [nextToken, skipBlanks, left]

theorem streams_tokens (s : Scanner) (running : s.finished = false) : s.Streams s.tokens := by
  fun_induction tokens s with
  | case1 s isEnd =>
      refine @Streams.given s { s.nextToken.2 with finished := true } _ _ ?_ (.ended rfl)
      simp [next, running, isEnd]
  | case2 s goesOn ih =>
      have still : s.nextToken.2.finished = false := by rw [finished_nextToken, running]
      have open_ : (s.nextToken.1.kind == .endOfInput) = s.nextToken.2.finished := by
        simpa [still] using goesOn
      refine .given ?_ (ih still)
      simp [next, running, open_]

end Scanner

theorem exists_spells (offset : Nat) (chars : List Char) :
    ∃ spelled, Spells offset chars spelled := by
  have whole := List.takeWhile_append_dropWhile (p := Lexeme.isBlank) (l := chars)
  have before : ∀ c ∈ chars.takeWhile Lexeme.isBlank, Lexeme.isBlank c :=
    List.all_eq_true.mp List.all_takeWhile
  cases left : chars.dropWhile Lexeme.isBlank with
  | nil =>
      rw [left, List.append_nil] at whole
      exact ⟨[], .blanks (whole ▸ before)⟩
  | cons c rest =>
      have notBlank : Lexeme.isBlank c = false :=
        Lexeme.head?_dropWhile chars (by simp [left])
      have split := Lexeme.chars_append_rest c rest
      have shorter := Lexeme.length_rest_ofFirst c rest
      have used := congrArg List.length whole
      obtain ⟨spelled, others⟩ := exists_spells
        (offset + byteLength (chars.takeWhile Lexeme.isBlank ++ (Lexeme.ofFirst c rest).chars))
        (Lexeme.ofFirst c rest).rest
      have spells := Spells.token before (Lexeme.stands_ofFirst notBlank rest) others
      rw [List.append_assoc, split, ← left, whole] at spells
      exact ⟨_, spells⟩
termination_by chars.length
decreasing_by
  simp only [left, List.length_append, List.length_cons] at used
  omega

theorem Spells.kind_ne {offset : Nat} {chars : List Char} {spelled : List Token}
    (spells : Spells offset chars spelled) : ∀ token ∈ spelled, token.kind ≠ .endOfInput := by
  induction spells with
  | blanks => simp
  | token _ stands _ ih => simpa [stands.kind_ne] using ih

theorem Spells.stands {offset : Nat} {chars : List Char} {spelled : List Token}
    (spells : Spells offset chars spelled) : ∀ token ∈ spelled,
      token.text.toList ⊆ chars ∧ ∃ rest, Lexeme.Stands token.kind token.text.toList rest := by
  induction spells with
  | blanks => simp
  | @token offset blanks text rest kind tokens before stands _ ih =>
      refine List.forall_mem_cons.mpr ⟨?_, fun token member => ?_⟩
      · simp only [String.toList_ofList]
        exact ⟨fun c member => by simp [member], rest, stands⟩
      · obtain ⟨within, stands⟩ := ih token member
        exact ⟨fun c member => by simp [within member], stands⟩

/-- A text spells just the tokens that the scanner gives before its end. -/
theorem spells_iff (source : String) (spelled : List Token) :
    Spells 0 source.toList spelled ↔
      tokens source = spelled ++ [⟨.endOfInput, "", source.utf8ByteSize⟩] := by
  have scanned {spelled : List Token} (spells : Spells 0 source.toList spelled) :
      tokens source = spelled ++ [⟨.endOfInput, "", source.utf8ByteSize⟩] := by
    rw [tokens, Scanner.tokens_of_spells spells rfl rfl]
    simp [Scanner.endToken, Scanner.ofSource, byteLength]
  refine ⟨scanned, ?_⟩
  intro given
  obtain ⟨others, spells⟩ := exists_spells 0 source.toList
  have same := given.symm.trans (scanned spells)
  rwa [List.append_cancel_right same]

/-- Each token but the end is made of characters of the text. -/
theorem stands_of_mem_tokens {source : String} {token : Token} (member : token ∈ tokens source) :
    token.kind = .endOfInput ∨ token.text.toList ⊆ source.toList ∧
      ∃ rest, Lexeme.Stands token.kind token.text.toList rest := by
  obtain ⟨spelled, spells⟩ := exists_spells 0 source.toList
  rw [(spells_iff source spelled).mp spells, List.mem_append, List.mem_singleton] at member
  rcases member with member | rfl
  · exact .inr (spells.stands token member)
  · exact .inl rfl

end Homoiconic
