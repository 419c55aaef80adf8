import Homoiconic.Proofs.Token.Spelling

/-! # The pattern of a token

A pattern can match a text in several ways, and some are preferred to others: an earlier alternative
to a later one, a longer repetition to a shorter one, something optional to nothing. The most
preferred way is the match. One pattern describes the blanks before a token together with each kind
of token as a group, and to scan a token is to match this pattern: that a symbol never starts with a
digit is not said in the pattern, but follows from the order of its groups.
-/

namespace Homoiconic

/-- A way of matching, as far as it has gone. -/
structure Match where
  /-- The characters that have been matched. -/
  taken : List Char := []
  rest : List Char
  /-- The groups that have matched: the number of each, what stands before it, its text, and what
      stands after it. -/
  groups : List (Nat × List Char × List Char × List Char) := []

inductive Pattern where
  /-- One character of a class. -/
  | one (p : Char → Bool)
  /-- Any number of characters of a class. -/
  | many (p : Char → Bool)
  | both (first second : Pattern)
  | either (first second : Pattern)
  | optional (inner : Pattern)
  | group (number : Nat) (inner : Pattern)

namespace Pattern

/-- The ways to split characters of a class off the front of a text, the longest first. -/
def runs (p : Char → Bool) : List Char → List (List Char × List Char)
  | [] => [([], [])]
  | c :: rest =>
      if p c then (runs p rest).map (fun (run, after) => (c :: run, after)) ++ [([], c :: rest)]
      else [([], c :: rest)]

/-- All ways to go on with a match, the most preferred first. -/
@[simp]
def ways : Pattern → Match → List Match
  | one p, m =>
      match m.rest with
      | [] => []
      | c :: rest => if p c then [{ m with taken := m.taken ++ [c], rest }] else []
  | many p, m => (runs p m.rest).map fun (run, rest) => { m with taken := m.taken ++ run, rest }
  | both first second, m => (first.ways m).flatMap second.ways
  | either first second, m => first.ways m ++ second.ways m
  | optional inner, m => inner.ways m ++ [m]
  | group number inner, m =>
      (inner.ways m).map fun after =>
        { after with
          groups := (number, m.taken, after.taken.drop m.taken.length, after.rest) :: after.groups }

/-- The preferred match at the front of a text. -/
def first? (pattern : Pattern) (text : List Char) : Option Match :=
  (pattern.ways { rest := text }).head?

/-- A punctuation mark, a number or a symbol, each as a group of its own. -/
def lexeme : Pattern :=
  either (group 1 (one fun c => (Lexeme.punctuation? c).isSome))
    (either (group 2 (both (one Char.isDigit) (many Char.isDigit)))
      (group 3 (both (one fun c => !Lexeme.isDelimiter c) (many Lexeme.continuesSymbol))))

/-- Blanks, and then a token, unless the text ends. -/
def token : Pattern :=
  both (many Lexeme.isBlank) (optional lexeme)

/-- The kind of token that a group stands for. -/
def groupKind : Nat → List Char → TokenKind
  | 1, text => (text.head?.bind Lexeme.punctuation?).getD .quoteMark
  | 2, _ => .number
  | _, _ => .symbol

theorem runs_eq_cons (p : Char → Bool) (text : List Char) :
    ∃ others, runs p text = (text.takeWhile p, text.dropWhile p) :: others := by
  induction text with
  | nil => exact ⟨[], rfl⟩
  | cons c rest ih =>
      obtain ⟨others, longest⟩ := ih
      cases member : p c <;> simp [runs, member, longest]

section Ways

variable {m : Match} {c : Char} {rest : List Char} {p q : Char → Bool}

theorem ways_one (text : m.rest = c :: rest) :
    (one p).ways m = if p c then [{ m with taken := m.taken ++ [c], rest }] else [] := by
  rw [ways, text]

theorem ways_many (p : Char → Bool) (m : Match) :
    ∃ others, (many p).ways m =
      { m with taken := m.taken ++ m.rest.takeWhile p, rest := m.rest.dropWhile p } :: others := by
  obtain ⟨others, longest⟩ := runs_eq_cons p m.rest
  simp [longest]

/-- One character of a class, and then as many of another as there are. -/
theorem ways_one_many (text : m.rest = c :: rest) (member : p c) :
    ∃ others, (both (one p) (many q)).ways m =
      { m with taken := m.taken ++ c :: rest.takeWhile q, rest := rest.dropWhile q } :: others := by
  obtain ⟨others, longest⟩ := ways_many q { m with taken := m.taken ++ [c], rest }
  refine ⟨others, ?_⟩
  rw [ways, ways_one text, if_pos member, List.flatMap_singleton, longest]
  simp

theorem ways_one_many_eq_nil (text : m.rest = c :: rest) (other : p c = false) :
    (both (one p) (many q)).ways m = [] := by
  rw [ways, ways_one text, other]
  rfl

theorem ways_group (number : Nat) {inner : Pattern} {chars : List Char} {others : List Match}
    (preferred : inner.ways m = { m with taken := m.taken ++ chars, rest } :: others) :
    ∃ others, (group number inner).ways m =
      { taken := m.taken ++ chars, rest
        groups := (number, m.taken, chars, rest) :: m.groups } :: others := by
  simp [preferred]

theorem ways_group_eq_nil {number : Nat} {inner : Pattern} (none : inner.ways m = []) :
    (group number inner).ways m = [] := by
  rw [ways, none, List.map_nil]

theorem ways_either {first second : Pattern} {way : Match} {others : List Match}
    (preferred : first.ways m = way :: others) :
    ∃ others, (either first second).ways m = way :: others := by
  simp [preferred]

theorem ways_either_of_nil {first second : Pattern} (none : first.ways m = []) :
    (either first second).ways m = second.ways m := by
  rw [ways, none, List.nil_append]

/-- The preferred way to match a lexeme is the one that is split off, as the group for its kind. -/
theorem ways_lexeme (text : m.rest = c :: rest) (notBlank : Lexeme.isBlank c = false) :
    ∃ number others, lexeme.ways m =
        { taken := m.taken ++ (Lexeme.ofFirst c rest).chars
          rest := (Lexeme.ofFirst c rest).rest
          groups := (number, m.taken, (Lexeme.ofFirst c rest).chars,
            (Lexeme.ofFirst c rest).rest) :: m.groups } :: others ∧
      groupKind number (Lexeme.ofFirst c rest).chars = (Lexeme.ofFirst c rest).kind := by
  unfold lexeme
  cases mark : Lexeme.punctuation? c with
  | some kind =>
      have first := ways_one (p := fun c => (Lexeme.punctuation? c).isSome) text
      rw [mark, Option.isSome_some, if_pos rfl] at first
      obtain ⟨others, group⟩ := ways_group 1 first
      obtain ⟨others, preferred⟩ := ways_either group
      simp only [Lexeme.ofFirst, mark]
      exact ⟨1, _, preferred, by simp [groupKind, mark]⟩
  | none =>
      have noMark := ways_one (p := fun c => (Lexeme.punctuation? c).isSome) text
      rw [mark, Option.isSome_none, if_neg Bool.false_ne_true] at noMark
      rw [ways_either_of_nil (ways_group_eq_nil noMark)]
      cases digit : c.isDigit with
      | true =>
          obtain ⟨others, first⟩ := ways_one_many (q := Char.isDigit) text digit
          obtain ⟨others, group⟩ := ways_group 2 first
          obtain ⟨others, preferred⟩ := ways_either group
          simp only [Lexeme.ofFirst, mark, digit, if_true]
          exact ⟨2, _, preferred, rfl⟩
      | false =>
          rw [ways_either_of_nil (ways_group_eq_nil (ways_one_many_eq_nil text digit))]
          have starts : (!Lexeme.isDelimiter c) = true := by
            simp [Lexeme.isDelimiter, notBlank, mark]
          obtain ⟨others, first⟩ := ways_one_many (p := fun c => !Lexeme.isDelimiter c)
            (q := Lexeme.continuesSymbol) text starts
          obtain ⟨others, group⟩ := ways_group 3 first
          simp only [Lexeme.ofFirst, mark, digit, Bool.false_eq_true, if_false]
          exact ⟨3, _, group, rfl⟩

theorem ways_lexeme_eq_nil (text : m.rest = []) : lexeme.ways m = [] := by
  simp [lexeme, text]

end Ways

/-- Among all ways to match a token, the preferred one begins with all blanks that there are. -/
theorem first?_token (text : List Char) :
    token.first? text =
      ((optional lexeme).ways
        { taken := text.takeWhile Lexeme.isBlank
          rest := text.dropWhile Lexeme.isBlank }).head? := by
  obtain ⟨others, blanks⟩ := ways_many Lexeme.isBlank { rest := text }
  rw [first?, token, ways, blanks, List.flatMap_cons, List.nil_append]
  simp

end Pattern

namespace Scanner

/-- Scan a token by the pattern: where the group that matches is, there is the token. -/
def matchToken (s : Scanner) : Token × Scanner :=
  match (Pattern.token.first? s.rest).bind (·.groups.head?) with
  | some (number, before, text, rest) =>
      (⟨Pattern.groupKind number text, String.ofList text, s.offset + byteLength before⟩,
        { s with rest, offset := s.offset + byteLength (before ++ text) })
  | none => (s.endToken, { s with rest := [], offset := s.offset + byteLength s.rest })

theorem nextToken_eq_matchToken (s : Scanner) : s.nextToken = s.matchToken := by
  have whole := List.takeWhile_append_dropWhile (p := Lexeme.isBlank) (l := s.rest)
  unfold matchToken nextToken
  simp only [skipBlanks, Pattern.first?_token]
  cases left : s.rest.dropWhile Lexeme.isBlank with
  | nil =>
      rw [left, List.append_nil] at whole
      rw [Pattern.ways, Pattern.ways_lexeme_eq_nil rfl]
      simp [whole, endToken, byteLength]
  | cons c rest =>
      have notBlank : Lexeme.isBlank c = false :=
        Lexeme.head?_dropWhile s.rest (by simp [left])
      obtain ⟨number, others, preferred, kind⟩ := Pattern.ways_lexeme
        (m := { taken := s.rest.takeWhile Lexeme.isBlank, rest := c :: rest }) rfl notBlank
      rw [Pattern.ways, preferred]
      simp [kind, byteLength, Nat.add_assoc]

/-- To scan is to match the pattern of a token, time and again. As a stream, a scanner ends, and it
    ends with the end of the text; the tokens before that are those that the text spells, and the
    text spells no others. -/
theorem scanning_is_lossless :
    (∀ s : Scanner, s.nextToken = s.matchToken) ∧
    ∀ source : String, ∃ inner,
      (ofSource source).Streams (inner ++ [⟨.endOfInput, "", source.utf8ByteSize⟩]) ∧
      (∀ token ∈ inner, token.kind ≠ .endOfInput) ∧
      ∀ spelled, Spells 0 source.toList spelled ↔ spelled = inner := by
  refine ⟨nextToken_eq_matchToken, ?_⟩
  intro source
  obtain ⟨inner, spells⟩ := exists_spells 0 source.toList
  have given := (spells_iff source inner).mp spells
  refine ⟨inner, ?_, spells.kind_ne, ?_⟩
  · rw [← given]
    exact streams_tokens (ofSource source) rfl
  · intro spelled
    rw [spells_iff, given, List.append_left_inj]
    exact eq_comm

end Scanner

end Homoiconic
