import Homoiconic.Proofs.Token.Spelling

/-! # Asking a scanner in two ways

A scanner can be asked for the next token as a stream, which ends, or directly, which goes on
forever. However the two kinds of query are mixed, each token of the text is answered once and in
order, and after that the end of the text again and again. Both kinds move the same place in the
text; but only the stream ends, and only after it has itself answered the end of the text, even if
that has been answered before.
-/

namespace Homoiconic

namespace Scanner

/-- The two ways to ask a scanner for a token. -/
inductive Query where
  /-- As a stream. -/
  | next
  | nextToken
  deriving Repr, DecidableEq

/-- What is answered, and the scanner after it. -/
def ask (s : Scanner) : Query → Option Token × Scanner
  | .next => s.next
  | .nextToken => (some s.nextToken.1, s.nextToken.2)

/-- Several queries in a row, each with its answer. -/
def dialogue (s : Scanner) : List Query → List (Query × Option Token)
  | [] => []
  | query :: queries => (query, (s.ask query).1) :: (s.ask query).2.dialogue queries

/-- The stream has answered the end of the text. -/
def StreamEnds (exchanges : List (Query × Option Token)) : Prop :=
  ∃ token, (.next, some token) ∈ exchanges ∧ token.kind = .endOfInput

theorem streamEnds_cons {query : Query} {answer : Option Token}
    {exchanges : List (Query × Option Token)} :
    StreamEnds ((query, answer) :: exchanges) ↔
      (query = .next ∧ ∃ token, answer = some token ∧ token.kind = .endOfInput) ∨
        StreamEnds exchanges := by
  simp only [StreamEnds, List.mem_cons, Prod.mk.injEq, or_and_right, exists_or, and_assoc,
    exists_and_left, eq_comm]

theorem not_streamEnds_nil : ¬ StreamEnds [] := by
  simp [StreamEnds]

/-- What a scanner has before it: some tokens, and then the end of the text. When the stream has
    ended, there is nothing but the end. -/
structure Ahead (s : Scanner) (inner : List Token) (ending : Token) : Prop where
  spells : Spells s.offset s.rest inner
  ends : s.endToken = ending
  finished : s.finished = true → inner = []

/-- The token that comes next when these are ahead. -/
def front (inner : List Token) (ending : Token) : Token :=
  inner.head?.getD ending

@[simp]
theorem front_nil (ending : Token) : front [] ending = ending :=
  rfl

/-- To go on from the front takes one token at most. -/
theorem front_cons_isPrefix (inner : List Token) (ending : Token) (n : Nat) :
    front inner ending :: (inner.tail ++ List.replicate n ending) <+:
      inner ++ List.replicate (n + 1) ending := by
  cases inner with
  | nil => exact List.prefix_rfl
  | cons token others => simp [front, List.replicate_succ']

namespace Ahead

variable {s : Scanner} {inner : List Token} {ending : Token}

/-- Only the end of the text itself is of the kind that ends a stream. -/
theorem kind_front_iff (ahead : s.Ahead inner ending) :
    (front inner ending).kind = .endOfInput ↔ inner = [] := by
  cases inner with
  | nil =>
      rw [← ahead.ends]
      simp [front, endToken]
  | cons token others => simpa [front] using ahead.spells.kind_ne token List.mem_cons_self

/-- A token is taken off the front; the end of the text stays. -/
theorem nextToken (ahead : s.Ahead inner ending) :
    s.nextToken.1 = front inner ending ∧ s.nextToken.2.Ahead inner.tail ending := by
  obtain ⟨spells, rfl, finished⟩ := ahead
  have still : s.nextToken.2.finished = true → inner.tail = [] := by
    rw [finished_nextToken]
    intro ended
    rw [finished ended, List.tail_nil]
  generalize text : s.rest = chars at spells
  cases spells with
  | blanks blank =>
      subst text
      have taken := nextToken_blank blank
      rw [taken] at still ⊢
      refine ⟨rfl, .blanks (by simp), ?_, still⟩
      simp [endToken, byteLength]
  | token before stands later =>
      have taken := nextToken_stands before stands text
      rw [taken] at still ⊢
      exact ⟨rfl, later, endToken_after s _ _ text, still⟩

/-- A query of the stream is refused if that has ended. Any other query takes the front, and it ends
    the stream if it is of the stream and the front is the end of the text. -/
theorem ask (ahead : s.Ahead inner ending) (query : Query) :
    (query = .next ∧ s.finished = true ∧ s.ask query = (none, s)) ∨
      ¬ (query = .next ∧ s.finished = true) ∧
      (s.ask query).1 = some (front inner ending) ∧
      (s.ask query).2.Ahead inner.tail ending ∧
      ((s.ask query).2.finished = true ↔
        s.finished = true ∨ query = .next ∧ (front inner ending).kind = .endOfInput) := by
  obtain ⟨answer, later⟩ := ahead.nextToken
  cases query with
  | nextToken =>
      refine .inr ⟨by simp, congrArg some answer, later, ?_⟩
      simp [Scanner.ask, finished_nextToken]
  | next =>
      cases finished : s.finished with
      | true => exact .inl ⟨rfl, rfl, by simp [Scanner.ask, next, finished]⟩
      | false =>
          have goesOn : s.ask .next = (some (front inner ending), { s.nextToken.2 with
              finished := (front inner ending).kind == .endOfInput }) := by
            simp [Scanner.ask, next, finished, answer]
          rw [goesOn]
          refine .inr ⟨by simp, rfl, ⟨later.spells, later.ends, ?_⟩, by simp⟩
          rw [beq_iff_eq, ahead.kind_front_iff]
          rintro rfl
          exact List.tail_nil

/-- The tokens answered are those ahead, in order and each once, and after them the end again and
    again. -/
theorem answers_isPrefix (ahead : s.Ahead inner ending) (queries : List Query) :
    (s.dialogue queries).filterMap Prod.snd <+: inner ++ List.replicate queries.length ending := by
  induction queries generalizing s inner with
  | nil => exact List.nil_prefix
  | cons query queries ih =>
      rcases ahead.ask query with ⟨_, _, refused⟩ | ⟨_, answer, later, _⟩
      · have others := ih ahead
        rw [dialogue, refused, List.filterMap_cons_none rfl]
        refine others.trans ?_
        rw [List.length_cons, List.replicate_succ', ← List.append_assoc]
        exact List.prefix_append _ _
      · have others := ih later
        rw [dialogue, answer, List.filterMap_cons]
        exact ((List.prefix_cons_inj _).mpr others).trans (front_cons_isPrefix _ _ _)

/-- What is answered in a dialogue, wherever that has begun: nothing just if the stream is asked
    after its end, and only the end of the text to a direct query after that. -/
theorem answer_at {queries : List Query} {earlier later : List (Query × Option Token)}
    {query : Query} {answer : Option Token} (ahead : s.Ahead inner ending)
    (split : s.dialogue queries = earlier ++ (query, answer) :: later) :
    (answer = none ↔ query = .next ∧ (s.finished = true ∨ StreamEnds earlier)) ∧
      (s.finished = true ∨ StreamEnds earlier → query = .nextToken → answer = some ending) := by
  induction queries generalizing s inner earlier with
  | nil => simp [dialogue] at split
  | cons first queries ih =>
      rw [dialogue] at split
      cases earlier with
      | nil =>
          rw [List.nil_append, List.cons.injEq, Prod.mk.injEq] at split
          obtain ⟨⟨rfl, rfl⟩, rfl⟩ := split
          simp only [not_streamEnds_nil, or_false]
          rcases ahead.ask first with ⟨isStream, finished, refused⟩ | ⟨goesOn, given, _⟩
          · rw [refused]
            simp [isStream, finished]
          · rw [given]
            refine ⟨by simpa using goesOn, ?_⟩
            intro finished _
            rw [ahead.finished finished, front_nil]
      | cons exchange earlier =>
          rw [List.cons_append, List.cons.injEq] at split
          obtain ⟨rfl, split⟩ := split
          rw [streamEnds_cons, ← or_assoc]
          rcases ahead.ask first with ⟨isStream, finished, refused⟩ | ⟨goesOn, given, after, ended⟩
          · rw [refused] at split ⊢
            simpa using ih ahead split
          · rw [given]
            have met := ih after split
            rw [ended] at met
            simpa using met

end Ahead

theorem ahead_ofSource (source : String) :
    ∃ inner, Homoiconic.tokens source = inner ++ [⟨.endOfInput, "", source.utf8ByteSize⟩] ∧
      (ofSource source).Ahead inner ⟨.endOfInput, "", source.utf8ByteSize⟩ := by
  obtain ⟨inner, spells⟩ := exists_spells 0 source.toList
  have ends : (ofSource source).endToken = ⟨.endOfInput, "", source.utf8ByteSize⟩ := by
    simp [endToken, ofSource, byteLength]
  exact ⟨inner, (spells_iff source inner).mp spells, spells, ends, by simp [ofSource]⟩

theorem map_fst_dialogue (s : Scanner) (queries : List Query) :
    (s.dialogue queries).map Prod.fst = queries := by
  induction queries generalizing s with
  | nil => rfl
  | cons query queries ih => rw [dialogue, List.map_cons, ih]

/-- **No token is lost or repeated** by asking in both ways. Each query has an answer, and all tokens
    that are answered, in order, are those of the text and then the last of them, the end of the
    text, over and over. A stream that is asked answers nothing just if it has itself
    answered the end of the text before; asked directly, the scanner always answers a token, and
    still the end of the text when the stream has ended. -/
theorem mixed_queries_lose_no_token (source : String) (queries : List Query) :
    ∃ ending, (Homoiconic.tokens source).getLast? = some ending ∧ ending.kind = .endOfInput ∧
      ((ofSource source).dialogue queries).map Prod.fst = queries ∧
      ((ofSource source).dialogue queries).filterMap Prod.snd <+:
        Homoiconic.tokens source ++ List.replicate queries.length ending ∧
      ∀ earlier query answer later,
        (ofSource source).dialogue queries = earlier ++ (query, answer) :: later →
        (query = .next → (answer = none ↔ StreamEnds earlier)) ∧
        (query = .nextToken → answer ≠ none ∧ (StreamEnds earlier → answer = some ending)) := by
  obtain ⟨inner, scanned, ahead⟩ := ahead_ofSource source
  refine ⟨⟨.endOfInput, "", source.utf8ByteSize⟩, ?_, rfl, map_fst_dialogue _ _, ?_, ?_⟩
  · rw [scanned, List.getLast?_concat]
  · -- The end of the text is among the tokens already, so one of its repetitions is to spare.
    refine (ahead.answers_isPrefix queries).trans ?_
    rw [scanned, List.append_assoc, List.singleton_append, ← List.replicate_succ,
      List.replicate_succ', ← List.append_assoc]
    exact List.prefix_append _ _
  · intro earlier query answer later split
    obtain ⟨refused, stays⟩ := ahead.answer_at split
    have begun : (ofSource source).finished = false := rfl
    rw [begun, Bool.false_eq_true, false_or] at refused stays
    constructor
    · rintro rfl
      simpa using refused
    · rintro rfl
      exact ⟨by simpa using refused, fun ended => stays ended rfl⟩

/-- A direct query that comes to the end of the text first does not end the stream. -/
theorem mixed_queries_lose_no_token_at_end :
    let direct : List (Query × Option Token) :=
      [(.next, some ⟨.symbol, "x", 0⟩), (.nextToken, some ⟨.endOfInput, "", 2⟩)]
    let asStream : List (Query × Option Token) := [(.next, some ⟨.endOfInput, "", 2⟩)]
    (ofSource "x ").dialogue [.next, .nextToken, .next, .next] =
        direct ++ asStream ++ [(.next, none)] ∧
      ¬ StreamEnds direct ∧ StreamEnds (direct ++ asStream) := by
  intro direct asStream
  have answered : (ofSource "x ").dialogue [.next, .nextToken, .next, .next] =
      direct ++ asStream ++ [(.next, none)] := by decide +kernel
  obtain ⟨_, _, _, _, _, positions⟩ := mixed_queries_lose_no_token "x "
    [.next, .nextToken, .next, .next]
  obtain ⟨third, _⟩ := positions direct _ _ _ answered
  obtain ⟨fourth, _⟩ := positions (direct ++ asStream) _ _ _ answered
  exact ⟨answered, (not_congr (third rfl)).mp (by simp), (fourth rfl).mp rfl⟩

end Scanner

end Homoiconic
