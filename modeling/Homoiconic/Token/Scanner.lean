import Homoiconic.Token.Lexeme

/-! # Scanning

A scanner is a place in a program text. `nextToken` answers the next token and moves past it, and
goes on answering the end of the text once it is there; `next` is the same as a stream, which stops
after it has itself given the end of the text. `Scanner.tokens` lists all that is left.
-/

namespace Homoiconic

structure Scanner where
  rest : List Char
  offset : Nat := 0
  /-- Whether `next` has already given the end of the text. -/
  finished : Bool := false

namespace Scanner

def ofSource (source : String) : Scanner where
  rest := source.toList

/-- Move past the blank characters at the front. -/
def skipBlanks (s : Scanner) : Scanner :=
  { s with
    rest := s.rest.dropWhile Lexeme.isBlank
    offset := s.offset + (String.ofList (s.rest.takeWhile Lexeme.isBlank)).utf8ByteSize }

/-- The next token, and the place after it. At the end of the text this answers the end forever. -/
def nextToken (s : Scanner) : Token × Scanner :=
  let here := s.skipBlanks
  match here.rest with
  | [] => (⟨.endOfInput, "", here.offset⟩, here)
  | c :: cs =>
      let lexeme := Lexeme.ofFirst c cs
      let text := String.ofList lexeme.chars
      (⟨lexeme.kind, text, here.offset⟩,
        { here with rest := lexeme.rest, offset := here.offset + text.utf8ByteSize })

/-- The next token of the stream, which has ended once it has given the end of the text. -/
def next (s : Scanner) : Option Token × Scanner :=
  if s.finished then (none, s)
  else
    let (token, after) := s.nextToken
    (some token, { after with finished := token.kind == .endOfInput })

/-- Every token but the end of the text uses up some of it. -/
theorem length_rest_nextToken (s : Scanner) (h : s.nextToken.1.kind ≠ .endOfInput) :
    s.nextToken.2.rest.length < s.rest.length := by
  have blanks : s.skipBlanks.rest.length ≤ s.rest.length :=
    List.Sublist.length_le (List.dropWhile_sublist _)
  unfold nextToken at h ⊢
  cases hr : s.skipBlanks.rest with
  | nil => simp [hr] at h
  | cons c cs =>
      have shorter := Lexeme.length_rest_ofFirst c cs
      simp only [hr, List.length_cons] at blanks ⊢
      omega

/-- All tokens from here on; the end of the text is the last and stands only there. -/
def tokens (s : Scanner) : List Token :=
  if s.nextToken.1.kind = .endOfInput then [s.nextToken.1]
  else s.nextToken.1 :: s.nextToken.2.tokens
termination_by s.rest.length
decreasing_by exact length_rest_nextToken s (by assumption)

/-- The end of the text is the last token and no other. -/
theorem tokens_eq_append (s : Scanner) :
    ∃ inner last, s.tokens = inner ++ [last] ∧ (∀ token ∈ inner, token.kind ≠ .endOfInput) ∧
      last.kind = .endOfInput := by
  fun_induction tokens s with
  | case1 s isEnd => exact ⟨[], s.nextToken.1, rfl, by simp, isEnd⟩
  | case2 s goesOn ih =>
      obtain ⟨inner, last, split, before, isEnd⟩ := ih
      refine ⟨s.nextToken.1 :: inner, last, by rw [split, List.cons_append], ?_, isEnd⟩
      intro token member
      rcases List.mem_cons.mp member with rfl | member
      · exact goesOn
      · exact before token member

end Scanner

def tokens (source : String) : List Token :=
  (Scanner.ofSource source).tokens

end Homoiconic
