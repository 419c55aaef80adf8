import Homoiconic.Token.Basic

/-! # Lexemes

Which characters make up one token. The first character decides the kind: eight characters are
tokens by themselves, an ASCII digit starts a number, and any other character that is not blank
starts a symbol. Numbers and symbols then extend as far as they can. `chars_append_rest` says that
splitting a text loses nothing.
-/

namespace Homoiconic

structure Lexeme where
  kind : TokenKind
  chars : List Char
  rest : List Char

namespace Lexeme

/-- Blank characters separate tokens: space, tab, carriage return and line feed, and no others. -/
def isBlank (c : Char) : Bool :=
  c == ' ' || c == '\t' || c == '\r' || c == '\n'

/-- The kind of a character that is a token by itself. -/
def punctuation? : Char → Option TokenKind
  | '(' => some .leftParen
  | ')' => some .rightParen
  | '\x7b' => some .leftBrace
  | '\x7d' => some .rightBrace
  | '[' => some .leftBracket
  | ']' => some .rightBracket
  | ';' => some .semicolon
  | '\x60' => some .quoteMark
  | _ => none

/-- A character that ends whatever token stands before it. -/
def isDelimiter (c : Char) : Bool :=
  isBlank c || (punctuation? c).isSome

/-- A symbol starts with anything but a delimiter or an ASCII digit. -/
def startsSymbol (c : Char) : Bool :=
  !isDelimiter c && !c.isDigit

/-- A symbol goes on through anything but a delimiter or an apostrophe: digits may stand inside
    a symbol, and an apostrophe only at its start. -/
def continuesSymbol (c : Char) : Bool :=
  !isDelimiter c && c != '\''

/-- The texts that can be the name of a symbol token. -/
def isSymbolName : List Char → Bool
  | [] => false
  | c :: rest => startsSymbol c && rest.all continuesSymbol

/-- Split off the token that starts with the character `c`. -/
def ofFirst (c : Char) (rest : List Char) : Lexeme :=
  match punctuation? c with
  | some kind => ⟨kind, [c], rest⟩
  | none =>
      if c.isDigit then ⟨.number, c :: rest.takeWhile Char.isDigit, rest.dropWhile Char.isDigit⟩
      else ⟨.symbol, c :: rest.takeWhile continuesSymbol, rest.dropWhile continuesSymbol⟩

/-- The characters of a token and those after it are the text it was split from. -/
theorem chars_append_rest (c : Char) (rest : List Char) :
    (ofFirst c rest).chars ++ (ofFirst c rest).rest = c :: rest := by
  unfold ofFirst
  split
  · rfl
  · split <;> simp [List.takeWhile_append_dropWhile]

/-- A token takes at least its first character. -/
theorem length_rest_ofFirst (c : Char) (rest : List Char) :
    (ofFirst c rest).rest.length ≤ rest.length := by
  unfold ofFirst
  split
  · exact Nat.le_refl _
  · split <;> exact List.Sublist.length_le (List.dropWhile_sublist _)

end Lexeme

end Homoiconic
