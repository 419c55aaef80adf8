/-! # Tokens

A token is a stretch of program text with its kind and the byte offset at which it stands.
The end of the text is itself a token, with empty text, so that every text has a last token.
-/

namespace Homoiconic

inductive TokenKind where
  | leftParen
  | rightParen
  | leftBrace
  | rightBrace
  | leftBracket
  | rightBracket
  | semicolon
  | quoteMark
  | number
  | symbol
  | endOfInput
  deriving Repr, DecidableEq

def TokenKind.describe : TokenKind → String
  | .leftParen => "'('"
  | .rightParen => "')'"
  | .leftBrace => "'\x7b'"
  | .rightBrace => "'\x7d'"
  | .leftBracket => "'['"
  | .rightBracket => "']'"
  | .semicolon => "';'"
  | .quoteMark => "'\x60'"
  | .number => "number"
  | .symbol => "symbol"
  | .endOfInput => "end of input"

/-- A token: what it is, how it is written, and the byte offset at which it is written. -/
structure Token where
  kind : TokenKind
  /-- The characters of the token as they stand in the text. -/
  text : String
  /-- The number of bytes of text before the token. -/
  offset : Nat
  deriving Repr, DecidableEq

end Homoiconic
