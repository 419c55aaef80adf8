import Homoiconic.Token.Basic

/-! # Why a text is not a program

Two of the errors speak of the end of the text, `unexpectedEnd` and `danglingQuote`: there, more
text can still make a program. The other three are final.
-/

namespace Homoiconic

inductive ReadError where
  /-- A token that cannot stand where it stands; `expected` is what should have. -/
  | unexpectedToken (found : String) (expected : Option TokenKind) (offset : Nat)
  /-- The text ends inside what a token of kind `inside` has opened. -/
  | unexpectedEnd (inside : TokenKind)
  /-- The square bracket at `offset` does not enclose exactly three forms. -/
  | malformedBracket (offset : Nat)
  /-- A number above the largest 64-bit signed integer. -/
  | badInteger (literal : String) (offset : Nat)
  /-- The text ends just after the quote mark at `offset`. -/
  | danglingQuote (offset : Nat)
  deriving Repr, DecidableEq

def ReadError.message : ReadError → String
  | .unexpectedToken found (some kind) offset =>
      s!"expected {kind.describe} but found '{found}' at {offset}"
  | .unexpectedToken found none offset => s!"unexpected token '{found}' at {offset}"
  | .unexpectedEnd inside => s!"unexpected end of input: unclosed {inside.describe}"
  | .malformedBracket offset =>
      s!"infix form opened at {offset} must contain exactly three forms"
  | .badInteger literal offset => s!"integer literal {literal} at {offset} is out of range"
  | .danglingQuote offset => s!"quote mark at {offset} is not followed by a form"

end Homoiconic
