import Homoiconic.Reading.Block
import Homoiconic.Reading.Error

/-! # The place of a reader

While a program is read, some of its forms are still open. A `Nesting` is the whole way from the
form under way out to the program, with all that has been read so far. Tokens are taken one at a
time: `Nesting.shift` either goes on or says that no continuation of the text can be a program, and
`Nesting.finish` gives the program if nothing is left open.
-/

namespace Homoiconic

/-- The forms that are open at some place of a program, from the inside out. -/
inductive Nesting where
  /-- Among the statements of the program itself. -/
  | program (block : Block)
  /-- Inside a parenthesis opened at `start`, after some items, the latest first. -/
  | list (outer : Nesting) (start : Nat) (items : List Atom)
  /-- Inside a square bracket opened at `start`, after some items, the latest first. -/
  | bracket (outer : Nesting) (start : Nat) (items : List Atom)
  /-- Among the statements of a brace opened at `start`. -/
  | brace (outer : Nesting) (start : Nat) (block : Block)
  /-- Just after the quote mark at `start`. -/
  | mark (outer : Nesting) (start : Nat)

namespace Nesting

def start : Nesting :=
  .program {}

/-- Put a finished form, which starts at the byte offset `start`, in its place. A form after a
    quote mark finishes the quotation as well. -/
def supply (form : Atom) (start : Nat) : Nesting → Nesting
  | .program block => .program (block.add form start)
  | .list outer opened items => .list outer opened (form :: items)
  | .bracket outer opened items => .bracket outer opened (form :: items)
  | .brace outer opened block => .brace outer opened (block.add form start)
  | .mark outer opened => outer.supply (.quoted form) opened

/-- The byte offset of the innermost open form if that is a square bracket with three forms, which
    takes nothing but its closing. -/
def full? : Nesting → Option Nat
  | .bracket _ opened [_, _, _] => some opened
  | _ => none

/-- The integer that a run of digits denotes, if it is in range. -/
def integer? (digits : String) : Option Int64 :=
  let value := Nat.ofDigitChars 10 digits.toList 0
  if value < 1 <<< 63 then some (Int64.ofNat value) else none

def unexpected (token : Token) : ReadError :=
  .unexpectedToken token.text none token.offset

/-- Take a token that closes a form or separates statements. It has to fit the innermost open
    form. The bracket `[a op b]` is the call `(op a b)`. -/
def close (token : Token) (here : Nesting) : Except ReadError (Nesting × List Juxtaposition) :=
  match token.kind, here with
  | .semicolon, .program block => .ok (.program block.endStatement, block.remarks)
  | .semicolon, .brace outer opened block =>
      .ok (.brace outer opened block.endStatement, block.remarks)
  | .rightParen, .list outer opened items => .ok (outer.supply (.list items.reverse) opened, [])
  | .rightBracket, .bracket outer opened [right, operator, left] =>
      .ok (outer.supply (.list [operator, left, right]) opened, [])
  | .rightBracket, .bracket _ opened _ => .error (.malformedBracket opened)
  | .rightBrace, .brace outer opened block => .ok (outer.supply block.close opened, block.remarks)
  | _, _ => .error (unexpected token)

/-- Take one token, and say which statements it ends that hold several forms. The end of the text
    changes nothing. -/
def shift (token : Token) (here : Nesting) : Except ReadError (Nesting × List Juxtaposition) :=
  match token.kind, here.full? with
  | .endOfInput, _ => .ok (here, [])
  | .rightBracket, _ => here.close token
  | _, some opened => .error (.malformedBracket opened)
  | .leftParen, none => .ok (.list here token.offset [], [])
  | .leftBracket, none => .ok (.bracket here token.offset [], [])
  | .leftBrace, none => .ok (.brace here token.offset {}, [])
  | .quoteMark, none => .ok (.mark here token.offset, [])
  | .symbol, none => .ok (here.supply (.symbol token.text) token.offset, [])
  | .number, none =>
      match integer? token.text with
      | some value => .ok (here.supply (.number value) token.offset, [])
      | none => .error (.badInteger token.text token.offset)
  | _, none => here.close token

/-- End the text: the program as an atom, unless some form is still open. -/
def finish : Nesting → Except ReadError (Atom × List Juxtaposition)
  | .program block => .ok (block.close, block.remarks)
  | .list .. => .error (.unexpectedEnd .leftParen)
  | .bracket .. => .error (.unexpectedEnd .leftBracket)
  | .brace .. => .error (.unexpectedEnd .leftBrace)
  | .mark _ opened => .error (.danglingQuote opened)

end Nesting

end Homoiconic
