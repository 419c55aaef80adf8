import Homoiconic.Reading.Nesting
import Homoiconic.Token.Scanner

/-! # Reading a program

A program text is read from left to right, one token at a time, into one atom: a call of `do` on
the statements. Remarks are kept even if reading fails later on.
-/

namespace Homoiconic

/-- What came of reading a text. -/
structure Reading where
  result : Except ReadError Atom
  /-- The remarks made on the way, in the order of the statements' ends. -/
  remarks : List Juxtaposition

namespace Reading

/-- Read on from a place in a program, after some remarks. -/
def ofTokens (here : Nesting) (remarks : List Juxtaposition) : List Token → Reading
  | [] =>
      match here.finish with
      | .ok (program, last) => ⟨.ok program, remarks ++ last⟩
      | .error e => ⟨.error e, remarks⟩
  | token :: rest =>
      match here.shift token with
      | .ok (next, more) => ofTokens next (remarks ++ more) rest
      | .error e => ⟨.error e, remarks⟩

def ofSource (source : String) : Reading :=
  ofTokens .start [] (tokens source)

end Reading

def read (source : String) : Except ReadError Atom :=
  (Reading.ofSource source).result

end Homoiconic
