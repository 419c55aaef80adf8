import Homoiconic.Atom.Basic

/-! # Blocks of statements

A block is a row of statements with semicolons between them. Each statement is a row of forms: a
single form stands for itself, and several forms in a row are read as one call, which is most often
a forgotten semicolon, so that it is worth a remark.
-/

namespace Homoiconic

/-- A remark that several forms stand in one statement. -/
structure Juxtaposition where
  /-- The byte offset of the first token of the statement. -/
  offset : Nat
  forms : Nat
  deriving Repr, DecidableEq

/-- A block as far as it has been read. -/
structure Block where
  /-- The finished statements, the latest first. -/
  statements : List Atom := []
  /-- The forms of the statement under way, the latest first. -/
  forms : List Atom := []
  /-- The byte offset at which the statement under way starts, if it has a form. -/
  start : Nat := 0

namespace Block

/-- A statement from its forms in order: one form is that form, any other number is their list.
    Statements are quoted, and the `do` of the block takes the quote off again. -/
def statement : List Atom → Atom
  | [form] => .quoted form
  | forms => .quoted (.list forms)

/-- Add a form, which starts at the byte offset `start`, to the statement under way. -/
def add (block : Block) (form : Atom) (start : Nat) : Block :=
  match block.forms with
  | [] => { block with forms := [form], start }
  | forms => { block with forms := form :: forms }

/-- The remark that the statement under way deserves, if it ends here. -/
def remarks (block : Block) : List Juxtaposition :=
  if 1 < block.forms.length then [⟨block.start, block.forms.length⟩] else []

/-- A semicolon ends the statement under way, even one without forms. -/
def endStatement (block : Block) : Block where
  statements := statement block.forms.reverse :: block.statements

/-- The block as an atom, a call of `do` on its statements. A statement under way at the end of the
    block counts only if it has forms. -/
def close (block : Block) : Atom :=
  let ended := if block.forms.isEmpty then block else block.endStatement
  .list (.symbol "do" :: ended.statements.reverse)

end Block

end Homoiconic
