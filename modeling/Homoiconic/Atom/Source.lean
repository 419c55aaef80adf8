import Homoiconic.Atom.Basic
import Homoiconic.Token.Lexeme

/-! # Atoms as program text

The printed text of an atom is for people: it marks a quotation with an apostrophe, which to a
reader is a character of a symbol. `Atom.source` writes a quotation with a quote mark instead. Only
some atoms have a program text at all, those that `Atom.isReadable` accepts.
-/

namespace Homoiconic

namespace Atom

mutual
/-- Whether an atom can be written in a program: no number is negative, and all names are names that
    a symbol token can have. -/
def isReadable : Atom → Bool
  | .number value => 0 ≤ value
  | .symbol name => Lexeme.isSymbolName name.toList
  | .list items => areReadable items
  | .quoted inner => inner.isReadable

def areReadable : List Atom → Bool
  | [] => true
  | item :: rest => item.isReadable && areReadable rest
end

mutual
def source : Atom → String
  | .number value => toString value.toInt
  | .symbol name => name
  | .list items => "(" ++ " ".intercalate (sources items) ++ ")"
  | .quoted inner => "\x60" ++ inner.source

def sources : List Atom → List String
  | [] => []
  | item :: rest => item.source :: sources rest
end

theorem areReadable_eq_all (items : List Atom) : areReadable items = items.all isReadable := by
  induction items with
  | nil => rfl
  | cons item rest ih => rw [areReadable, ih, List.all_cons]

end Atom

end Homoiconic
