/-! # Atoms

Programs and quoted data are the same thing: atoms. An atom is a number, a symbol, a list of atoms
or a quotation. `Atom.text` is how an atom is printed.
-/

namespace Homoiconic

/-- A piece of code, which is also a piece of data. -/
inductive Atom where
  | number (value : Int64)
  | symbol (name : String)
  /-- Atoms in a row; evaluated, a call. -/
  | list (items : List Atom)
  /-- An atom that evaluates to the atom inside it. -/
  | quoted (inner : Atom)
  deriving Repr

namespace Atom

mutual
def decEq : (a b : Atom) → Decidable (a = b)
  | .number m, .number n => if h : m = n then .isTrue (by rw [h]) else .isFalse (by simp [h])
  | .symbol x, .symbol y => if h : x = y then .isTrue (by rw [h]) else .isFalse (by simp [h])
  | .list xs, .list ys =>
      match decEqItems xs ys with
      | .isTrue h => .isTrue (by rw [h])
      | .isFalse h => .isFalse (by simp [h])
  | .quoted a, .quoted b =>
      match decEq a b with
      | .isTrue h => .isTrue (by rw [h])
      | .isFalse h => .isFalse (by simp [h])
  | .number _, .symbol _ | .number _, .list _ | .number _, .quoted _ => .isFalse (by simp)
  | .symbol _, .number _ | .symbol _, .list _ | .symbol _, .quoted _ => .isFalse (by simp)
  | .list _, .number _ | .list _, .symbol _ | .list _, .quoted _ => .isFalse (by simp)
  | .quoted _, .number _ | .quoted _, .symbol _ | .quoted _, .list _ => .isFalse (by simp)

def decEqItems : (xs ys : List Atom) → Decidable (xs = ys)
  | [], [] => .isTrue rfl
  | [], _ :: _ | _ :: _, [] => .isFalse (by simp)
  | x :: xs, y :: ys =>
      match decEq x y with
      | .isTrue hx =>
          match decEqItems xs ys with
          | .isTrue hxs => .isTrue (by rw [hx, hxs])
          | .isFalse hxs => .isFalse (by simp [hxs])
      | .isFalse hx => .isFalse (by simp [hx])
end

instance : DecidableEq Atom := decEq

def symbol? : Atom → Option String
  | .symbol name => some name
  | _ => none

def items? : Atom → Option (List Atom)
  | .list items => some items
  | _ => none

/-- An atom without its outermost quotation, if it has one. -/
def unquoted : Atom → Atom
  | .quoted inner => inner
  | code => code

mutual
/-- The printed text: numbers in decimal, lists in parentheses with single spaces, and an
    apostrophe before what is quoted. -/
def text : Atom → String
  | .number value => toString value.toInt
  | .symbol name => name
  | .list items => "(" ++ " ".intercalate (texts items) ++ ")"
  | .quoted inner => "'" ++ inner.text

def texts : List Atom → List String
  | [] => []
  | item :: rest => item.text :: texts rest
end

end Atom

end Homoiconic
