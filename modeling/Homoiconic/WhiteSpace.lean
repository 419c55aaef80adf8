/-! # White space

The characters with the Unicode property White_Space. They are more than the blanks that separate
tokens: a no-break space, for one, is white space, and yet it may stand in a symbol.
-/

namespace Homoiconic.WhiteSpace

/-- The code points with the property, as ranges with both ends. -/
def ranges : List (Nat × Nat) :=
  [(0x0009, 0x000D), (0x0020, 0x0020), (0x0085, 0x0085), (0x00A0, 0x00A0), (0x1680, 0x1680),
    (0x2000, 0x200A), (0x2028, 0x2029), (0x202F, 0x202F), (0x205F, 0x205F), (0x3000, 0x3000)]

def contains (c : Char) : Bool :=
  ranges.any fun range => range.1 ≤ c.toNat && c.toNat ≤ range.2

def isBlankText (text : String) : Bool :=
  text.toList.all contains

end Homoiconic.WhiteSpace
