/-! # Names in the order of their bytes

Names are compared character by character. A name is stored as bytes, and it comes to the same to
compare these: of two characters the smaller one has the smaller first byte in which their encodings
in UTF-8 differ. The bytes of an encoding hold the digits of the number of the character to the base
64, and the first of them tells how many there are.
-/

namespace Homoiconic

/-- The encoding of a name in UTF-8. -/
def bytes (name : String) : List UInt8 :=
  name.toUTF8.data.toList

section Characters

theorem cons_ofNat_lt_cons_ofNat {byte other : Nat} {first second : List UInt8}
    (small : byte < 256) (small' : other < 256) :
    UInt8.ofNat byte :: first < UInt8.ofNat other :: second ↔
      byte < other ∨ byte = other ∧ first < second := by
  rw [List.cons_lt_cons_iff, UInt8.lt_iff_toNat_lt, ← UInt8.toNat_inj,
    UInt8.toNat_ofNat_of_lt' small, UInt8.toNat_ofNat_of_lt' small']

theorem lt_iff_digit (number other : Nat) : number < other ↔
    number / 64 < other / 64 ∨ number / 64 = other / 64 ∧ number % 64 < other % 64 := by
  omega

/-- Numbers of four digits are compared digit by digit. -/
theorem lt_iff_digits (number other : Nat) : number < other ↔
    number / 262144 < other / 262144 ∨ number / 262144 = other / 262144 ∧
      (number / 4096 % 64 < other / 4096 % 64 ∨ number / 4096 % 64 = other / 4096 % 64 ∧
        (number / 64 % 64 < other / 64 % 64 ∨ number / 64 % 64 = other / 64 % 64 ∧
          number % 64 < other % 64)) := by
  rw [lt_iff_digit, lt_iff_digit (number / 64), lt_iff_digit (number / 64 / 64)]
  simp only [Nat.div_div_eq_div_mul]
  omega

/-- No character has a number of more than 21 bits. -/
theorem toNat_val_lt (character : Char) : character.val.toNat < 0x110000 := by
  cases character.valid with
  | inl below => exact Nat.lt_trans below (by decide)
  | inr above => exact above.2

/-- Whatever follows, the encoding of a smaller character is smaller. -/
theorem utf8EncodeChar_append_lt {character other : Char} (less : character < other)
    (first second : List UInt8) :
    String.utf8EncodeChar character ++ first < String.utf8EncodeChar other ++ second := by
  have numbers : character.val.toNat < other.val.toNat := less
  have bounded := toNat_val_lt other
  simp only [String.utf8EncodeChar]
  generalize character.val.toNat = number at *
  generalize other.val.toNat = other at *
  repeat' split
  all_goals
    simp (disch := omega) only [List.cons_append, List.nil_append, cons_ofNat_lt_cons_ofNat]
  any_goals omega
  -- What is left is two encodings of four bytes.
  rw [lt_iff_digits] at numbers
  omega

theorem flatMap_utf8EncodeChar_lt {first second : List Char} (less : first < second) :
    first.flatMap String.utf8EncodeChar < second.flatMap String.utf8EncodeChar := by
  induction less with
  | nil =>
      rw [List.flatMap_nil, List.flatMap_cons]
      obtain ⟨byte, encoding, encoded⟩ :=
        List.exists_cons_of_ne_nil String.utf8EncodeChar_ne_nil
      rw [encoded]
      exact List.nil_lt_cons _ _
  | rel less => exact utf8EncodeChar_append_lt less _ _
  | cons _ ih => exact List.append_left_lt ih

end Characters

theorem bytes_eq_flatMap (name : String) :
    bytes name = name.toList.flatMap String.utf8EncodeChar := by
  rw [bytes, String.toUTF8_eq_toByteArray, ← String.utf8Encode_toList, List.utf8Encode,
    List.data_toByteArray]

theorem bytes_lt {name other : String} (less : name < other) : bytes name < bytes other := by
  rw [bytes_eq_flatMap, bytes_eq_flatMap]
  exact flatMap_utf8EncodeChar_lt less

/-- Names are ordered as their bytes are. -/
theorem bytes_lt_iff {name other : String} : bytes name < bytes other ↔ name < other := by
  refine ⟨fun less => ?_, bytes_lt⟩
  by_cases same : name = other
  · exact absurd (same ▸ less) (List.lt_irrefl _)
  · by_cases more : other < name
    · exact absurd (bytes_lt more) (List.lt_asymm less)
    · apply Decidable.byContradiction
      intro others
      exact same (String.le_antisymm (String.not_lt.mp more) (String.not_lt.mp others))

theorem compare_eq_lt_iff {name other : String} :
    compare name other = .lt ↔ bytes name < bytes other := by
  rw [bytes_lt_iff]
  exact compareOfLessAndEq_eq_lt

theorem bytes_injective {name other : String} (same : bytes name = bytes other) :
    name = other := by
  apply String.le_antisymm <;> rw [← String.not_lt, ← bytes_lt_iff, same] <;>
    exact List.lt_irrefl _

end Homoiconic
