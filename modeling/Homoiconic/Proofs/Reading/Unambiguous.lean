import Homoiconic.Proofs.Reading.Printed

/-! # Which atoms are printed alike

An apostrophe in a printed text marks a quotation, unless a name starts with it. If no name does,
then the printed text with a quote mark in place of each apostrophe is the source, and the source of
an atom is a program: the reader makes just that atom of it. So no two such atoms are printed alike,
although a printed text itself does not read back.
-/

namespace Homoiconic

namespace Atom

mutual
/-- Whether no name in the atom starts with an apostrophe. -/
def isApostropheFree : Atom → Bool
  | .number _ => true
  | .symbol name => name.toList.head? != some '\''
  | .list items => areApostropheFree items
  | .quoted inner => inner.isApostropheFree

def areApostropheFree : List Atom → Bool
  | [] => true
  | item :: rest => item.isApostropheFree && areApostropheFree rest
end

/-- A quote mark in place of an apostrophe. -/
def markFor (c : Char) : Char :=
  if c = '\'' then '\x60' else c

theorem map_markFor_of_not_mem {chars : List Char} (free : '\'' ∉ chars) :
    chars.map markFor = chars := by
  rw [List.map_congr_left (g := id), List.map_id]
  intro c member
  refine if_neg ?_
  rintro rfl
  exact free member

/-- An apostrophe can stand only at the start of a name. -/
theorem not_mem_of_isSymbolName {name : List Char} (isName : Lexeme.isSymbolName name)
    (free : name.head? ≠ some '\'') : '\'' ∉ name := by
  cases name with
  | nil => simp
  | cons first rest =>
      simp only [Lexeme.isSymbolName, Lexeme.continuesSymbol, Bool.and_eq_true, bne_iff_ne,
        List.all_eq_true] at isName
      rw [List.head?_cons, ne_eq, Option.some.injEq] at free
      rw [List.mem_cons, not_or]
      exact ⟨Ne.symm free, fun member => (isName.2 _ member).2 rfl⟩

mutual
/-- The source is the printed text with a quote mark for each apostrophe. -/
theorem map_markFor_text (atom : Atom) (readable : atom.isReadable)
    (free : atom.isApostropheFree) : atom.text.toList.map markFor = atom.source.toList := by
  cases atom with
  | number value =>
      have nonnegative : 0 ≤ value := by simpa [isReadable] using readable
      obtain ⟨n, _, _, decimal⟩ := decimal_of_nonnegative nonnegative
      rw [text, source, decimal]
      refine map_markFor_of_not_mem fun member => ?_
      have digit := Nat.isDigit_of_mem_toDigits (by decide) (by decide) member
      exact absurd digit (by decide)
  | symbol name =>
      rw [isApostropheFree, bne_iff_ne] at free
      exact map_markFor_of_not_mem (not_mem_of_isSymbolName readable free)
  | quoted inner =>
      have same := map_markFor_text inner readable free
      simp [text, source, same, markFor]
  | list items =>
      have same := map_markFor_texts items readable free
      simp [text, source, String.toList_intercalate, same, markFor]

theorem map_markFor_texts (items : List Atom) (readable : areReadable items)
    (free : areApostropheFree items) :
    ([' '].intercalate ((texts items).map String.toList)).map markFor =
      [' '].intercalate ((sources items).map String.toList) := by
  match items with
  | [] => rfl
  | [item] =>
      rw [areReadable, Bool.and_eq_true] at readable
      rw [areApostropheFree, Bool.and_eq_true] at free
      simpa [texts, sources] using map_markFor_text item readable.1 free.1
  | item :: next :: rest =>
      rw [areReadable, Bool.and_eq_true] at readable
      rw [areApostropheFree, Bool.and_eq_true] at free
      have first := map_markFor_text item readable.1 free.1
      have others := map_markFor_texts (next :: rest) readable.2 free.2
      simp only [texts, sources, List.map_cons] at others ⊢
      rw [List.intercalate_cons_cons, List.intercalate_cons_cons, List.map_append,
        List.map_append, first, others]
      rfl
end

/-- The source of a readable atom belongs to no other. -/
theorem eq_of_source_eq {a b : Atom} (readable : a.isReadable) (readable' : b.isReadable)
    (same : a.source = b.source) : a = b := by
  have reads := read_sources (List.forall_mem_singleton.mpr readable)
  have reads' := read_sources (List.forall_mem_singleton.mpr readable')
  rw [List.map_singleton, same] at reads
  rw [List.map_singleton, reads] at reads'
  simpa using reads'

end Atom

/-- **Printed atoms are unambiguous.** Atoms without negative numbers, and with names that symbol
    tokens can have and that do not start with an apostrophe, are printed alike only if they are the
    same. -/
theorem printed_alike_iff (a b : Atom) (readable : a.isReadable) (free : a.isApostropheFree)
    (readable' : b.isReadable) (free' : b.isApostropheFree) : a.text = b.text ↔ a = b := by
  constructor
  · intro alike
    have sources : a.source.toList = b.source.toList := by
      rw [← a.map_markFor_text readable free, alike, b.map_markFor_text readable' free']
    exact Atom.eq_of_source_eq readable readable' (String.toList_injective sources)
  · rintro rfl
    rfl

theorem printed_alike_iff_nested :
    (Atom.list [.quoted (.list [.symbol "x"]), .number 1]).isReadable ∧
      (Atom.list [.quoted (.list [.symbol "x"]), .number 1]).isApostropheFree ∧
      (Atom.quoted (.list [.list [.symbol "x"], .number 1])).isReadable ∧
      (Atom.quoted (.list [.list [.symbol "x"], .number 1])).isApostropheFree ∧
      (Atom.list [.quoted (.list [.symbol "x"]), .number 1]).text ≠
        (Atom.quoted (.list [.list [.symbol "x"], .number 1])).text := by
  refine ⟨by decide, by decide, by decide, by decide, ?_⟩
  rw [ne_eq, printed_alike_iff _ _ (by decide) (by decide) (by decide) (by decide)]
  decide

/-- Without the conditions on numbers and names, different atoms are printed alike. -/
example :
    (Atom.number (-1)).text = (Atom.symbol "-1").text ∧
      (Atom.symbol "'x").text = (Atom.quoted (.symbol "x")).text := by
  decide +kernel

end Homoiconic
