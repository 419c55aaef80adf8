import Homoiconic.Proofs.Reading.Readable

/-! # Printed atoms as program text

An atom is printed as its source, but that an apostrophe is put before what is quoted, which is no
quote mark to a reader. No printed text has a quote mark or a brace in it, and without those nothing
is read as a quotation inside a statement. So a printed atom reads back just if it has no quotation.
-/

namespace Homoiconic

open Grammar

namespace Atom

mutual
/-- Whether nothing in the atom is quoted. -/
def isQuoteFree : Atom → Bool
  | .number _ | .symbol _ => true
  | .list items => areQuoteFree items
  | .quoted _ => false

def areQuoteFree : List Atom → Bool
  | [] => true
  | item :: rest => item.isQuoteFree && areQuoteFree rest
end

theorem areQuoteFree_eq_all (items : List Atom) : areQuoteFree items = items.all isQuoteFree := by
  induction items with
  | nil => rfl
  | cons item rest ih => rw [areQuoteFree, ih, List.all_cons]

mutual
theorem text_eq_source (atom : Atom) (quoteFree : atom.isQuoteFree) : atom.text = atom.source := by
  cases atom with
  | number | symbol => rfl
  | list items => rw [text, source, texts_eq_sources items quoteFree]
  | quoted inner => cases quoteFree

theorem texts_eq_sources (items : List Atom) (quoteFree : areQuoteFree items) :
    texts items = sources items := by
  cases items with
  | nil => rfl
  | cons item rest =>
      rw [areQuoteFree, Bool.and_eq_true] at quoteFree
      rw [texts, sources, text_eq_source item quoteFree.1, texts_eq_sources rest quoteFree.2]
end

end Atom

/-- A character that neither marks a quotation nor opens a block. -/
def IsPlain (c : Char) : Prop :=
  c ≠ '\x60' ∧ c ≠ '\x7b'
  deriving Decidable

theorem isPlain_of_isDigit {c : Char} (digit : c.isDigit) : IsPlain c := by
  constructor <;> rintro rfl <;> exact absurd digit (by decide)

theorem isPlain_of_mem_name {name : List Char} (isName : Lexeme.isSymbolName name) :
    ∀ c ∈ name, IsPlain c := by
  intro c member
  have inside := Lexeme.isDelimiter_eq_false_of_mem_name isName c member
  constructor <;> rintro rfl <;> exact absurd inside (by decide)

namespace Atom

mutual
theorem isPlain_of_mem_text (atom : Atom) (readable : atom.isReadable) :
    ∀ c ∈ atom.text.toList, IsPlain c := by
  cases atom with
  | number value =>
      have nonnegative : 0 ≤ value := by simpa [isReadable] using readable
      obtain ⟨n, _, _, decimal⟩ := decimal_of_nonnegative nonnegative
      intro c member
      rw [text, decimal] at member
      exact isPlain_of_isDigit (Nat.isDigit_of_mem_toDigits (by decide) (by decide) member)
  | symbol name => exact isPlain_of_mem_name readable
  | quoted inner =>
      have plain := isPlain_of_mem_text inner readable
      simpa [text, IsPlain] using plain
  | list items =>
      have plain := isPlain_of_mem_texts items readable
      simpa [text, IsPlain, String.toList_intercalate, or_imp, forall_and] using plain

theorem isPlain_of_mem_texts (items : List Atom) (readable : areReadable items) :
    ∀ c ∈ [' '].intercalate ((texts items).map String.toList), IsPlain c := by
  match items with
  | [] => simp [texts]
  | [item] =>
      rw [areReadable, Bool.and_eq_true] at readable
      simpa [texts] using isPlain_of_mem_text item readable.1
  | item :: next :: rest =>
      rw [areReadable, Bool.and_eq_true] at readable
      have first := isPlain_of_mem_text item readable.1
      have others := isPlain_of_mem_texts (next :: rest) readable.2
      have blank : IsPlain ' ' := by decide
      simp only [texts, List.map_cons, List.intercalate_cons_cons, List.forall_mem_append,
        List.mem_singleton, forall_eq] at others ⊢
      exact ⟨⟨first, blank⟩, others⟩
end

end Atom

/-- Without a quote mark or a brace, no quotation is read. -/
theorem Grammar.keeps_isQuoteFree :
    Keeps (fun token => token.kind ≠ .quoteMark ∧ token.kind ≠ .leftBrace)
      (fun atom => atom.isQuoteFree) where
  symbol _ _ _ := rfl
  number _ _ := rfl
  list items each := by
    simpa [Atom.isQuoteFree, Atom.areQuoteFree_eq_all] using each
  quoted _ _ plain kind _ := absurd kind plain.1
  brace _ _ plain kind _ := absurd kind plain.2

theorem IsPlain.kind_ne {c : Char} (plain : IsPlain c) {kind : TokenKind}
    (mark : Lexeme.punctuation? c = some kind) : kind ≠ .quoteMark ∧ kind ≠ .leftBrace := by
  unfold Lexeme.punctuation? at mark
  split at mark <;> cases mark <;> simp_all [IsPlain]

theorem kind_ne_of_isPlain {source : String} (plain : ∀ c ∈ source.toList, IsPlain c)
    {token : Token} (member : token ∈ tokens source) :
    token.kind ≠ .quoteMark ∧ token.kind ≠ .leftBrace := by
  rcases stands_of_mem_tokens member with isEnd | ⟨within, rest, stands⟩
  · simp [isEnd]
  · generalize token.text.toList = text at within stands
    generalize token.kind = kind at stands ⊢
    cases stands with
    | punctuation mark => exact (plain _ (within List.mem_cons_self)).kind_ne mark
    | number | symbol => decide

/-- A printed atom is read as itself just if there is no quotation in it. -/
theorem printed_reads_back_iff (atom : Atom) (readable : atom.isReadable) :
    read atom.text = .ok (.list [.symbol "do", .quoted atom]) ↔ atom.isQuoteFree := by
  constructor
  · intro reads
    have given := fun token => @kind_ne_of_isPlain _ (atom.isPlain_of_mem_text readable) token
    obtain ⟨codes, program, each⟩ := keeps_isQuoteFree.of_read reads given
    simp only [Atom.list.injEq, List.cons.injEq, true_and] at program
    obtain ⟨code, rfl, same⟩ := List.map_eq_singleton_iff.mp program.symm
    cases same
    exact each atom List.mem_cons_self
  · intro quoteFree
    rw [atom.text_eq_source quoteFree]
    have reads := read_sources (List.forall_mem_singleton.mpr readable)
    simpa using reads

/-- Two atoms that are printed alike: the one with a name in it is read, and not the other. -/
theorem printed_reads_back_iff_apostrophe :
    (Atom.list [.symbol "'x", .number 1]).isReadable ∧
      read "('x 1)" = .ok (.list [.symbol "do", .quoted (.list [.symbol "'x", .number 1])]) ∧
      (Atom.list [.quoted (.symbol "x"), .number 1]).isReadable ∧
      read "('x 1)" ≠
        .ok (.list [.symbol "do", .quoted (.list [.quoted (.symbol "x"), .number 1])]) := by
  have readable : (Atom.list [.symbol "'x", .number 1]).isReadable := by decide
  have readable' : (Atom.list [.quoted (.symbol "x"), .number 1]).isReadable := by decide
  have text : (Atom.list [.symbol "'x", .number 1]).text = "('x 1)" := by decide +kernel
  have text' : (Atom.list [.quoted (.symbol "x"), .number 1]).text = "('x 1)" := by
    decide +kernel
  have name := printed_reads_back_iff _ readable
  have quotation := printed_reads_back_iff _ readable'
  rw [text] at name
  rw [text'] at quotation
  refine ⟨readable, name.mpr rfl, readable', ?_⟩
  intro reads
  cases quotation.mp reads

end Homoiconic
