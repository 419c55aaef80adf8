import Homoiconic.Atom.Source
import Homoiconic.Proofs.Reading.Closure

/-! # Which programs there are

The statements of a program that is read are readable atoms, and any row of readable atoms is the
statements of some program: the one in which each is written as its source, with semicolons between
them. The source of an atom scans as intended because each number and each name in it is followed by
a delimiter.
-/

namespace Homoiconic

open Grammar

/-- What the grammar makes of tokens of a text is readable. -/
theorem Grammar.keeps_isReadable :
    Keeps (fun token => token.kind = .symbol → Lexeme.isSymbolName token.text.toList)
      (fun atom => atom.isReadable) where
  symbol token named kind := named kind
  number value small := by
    simp only [Atom.isReadable, decide_eq_true_eq, Int64.le_iff_toInt_le]
    rw [Int64.toInt_ofNat_of_lt small]
    exact Int64.toInt_zero ▸ Int.natCast_nonneg value
  list items each := by
    simpa [Atom.isReadable, Atom.areReadable_eq_all] using each
  quoted _ _ _ _ readable := readable
  brace _ codes _ _ each := by
    have quoted : ∀ code ∈ codes, (Atom.quoted code).isReadable := each
    simpa [Atom.isReadable, Atom.areReadable_eq_all] using ⟨by decide, quoted⟩

theorem readable_of_read {source : String} {program : Atom} (readable : read source = .ok program) :
    ∃ codes : List Atom, program = .list (.symbol "do" :: codes.map .quoted) ∧
      ∀ code ∈ codes, code.isReadable := by
  refine keeps_isReadable.of_read readable fun token member kind => ?_
  rcases stands_of_mem_tokens member with isEnd | ⟨_, rest, stands⟩
  · rw [kind] at isEnd
    cases isEnd
  · exact Lexeme.isSymbolName_of_stands (kind ▸ stands)

namespace Spells

theorem single {kind : TokenKind} {text : List Char} (stands : Lexeme.Stands kind text [])
    (offset : Nat) : Spells offset text [⟨kind, String.ofList text, offset⟩] := by
  have blank : ∀ c ∈ ([] : List Char), Lexeme.isBlank c := by simp
  have spells := @Spells.token offset [] text [] kind [] blank stands (.blanks blank)
  simpa [byteLength] using spells

theorem mark {c : Char} {kind : TokenKind} (isMark : Lexeme.punctuation? c = some kind)
    {offset : Nat} {rest : List Char} {tokens : List Token}
    (later : Spells (offset + byteLength [c]) rest tokens) :
    Spells offset (c :: rest) (⟨kind, String.ofList [c], offset⟩ :: tokens) := by
  have blank : ∀ c ∈ ([] : List Char), Lexeme.isBlank c := by simp
  have spells := Spells.token blank (.punctuation isMark) later
  simpa [byteLength] using spells

end Spells

/-- The characters are tokens that make the form, whatever tokens come next. -/
def Writes (chars : List Char) (form : Atom) : Prop :=
  ∀ offset, ∃ spelled, Spells offset chars spelled ∧ ∀ rest, Form (spelled ++ rest) form rest

/-- The characters are tokens that make the forms, one after the other. -/
def WritesAll (chars : List Char) (forms : List Atom) : Prop :=
  ∀ offset, ∃ spelled, Spells offset chars spelled ∧ ∀ rest, Forms (spelled ++ rest) forms rest

/-- A number that is not negative is written with digits only. -/
theorem decimal_of_nonnegative {value : Int64} (nonnegative : 0 ≤ value) :
    ∃ n : Nat, value = .ofNat n ∧ n < 1 <<< 63 ∧
      (toString value.toInt).toList = Nat.toDigits 10 n := by
  obtain ⟨n, natural⟩ := Int.eq_ofNat_of_zero_le (Int64.le_iff_toInt_le.mp nonnegative)
  refine ⟨n, ?_, ?_, ?_⟩
  · rw [← Int64.ofInt_eq_ofNat, ← natural, Int64.ofInt_toInt]
  · have upper := value.toInt_lt
    omega
  · rw [natural]
    exact Nat.toList_repr

namespace Writes

theorem symbol {name : String} (isName : Lexeme.isSymbolName name.toList) :
    Writes name.toList (.symbol name) := by
  intro offset
  have spells := Spells.single (.symbol isName (by simp)) offset
  rw [String.ofList_toList] at spells
  exact ⟨_, spells, fun rest => .symbol rfl⟩

theorem number {value : Int64} (nonnegative : 0 ≤ value) :
    Writes (toString value.toInt).toList (.number value) := by
  obtain ⟨n, rfl, small, decimal⟩ := decimal_of_nonnegative nonnegative
  have digits : ∀ c ∈ Nat.toDigits 10 n, c.isDigit := fun c member =>
    Nat.isDigit_of_mem_toDigits (by decide) (by decide) member
  intro offset
  have spells := Spells.single (.number Nat.toDigits_ne_nil digits (by simp)) offset
  rw [decimal]
  exact ⟨_, spells, fun rest => .number rfl (by simp) small⟩

theorem quoted {chars : List Char} {inner : Atom} (writes : Writes chars inner) :
    Writes ('\x60' :: chars) (.quoted inner) := by
  intro offset
  obtain ⟨spelled, spells, form⟩ := writes (offset + byteLength ['\x60'])
  exact ⟨_, spells.mark rfl, fun rest => .quoted rfl (form rest)⟩

theorem list {chars : List Char} {items : List Atom} (writes : WritesAll chars items) :
    Writes ('(' :: chars ++ [')']) (.list items) := by
  intro offset
  obtain ⟨spelled, spells, forms⟩ := writes (offset + byteLength ['('])
  have closing := @Spells.single .rightParen [')'] (.punctuation rfl)
    (offset + byteLength ['('] + byteLength chars)
  have spells := spells.append (by decide) closing
  refine ⟨_, .mark rfl spells, ?_⟩
  intro rest
  exact .list rfl (by simpa using forms _) rfl

end Writes

namespace WritesAll

theorem nil : WritesAll [] [] :=
  fun _ => ⟨[], .blanks (by simp), fun _ => .nil⟩

theorem single {chars : List Char} {item : Atom} (writes : Writes chars item) :
    WritesAll chars [item] := by
  intro offset
  obtain ⟨spelled, spells, form⟩ := writes offset
  exact ⟨spelled, spells, fun rest => .cons (form rest) .nil⟩

theorem cons {first others : List Char} {item : Atom} {items : List Atom}
    (writes : Writes first item) (more : WritesAll others items) :
    WritesAll (first ++ ' ' :: others) (item :: items) := by
  intro offset
  obtain ⟨spelled, spells, form⟩ := writes offset
  obtain ⟨spelled', spells', forms⟩ := more (offset + byteLength first + byteLength [' '])
  have blank : ∀ c ∈ [' '], Lexeme.isBlank c := by simp [Lexeme.isBlank]
  refine ⟨_, spells.append (by decide) (.after_blanks blank spells'), ?_⟩
  intro rest
  rw [List.append_assoc]
  exact .cons (form _) (forms rest)

end WritesAll

namespace Atom

mutual
theorem writes_source (atom : Atom) (readable : atom.isReadable) :
    Writes atom.source.toList atom := by
  cases atom with
  | number value => exact .number (by simpa [isReadable] using readable)
  | symbol name => exact .symbol readable
  | quoted inner =>
      have written := writes_source inner readable
      simpa [source] using written.quoted
  | list items =>
      have written := writes_sources items readable
      simpa [source, String.toList_intercalate] using Writes.list written

theorem writes_sources (items : List Atom) (readable : areReadable items) :
    WritesAll ([' '].intercalate ((sources items).map String.toList)) items := by
  match items with
  | [] => exact .nil
  | [item] =>
      rw [areReadable, Bool.and_eq_true] at readable
      exact .single (by simpa [sources] using writes_source item readable.1)
  | item :: next :: rest =>
      rw [areReadable, Bool.and_eq_true] at readable
      have others := writes_sources (next :: rest) readable.2
      have written := WritesAll.cons (writes_source item readable.1) others
      simpa [sources, List.intercalate_cons_cons] using written
end

end Atom

theorem statements_of_sources {codes : List Atom} (readable : ∀ code ∈ codes, code.isReadable)
    (offset : Nat) :
    ∃ spelled, Spells offset ([';'].intercalate (codes.map (·.source.toList))) spelled ∧
      ∀ rest, Statements (spelled ++ rest) (codes.map .quoted) rest := by
  match codes with
  | [] => exact ⟨[], .blanks (by simp), fun _ => .nil⟩
  | [code] =>
      obtain ⟨spelled, spells, form⟩ := code.writes_source (by simpa using readable) offset
      refine ⟨spelled, by simpa using spells, ?_⟩
      intro rest
      exact .last (.cons (form rest) .nil) (by simp) .single
  | code :: next :: others =>
      obtain ⟨first, readable⟩ := List.forall_mem_cons.mp readable
      obtain ⟨spelled, spells, form⟩ := code.writes_source first offset
      obtain ⟨spelled', spells', statements⟩ :=
        statements_of_sources readable (offset + byteLength code.source.toList + byteLength [';'])
      have whole := spells.append (by decide) (.mark rfl spells')
      refine ⟨_, by simpa [List.intercalate_cons_cons] using whole, ?_⟩
      intro rest
      rw [List.append_assoc]
      exact .more (.cons (form _) .nil) rfl .single (statements rest)

theorem read_sources {codes : List Atom} (readable : ∀ code ∈ codes, code.isReadable) :
    read (";".intercalate (codes.map Atom.source)) =
      .ok (.list (.symbol "do" :: codes.map .quoted)) := by
  obtain ⟨spelled, spells, statements⟩ := statements_of_sources readable 0
  have text : (";".intercalate (codes.map Atom.source)).toList =
      [';'].intercalate (codes.map (·.source.toList)) := by
    rw [String.toList_intercalate, List.map_map]
    rfl
  rw [← text, spells_iff] at spells
  exact read_of_program (.mk (spells ▸ statements _) rfl)

/-- What is read are the calls of `do` on quotations of readable atoms, and no others; and each of
    them is read from the sources of these atoms. -/
theorem image_of_read :
    (∀ source program, read source = .ok program →
      ∃ codes : List Atom, program = .list (.symbol "do" :: codes.map .quoted) ∧
        ∀ code ∈ codes, code.isReadable) ∧
    ∀ codes : List Atom, (∀ code ∈ codes, code.isReadable) →
      read (";".intercalate (codes.map Atom.source)) =
        .ok (.list (.symbol "do" :: codes.map .quoted)) :=
  ⟨fun _ _ => readable_of_read, fun _ => read_sources⟩

theorem image_of_read_quotation :
    (∀ code ∈ [Atom.quoted (.list [.symbol "'a", .number 12]), .list []], code.isReadable) ∧
      read "\x60('a 12);()" =
        .ok (.list [.symbol "do", .quoted (.quoted (.list [.symbol "'a", .number 12])),
          .quoted (.list [])]) := by
  have readable : ∀ code ∈ [Atom.quoted (.list [.symbol "'a", .number 12]), .list []],
      code.isReadable := by decide
  have text : ";".intercalate ([Atom.quoted (.list [.symbol "'a", .number 12]), .list []].map
      Atom.source) = "\x60('a 12);()" := by decide +kernel
  have reads := image_of_read.2 _ readable
  rw [text] at reads
  exact ⟨readable, reads⟩

end Homoiconic
