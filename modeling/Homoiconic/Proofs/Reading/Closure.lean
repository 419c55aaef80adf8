import Homoiconic.Proofs.Reading.Concatenation

/-! # Properties of what is read

An atom that is read is put together from tokens by the rules of the grammar. So what the rules
keep, as long as they are given tokens of a certain sort, holds of all statements of a program whose
tokens are of that sort.
-/

namespace Homoiconic

namespace Grammar

/-- From tokens with the property `T`, the rules of the grammar make atoms with the property `P`. -/
structure Keeps (T : Token → Prop) (P : Atom → Prop) : Prop where
  symbol : ∀ token : Token, T token → token.kind = .symbol → P (.symbol token.text)
  number : ∀ value : Nat, value < 1 <<< 63 → P (.number (.ofNat value))
  list : ∀ items : List Atom, (∀ item ∈ items, P item) → P (.list items)
  quoted : ∀ (mark : Token) (inner : Atom), T mark → mark.kind = .quoteMark → P inner →
    P (.quoted inner)
  brace : ∀ (opening : Token) (codes : List Atom), T opening → opening.kind = .leftBrace →
    (∀ code ∈ codes, P code) → P (.list (.symbol "do" :: codes.map .quoted))

theorem Form.rest_subset {first rest : List Token} {form : Atom} (derived : Form first form rest) :
    rest ⊆ first := by
  obtain ⟨used, rfl, _⟩ := derived.elsewhere
  exact List.subset_append_right used rest

theorem Forms.rest_subset {first rest : List Token} {items : List Atom}
    (derived : Forms first items rest) : rest ⊆ first := by
  obtain ⟨used, rfl, _⟩ := derived.elsewhere
  exact List.subset_append_right used rest

variable {T : Token → Prop} {P : Atom → Prop}

theorem Statement.holds {forms : List Atom} {statement : Atom} (made : Statement forms statement)
    (keeps : Keeps T P) (each : ∀ form ∈ forms, P form) :
    ∃ code, statement = .quoted code ∧ P code := by
  cases made with
  | single => exact ⟨_, rfl, each _ List.mem_cons_self⟩
  | call _ => exact ⟨_, rfl, keeps.list _ each⟩

mutual
theorem Form.holds {first rest : List Token} {form : Atom} (derived : Form first form rest)
    (keeps : Keeps T P) (given : ∀ token ∈ first, T token) : P form := by
  match derived with
  | .symbol kind => exact keeps.symbol _ (given _ List.mem_cons_self) kind
  | .number _ _ small => exact keeps.number _ small
  | .list _ row _ =>
      have given := (List.forall_mem_cons.mp given).2
      exact keeps.list _ (row.holds keeps given)
  | .quoted kind quotation =>
      obtain ⟨here, given⟩ := List.forall_mem_cons.mp given
      exact keeps.quoted _ _ here kind (quotation.holds keeps given)
  | .bracket _ one two three _ =>
      have given := (List.forall_mem_cons.mp given).2
      have afterOne := fun token member => given token (one.rest_subset member)
      have afterTwo := fun token member => afterOne token (two.rest_subset member)
      refine keeps.list _ ?_
      simp only [List.mem_cons, List.not_mem_nil, or_false, forall_eq_or_imp, forall_eq]
      exact ⟨two.holds keeps afterOne, one.holds keeps given, three.holds keeps afterTwo⟩
  | .brace kind row _ =>
      obtain ⟨here, given⟩ := List.forall_mem_cons.mp given
      obtain ⟨codes, rfl, each⟩ := row.holds keeps given
      exact keeps.brace _ codes here kind each

theorem Forms.holds {first rest : List Token} {items : List Atom}
    (derived : Forms first items rest) (keeps : Keeps T P) (given : ∀ token ∈ first, T token) :
    ∀ item ∈ items, P item := by
  match derived with
  | .nil => simp
  | .cons head tail =>
      have after := fun token member => given token (head.rest_subset member)
      exact List.forall_mem_cons.mpr ⟨head.holds keeps given, tail.holds keeps after⟩

theorem Statements.holds {first rest : List Token} {statements : List Atom}
    (derived : Statements first statements rest) (keeps : Keeps T P)
    (given : ∀ token ∈ first, T token) :
    ∃ codes : List Atom, statements = codes.map .quoted ∧ ∀ code ∈ codes, P code := by
  match derived with
  | .nil => exact ⟨[], rfl, by simp⟩
  | .last row _ made =>
      obtain ⟨code, rfl, holds⟩ := made.holds keeps (row.holds keeps given)
      exact ⟨[code], rfl, by simpa using holds⟩
  | .more row _ made others =>
      obtain ⟨code, rfl, holds⟩ := made.holds keeps (row.holds keeps given)
      have after := fun token member => given token (row.rest_subset member)
      obtain ⟨codes, rfl, each⟩ := others.holds keeps (List.forall_mem_cons.mp after).2
      exact ⟨code :: codes, rfl, List.forall_mem_cons.mpr ⟨holds, each⟩⟩
end

/-- A program is a call of `do` on quotations, and what is quoted has the property. -/
theorem Keeps.of_read (keeps : Keeps T P) {source : String} {program : Atom}
    (readable : read source = .ok program) (given : ∀ token ∈ tokens source, T token) :
    ∃ codes : List Atom, program = .list (.symbol "do" :: codes.map .quoted) ∧
      ∀ code ∈ codes, P code := by
  cases program_of_read readable with
  | mk derived _ =>
      obtain ⟨codes, rfl, each⟩ := derived.holds keeps given
      exact ⟨codes, rfl, each⟩

end Grammar

end Homoiconic
