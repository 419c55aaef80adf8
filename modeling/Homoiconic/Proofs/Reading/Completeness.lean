import Homoiconic.Reading.Basic
import Homoiconic.Reading.Grammar
import Homoiconic.Proofs.Reading.Taking

/-! # Every program of the grammar is read

The reader takes one token after the other, so what it makes of a form depends on where it is. A
form that the grammar finds at the front of some tokens has one effect everywhere: it is supplied to
the innermost open form, and reading goes on after it. By induction on derivations, the same holds
of rows of forms and of statements, and so a program is read as the grammar says. In particular the
grammar is unambiguous, because the reader is a function.
-/

namespace Homoiconic

namespace Block

/-- Add several forms in order, each with its byte offset. -/
def addAll (block : Block) (placed : List (Atom × Nat)) : Block :=
  placed.foldl (fun block form => block.add form.1 form.2) block

theorem statements_add (block : Block) (form : Atom) (start : Nat) :
    (block.add form start).statements = block.statements := by
  unfold add
  split <;> rfl

theorem forms_add (block : Block) (form : Atom) (start : Nat) :
    (block.add form start).forms = form :: block.forms := by
  unfold add
  split
  · simp_all
  · rfl

theorem statements_addAll (block : Block) (placed : List (Atom × Nat)) :
    (block.addAll placed).statements = block.statements := by
  induction placed generalizing block with
  | nil => rfl
  | cons form rest ih => exact (ih (block.add form.1 form.2)).trans (statements_add _ _ _)

theorem forms_addAll (block : Block) (placed : List (Atom × Nat)) :
    (block.addAll placed).forms = (placed.map Prod.fst).reverse ++ block.forms := by
  induction placed generalizing block with
  | nil => rfl
  | cons form rest ih =>
      have later := ih (block.add form.1 form.2)
      rw [forms_add] at later
      simpa [addAll] using later

/-- The statements of the block in order, if it ends here. -/
def ended (block : Block) : List Atom :=
  (if block.forms.isEmpty then block else block.endStatement).statements.reverse

theorem ended_of_between {block : Block} (between : block.forms = []) :
    block.ended = block.statements.reverse := by
  simp [ended, between]

theorem ended_of_forms {block : Block} (filled : block.forms ≠ []) :
    block.ended = block.statements.reverse ++ [statement block.forms.reverse] := by
  simp [ended, filled, endStatement]

theorem close_eq (block : Block) : block.close = .list (.symbol "do" :: block.ended) :=
  rfl

end Block

/-- A grammatical statement is what the reader makes of its forms. -/
theorem Grammar.Statement.eq {forms : List Atom} {statement : Atom}
    (derived : Grammar.Statement forms statement) : Block.statement forms = statement := by
  cases derived with
  | single => rfl
  | call several =>
      match forms, several with
      | [], _ => rfl
      | [_], several => simp at several
      | _ :: _ :: _, _ => rfl

theorem Grammar.Statement.of_forms (forms : List Atom) :
    Grammar.Statement forms (Block.statement forms) := by
  match forms with
  | [] => exact .call (by simp)
  | [form] => exact .single
  | _ :: _ :: _ => exact .call (by simp)

namespace Nesting

/-- What comes of reading on from a place. -/
def readOn (here : Nesting) (tokens : List Token) : Except ReadError Atom :=
  (Reading.ofTokens here [] tokens).result

theorem result_ofTokens (here : Nesting) (remarks : List Juxtaposition) (tokens : List Token) :
    (Reading.ofTokens here remarks tokens).result = here.readOn tokens := by
  unfold readOn
  -- The remarks pile up on the way, and the result does not look at them.
  induction tokens generalizing here remarks with
  | nil =>
      simp only [Reading.ofTokens]
      split <;> rfl
  | cons token rest ih =>
      simp only [Reading.ofTokens]
      split
      · rw [ih, ih _ ([] ++ _)]
      · rfl

theorem readOn_shift {here next : Nesting} {token : Token} {remarks : List Juxtaposition}
    (shifted : here.shift token = .ok (next, remarks)) (rest : List Token) :
    here.readOn (token :: rest) = next.readOn rest := by
  unfold readOn
  rw [Reading.ofTokens, shifted]
  exact result_ofTokens next ([] ++ remarks) rest

theorem readOn_error {here : Nesting} {token : Token} {cause : ReadError}
    (shifted : here.shift token = .error cause) (rest : List Token) :
    here.readOn (token :: rest) = .error cause := by
  unfold readOn
  rw [Reading.ofTokens, shifted]

/-- Put several finished forms in their places, one after the other. -/
def supplyAll (placed : List (Atom × Nat)) (here : Nesting) : Nesting :=
  placed.foldl (fun here form => here.supply form.1 form.2) here

theorem supplyAll_list (outer : Nesting) (opened : Nat) (items : List Atom)
    (placed : List (Atom × Nat)) :
    (list outer opened items).supplyAll placed =
      .list outer opened ((placed.map Prod.fst).reverse ++ items) := by
  induction placed generalizing items with
  | nil => rfl
  | cons form rest ih =>
      have later := ih (form.1 :: items)
      simpa [supplyAll, supply] using later

theorem supplyAll_program (block : Block) (placed : List (Atom × Nat)) :
    (program block).supplyAll placed = .program (block.addAll placed) := by
  induction placed generalizing block with
  | nil => rfl
  | cons form rest ih => exact ih (block.add form.1 form.2)

theorem supplyAll_brace (outer : Nesting) (opened : Nat) (block : Block)
    (placed : List (Atom × Nat)) :
    (brace outer opened block).supplyAll placed = .brace outer opened (block.addAll placed) := by
  induction placed generalizing block with
  | nil => rfl
  | cons form rest ih => exact ih (block.add form.1 form.2)

/-- The places that hold a row of statements. -/
inductive IsBlock : (Block → Nesting) → Prop where
  | program : IsBlock .program
  | brace {outer : Nesting} {opened : Nat} : IsBlock (.brace outer opened)

theorem IsBlock.supplyAll {frame : Block → Nesting} (isBlock : IsBlock frame) (block : Block)
    (placed : List (Atom × Nat)) :
    (frame block).supplyAll placed = frame (block.addAll placed) := by
  cases isBlock with
  | program => exact supplyAll_program block placed
  | brace => exact supplyAll_brace _ _ block placed

theorem IsBlock.full?_eq_none {frame : Block → Nesting} (isBlock : IsBlock frame)
    (block : Block) : (frame block).full? = none := by
  cases isBlock <;> rfl

theorem IsBlock.shift_semicolon {frame : Block → Nesting} (isBlock : IsBlock frame)
    (block : Block) {token : Token} (kind : token.kind = .semicolon) :
    (frame block).shift token = .ok (frame block.endStatement, block.remarks) := by
  cases isBlock <;> simp [shift, kind, full?, close]

theorem IsBlock.full?_supplyAll {frame : Block → Nesting} (isBlock : IsBlock frame)
    (block : Block) (placed : List (Atom × Nat)) :
    ((frame block).supplyAll placed).full? = none := by
  rw [isBlock.supplyAll]
  exact isBlock.full?_eq_none _

section Derivations

open Grammar

mutual
/-- A form is supplied to the place where it stands. -/
theorem readOn_form {first rest : List Token} {form : Atom} (derived : Form first form rest)
    (here : Nesting) (notFull : here.full? = none) :
    ∃ start, here.readOn first = (here.supply form start).readOn rest := by
  match derived with
  | @Form.symbol token rest kind =>
      exact ⟨token.offset, readOn_shift (shift_symbol kind notFull) rest⟩
  | @Form.number token rest value kind decimal small =>
      exact ⟨token.offset, readOn_shift (shift_number kind notFull decimal small) rest⟩
  | @Form.list opening closing inside rest items opens row closes =>
      obtain ⟨placed, rfl, inner⟩ :=
        readOn_forms row (.list here opening.offset []) fun placed => by rw [supplyAll_list]; rfl
      refine ⟨opening.offset, ?_⟩
      rw [readOn_shift (shift_leftParen opens notFull), inner, supplyAll_list,
        readOn_shift (shift_rightParen closes)]
      simp only [List.append_nil, List.reverse_reverse]
  | @Form.quoted sign after rest inner kind quotation =>
      obtain ⟨start, supplied⟩ := readOn_form quotation (.mark here sign.offset) rfl
      refine ⟨sign.offset, ?_⟩
      rw [readOn_shift (shift_quoteMark kind notFull), supplied]
      rfl
  | @Form.bracket opening closing inside second third rest left operator right opens one two three
      closes =>
      -- At the start of each of the three forms, fewer than three are in the bracket.
      obtain ⟨_, first⟩ := readOn_form one (.bracket here opening.offset []) rfl
      obtain ⟨_, middle⟩ := readOn_form two (.bracket here opening.offset [left]) rfl
      obtain ⟨_, last⟩ := readOn_form three (.bracket here opening.offset [operator, left]) rfl
      refine ⟨opening.offset, ?_⟩
      simp only [supply] at first middle last
      rw [readOn_shift (shift_leftBracket opens notFull), first, middle, last,
        readOn_shift (shift_rightBracket closes)]
  | @Form.brace opening closing inside rest statements opens row closes =>
      obtain ⟨block, rfl, inner⟩ :=
        readOn_statements row (@IsBlock.brace here opening.offset) {} rfl
      refine ⟨opening.offset, ?_⟩
      rw [readOn_shift (shift_leftBrace opens notFull), inner,
        readOn_shift (shift_rightBrace closes), Block.close_eq]

/-- A row of forms is supplied one by one. -/
theorem readOn_forms {first rest : List Token} {items : List Atom}
    (derived : Forms first items rest) (here : Nesting)
    (notFull : ∀ placed, (here.supplyAll placed).full? = none) :
    ∃ placed, placed.map Prod.fst = items ∧
      here.readOn first = (here.supplyAll placed).readOn rest := by
  match derived with
  | .nil => exact ⟨[], rfl, rfl⟩
  | @Forms.cons first after rest item items head tail =>
      obtain ⟨start, supplied⟩ := readOn_form head here (notFull [])
      obtain ⟨placed, rfl, others⟩ := readOn_forms tail (here.supply item start) fun placed =>
        notFull ((item, start) :: placed)
      exact ⟨(item, start) :: placed, rfl, supplied.trans others⟩

/-- Statements are added to a block that is between two statements. -/
theorem readOn_statements {first rest : List Token} {statements : List Atom}
    (derived : Statements first statements rest) {frame : Block → Nesting}
    (isBlock : IsBlock frame) (begun : Block) (between : begun.forms = []) :
    ∃ block, block.ended = begun.statements.reverse ++ statements ∧
      (frame begun).readOn first = (frame block).readOn rest := by
  match derived with
  | .nil =>
      refine ⟨begun, ?_, rfl⟩
      rw [Block.ended_of_between between, List.append_nil]
  | @Statements.last first rest forms statement row filled made =>
      obtain ⟨placed, rfl, read⟩ :=
        readOn_forms row (frame begun) (isBlock.full?_supplyAll begun)
      have forms : (begun.addAll placed).forms = (placed.map Prod.fst).reverse := by
        rw [Block.forms_addAll, between, List.append_nil]
      refine ⟨begun.addAll placed, ?_, ?_⟩
      · rw [Block.ended_of_forms (by rw [forms]; simpa using filled), forms,
          List.reverse_reverse, made.eq, Block.statements_addAll]
      · rw [read, isBlock.supplyAll]
  | @Statements.more semicolon first after rest forms others statement row kind made more =>
      obtain ⟨placed, rfl, read⟩ :=
        readOn_forms row (frame begun) (isBlock.full?_supplyAll begun)
      have forms : (begun.addAll placed).forms = (placed.map Prod.fst).reverse := by
        rw [Block.forms_addAll, between, List.append_nil]
      obtain ⟨block, ended, later⟩ :=
        readOn_statements more isBlock (begun.addAll placed).endStatement rfl
      refine ⟨block, ?_, ?_⟩
      · rw [ended, Block.endStatement, forms, List.reverse_reverse, made.eq,
          Block.statements_addAll, List.reverse_cons, List.append_assoc, List.singleton_append]
      · rw [read, isBlock.supplyAll, readOn_shift (isBlock.shift_semicolon _ kind), later]
end

end Derivations

end Nesting

end Homoiconic
