import Homoiconic.Proofs.Reading.Completeness

/-! # Whatever is read is a program of the grammar

A place in a program still demands something of the tokens after it: the rest of the innermost open
form and its closing, and then whatever the place around demands once the form has been supplied.
`Nesting.Completes` says that some tokens meet these demands and which program comes of them. What
is read meets the demands of the place where reading began, by induction on the tokens.
-/

namespace Homoiconic

open Grammar

/-- The tokens go on with the block up to the last argument, and make all of its statements. -/
inductive Block.Continues (block : Block) : List Token → List Atom → List Token → Prop where
  | last {first rest : List Token} {forms : List Atom} :
      Forms first forms rest →
      Continues block first { block with forms := forms.reverse ++ block.forms }.ended rest
  | more {semicolon : Token} {first after rest : List Token} {forms others : List Atom} :
      Forms first forms (semicolon :: after) → semicolon.kind = .semicolon →
      Statements after others rest →
      Continues block first (block.statements.reverse ++
        Block.statement (block.forms.reverse ++ forms) :: others) rest

namespace Block.Continues

theorem cons {block : Block} {form : Atom} {start : Nat} {first after rest : List Token}
    {statements : List Atom} (head : Form first form after)
    (tail : (block.add form start).Continues after statements rest) :
    block.Continues first statements rest := by
  cases tail with
  | @last _ _ forms row =>
      have whole : ({ block.add form start with
            forms := forms.reverse ++ (block.add form start).forms } : Block).ended =
          { block with forms := (form :: forms).reverse ++ block.forms }.ended := by
        simp [ended, endStatement, forms_add, statements_add]
      rw [whole]
      exact .last (.cons head row)
  | @more semicolon _ _ _ forms others row kind more =>
      have whole : (block.add form start).forms.reverse ++ forms =
          block.forms.reverse ++ form :: forms := by
        simp [forms_add]
      rw [whole, statements_add]
      exact .more (.cons head row) kind more

theorem of_between {block : Block} (between : block.forms = []) {first rest : List Token}
    {statements : List Atom} (continues : block.Continues first statements rest) :
    ∃ others, statements = block.statements.reverse ++ others ∧ Statements first others rest := by
  cases continues with
  | @last _ _ forms row =>
      cases row with
      | nil =>
          refine ⟨[], ?_, .nil⟩
          simp [ended, between]
      | @cons _ _ _ form forms head tail =>
          refine ⟨[statement (form :: forms)], ?_,
            .last (.cons head tail) (by simp) (.of_forms _)⟩
          simp [ended, endStatement, between]
  | @more semicolon _ _ _ forms others row kind more =>
      refine ⟨statement forms :: others, ?_, .more row kind (.of_forms forms) more⟩
      rw [between, List.reverse_nil, List.nil_append]

theorem semicolon {block : Block} {token : Token} (kind : token.kind = .semicolon)
    {rest after : List Token} {statements : List Atom}
    (continues : block.endStatement.Continues rest statements after) :
    block.Continues (token :: rest) statements after := by
  obtain ⟨others, rfl, more⟩ := continues.of_between rfl
  have whole : block.endStatement.statements.reverse ++ others =
      block.statements.reverse ++ statement (block.forms.reverse ++ []) :: others := by
    simp [endStatement]
  rw [whole]
  exact .more .nil kind more

end Block.Continues

/-- A row of three forms is one form after the other. -/
theorem Grammar.Forms.of_three {first rest : List Token} {forms : List Atom}
    {left operator right : Atom} (row : Forms first forms rest)
    (three : forms = [left, operator, right]) :
    ∃ second third, Form first left second ∧ Form second operator third ∧
      Form third right rest := by
  subst three
  cases row with
  | cons one row =>
      cases row with
      | cons two row =>
          cases row with
          | cons last row =>
              cases row
              exact ⟨_, _, one, two, last⟩

theorem Grammar.Form.of_integer? {token : Token} {rest : List Token} {value : Int64}
    (kind : token.kind = .number) (integer : Nesting.integer? token.text = some value) :
    Form (token :: rest) (.number value) rest := by
  simp only [Nesting.integer?] at integer
  split at integer
  · rename_i small
    cases integer
    exact .number kind rfl small
  · cases integer

namespace Nesting

/-- From this place on, the tokens are the rest of the program. -/
inductive Completes : Nesting → List Token → Atom → Prop where
  | program {block : Block} {first : List Token} {last : Token} {statements : List Atom} :
      block.Continues first statements [last] → last.kind = .endOfInput →
      Completes (.program block) first (.list (.symbol "do" :: statements))
  | list {outer : Nesting} {opened : Nat} {items forms : List Atom} {first rest : List Token}
      {closing : Token} {program : Atom} :
      Forms first forms (closing :: rest) → closing.kind = .rightParen →
      Completes (outer.supply (.list (items.reverse ++ forms)) opened) rest program →
      Completes (.list outer opened items) first program
  | bracket {outer : Nesting} {opened : Nat} {items forms : List Atom} {left operator right : Atom}
      {first rest : List Token} {closing : Token} {program : Atom} :
      Forms first forms (closing :: rest) → items.reverse ++ forms = [left, operator, right] →
      closing.kind = .rightBracket →
      Completes (outer.supply (.list [operator, left, right]) opened) rest program →
      Completes (.bracket outer opened items) first program
  | brace {outer : Nesting} {opened : Nat} {block : Block} {statements : List Atom}
      {first rest : List Token} {closing : Token} {program : Atom} :
      block.Continues first statements (closing :: rest) → closing.kind = .rightBrace →
      Completes (outer.supply (.list (.symbol "do" :: statements)) opened) rest program →
      Completes (.brace outer opened block) first program
  | mark {outer : Nesting} {opened : Nat} {form : Atom} {first rest : List Token}
      {program : Atom} :
      Form first form rest → Completes (outer.supply (.quoted form) opened) rest program →
      Completes (.mark outer opened) first program

namespace Completes

/-- A form and whatever completes the place that it is supplied to complete the place before it. -/
theorem of_supply {here : Nesting} {form program : Atom} {start : Nat} {first rest : List Token}
    (head : Form first form rest) (tail : (here.supply form start).Completes rest program) :
    here.Completes first program := by
  cases here with
  | program block =>
      cases tail with
      | program continues isEnd => exact .program (.cons head continues) isEnd
  | list outer opened items =>
      cases tail with
      | @list _ _ _ forms _ _ _ _ row closes outside =>
          rw [List.reverse_cons, List.append_assoc, List.singleton_append] at outside
          exact .list (.cons head row) closes outside
  | bracket outer opened items =>
      cases tail with
      | bracket row three closes outside =>
          rw [List.reverse_cons, List.append_assoc, List.singleton_append] at three
          exact .bracket (.cons head row) three closes outside
  | brace outer opened block =>
      cases tail with
      | brace continues closes outside => exact .brace (.cons head continues) closes outside
  | mark outer opened => exact .mark head tail

/-- What completes the place after a token completes, with that token, the place before it. -/
theorem of_shift {here next : Nesting} {token : Token} {remarks : List Juxtaposition}
    (shifted : here.shift token = .ok (next, remarks)) (inner : token.kind ≠ .endOfInput)
    {rest : List Token} {program : Atom} (tail : next.Completes rest program) :
    here.Completes (token :: rest) program := by
  cases takes_of_shift shifted with
  | endOfInput kind => exact absurd kind inner
  -- The four tokens that open a form: what completes the new place contains its closing.
  | leftParen kind =>
      cases tail with
      | list row closes outside => exact of_supply (.list kind row closes) outside
  | leftBracket kind =>
      cases tail with
      | @bracket _ _ _ _ left operator right _ _ _ _ row three closes outside =>
          obtain ⟨_, _, one, two, last⟩ := row.of_three three
          exact of_supply (.bracket kind one two last closes) outside
  | leftBrace kind =>
      cases tail with
      | brace continues closes outside =>
          obtain ⟨others, rfl, row⟩ := continues.of_between rfl
          exact of_supply (.brace kind row closes) outside
  | quoteMark kind =>
      cases tail with
      | mark form outside => exact of_supply (.quoted kind form) outside
  -- The two tokens that are forms by themselves.
  | symbol kind => exact of_supply (.symbol kind) tail
  | number kind _ integer => exact of_supply (.of_integer? kind integer) tail
  -- The tokens that end a statement or a form: nothing more is needed of the row that they end.
  | semicolon kind =>
      cases tail with
      | program continues isEnd => exact .program (.semicolon kind continues) isEnd
  | semicolonInBrace kind =>
      cases tail with
      | brace continues closes outside => exact .brace (.semicolon kind continues) closes outside
  | rightParen kind =>
      refine .list .nil kind ?_
      rw [List.append_nil]
      exact tail
  | rightBracket kind => exact .bracket .nil rfl kind tail
  | rightBrace kind => exact .brace (.last .nil) kind tail

end Completes

/-- What is read on from a place, up to the end of the text, completes it. -/
theorem completes_of_readOn {here : Nesting} {tokens : List Token} {last : Token} {program : Atom}
    (inner : ∀ token ∈ tokens, token.kind ≠ .endOfInput) (isEnd : last.kind = .endOfInput)
    (read : here.readOn (tokens ++ [last]) = .ok program) :
    here.Completes (tokens ++ [last]) program := by
  -- Each token moves to another place, so the place has to vary in the induction.
  induction tokens generalizing here with
  | nil =>
      rw [List.nil_append, readOn_shift (shift_endOfInput isEnd)] at read
      cases here with
      | program block =>
          cases read
          exact .program (.last .nil) isEnd
      | list | bracket | brace | mark => cases read
  | cons token rest ih =>
      cases shifted : here.shift token with
      | error cause =>
          rw [List.cons_append, readOn_error shifted] at read
          cases read
      | ok shift =>
          obtain ⟨next, remarks⟩ := shift
          rw [List.cons_append, readOn_shift shifted] at read
          refine .of_shift shifted (inner token List.mem_cons_self) ?_
          exact ih (fun other member => inner other (List.mem_cons_of_mem _ member)) read

theorem readOn_start {tokens : List Token} {statements : List Atom} {last : Token}
    (derived : Statements tokens statements [last]) (isEnd : last.kind = .endOfInput) :
    start.readOn tokens = .ok (.list (.symbol "do" :: statements)) := by
  obtain ⟨block, ended, read⟩ := readOn_statements derived .program {} rfl
  have closed : start.readOn tokens = (program block).readOn [last] := read
  rw [closed, readOn_shift (shift_endOfInput isEnd)]
  rw [List.reverse_nil, List.nil_append] at ended
  rw [← ended, ← Block.close_eq]
  rfl

end Nesting

theorem read_eq_readOn (source : String) : read source = Nesting.start.readOn (tokens source) :=
  rfl

theorem program_of_read {source : String} {program : Atom} (read : read source = .ok program) :
    Program source program := by
  obtain ⟨inner, last, split, before, isEnd⟩ := (Scanner.ofSource source).tokens_eq_append
  have whole : tokens source = inner ++ [last] := split
  rw [read_eq_readOn, whole] at read
  have completes := Nesting.completes_of_readOn before isEnd read
  rw [← whole] at completes
  cases completes with
  | program continues isEnd =>
      obtain ⟨others, rfl, derived⟩ := continues.of_between rfl
      exact .mk derived isEnd

theorem read_of_program {source : String} {program : Atom} (derived : Program source program) :
    read source = .ok program := by
  cases derived with
  | mk derived isEnd => exact Nesting.readOn_start derived isEnd

/-- A text reads as an atom just if the grammar derives that atom from its tokens, and from no row
    of tokens, whether a text has them or not, does the grammar derive two. -/
theorem read_eq_ok_iff_program :
    (∀ source program, read source = .ok program ↔ Program source program) ∧
    ∀ tokens statements others last last',
      Statements tokens statements [last] → last.kind = .endOfInput →
      Statements tokens others [last'] → last'.kind = .endOfInput → statements = others := by
  refine ⟨?_, ?_⟩
  · intro source program
    exact ⟨program_of_read, read_of_program⟩
  · intro tokens statements others last last' derived isEnd derived' isEnd'
    have once := Nesting.readOn_start derived isEnd
    rw [Nesting.readOn_start derived' isEnd'] at once
    cases once
    rfl

end Homoiconic
