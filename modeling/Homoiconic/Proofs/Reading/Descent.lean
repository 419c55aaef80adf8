import Mathlib.Data.List.Basic
import Homoiconic.Proofs.Reading.Continuation
import Homoiconic.Proofs.Token.Position

/-! # Reading by recursive descent

A program can also be read by descending into its forms, with one token looked at in advance. A
function for each sort of form takes the tokens that it has looked at; some of them insist on a
token that has been looked at already, or rely on how many forms they have read. Each of these
functions does what the reader does with the same tokens, wherever it stands, so that none of them
insists in vain: `Descent.read_eq`.
-/

namespace Homoiconic

/-- Why reading stops. -/
inductive Descent.Stop where
  | failed (cause : ReadError)
  /-- Something is not where it has to be. -/
  | fault
  /-- More steps were needed than were allowed. -/
  | unfinished

/-- The token that is looked at, and where the tokens after it come from. -/
structure Descent where
  current : Token
  cursor : Cursor

namespace Descent

abbrev Parse := StateT Descent (Except Stop)

section Steps

def peek : Parse TokenKind :=
  fun here => .ok (here.current.kind, here)

/-- Take the token that is looked at, and look at the next one. -/
def advance : Parse Token :=
  fun here =>
    match here.cursor.nextToken? with
    | some (current, cursor) => .ok (here.current, { current, cursor })
    | none => .error .fault

def unexpected {α : Type} (expected : Option TokenKind) : Parse α :=
  fun here =>
    .error (.failed (.unexpectedToken here.current.text expected here.current.offset))

/-- Take a token of the kind, and of no other. -/
def eat (kind : TokenKind) : Parse Token := do
  if (← peek) = kind then advance else unexpected (some kind)

/-- Take a token of the kind, if there is one. -/
def skip (kind : TokenKind) : Parse Unit := do
  if (← peek) = kind then let _ ← advance

/-- Take the end of a block, unless it is the end of the text. -/
def close (ending : TokenKind) : Parse Unit :=
  if ending = .endOfInput then return else do
    let _ ← eat ending

/-- A statement of some forms. One form is taken out of its row. -/
def statement (forms : List Atom) : Parse Atom :=
  match forms.length with
  | 1 =>
      match forms[0]? with
      | some form => return .quoted form
      | none => throw .fault
  | _ => return .quoted (.list forms)

/-- Exchange the first two forms. -/
def swap : List Atom → Parse (List Atom)
  | first :: second :: rest => return second :: first :: rest
  | _ => throw .fault

variable (form : Parse Atom)

/-- The forms of a statement, up to the end of the block or a semicolon. -/
def forms (ending : TokenKind) : Nat → List Atom → Parse (List Atom)
  | 0, _ => throw .unfinished
  | turns + 1, before => do
      let kind ← peek
      if kind = ending ∨ kind = .semicolon then return before
      else if kind = .endOfInput then throw (.failed (.unexpectedEnd .leftBrace))
      else forms ending turns (before ++ [← form])

/-- A statement, and the semicolon after it, if there is one. -/
def row (ending : TokenKind) (bound : Nat) : Parse Atom := do
  let made ← forms form ending bound []
  skip .semicolon
  statement made

/-- The statements of a block, up to its end. -/
def statements (ending : TokenKind) (bound : Nat) : Nat → List Atom → Parse (List Atom)
  | 0, _ => throw .unfinished
  | turns + 1, before => do
      if (← peek) = ending then return before
      else statements ending bound turns (before ++ [← row form ending bound])

def block (ending : TokenKind) (turns : Nat) : Parse Atom := do
  let items ← statements form ending turns turns [.symbol "do"]
  close ending
  return .list items

def items : Nat → List Atom → Parse (List Atom)
  | 0, _ => throw .unfinished
  | turns + 1, before => do
      match ← peek with
      | .rightParen => return before
      | .endOfInput => throw (.failed (.unexpectedEnd .leftParen))
      | _ => items turns (before ++ [← form])

def list (turns : Nat) : Parse Atom := do
  let _ ← eat .leftParen
  let items ← items form turns []
  let _ ← advance
  return .list items

/-- As many forms as are missing in a square bracket. -/
def operands (opened : Nat) : Nat → List Atom → Parse (List Atom)
  | 0, before => return before
  | missing + 1, before => do
      match ← peek with
      | .rightBracket => throw (.failed (.malformedBracket opened))
      | .endOfInput => throw (.failed (.unexpectedEnd .leftBracket))
      | _ => operands opened missing (before ++ [← form])

def bracket : Parse Atom := do
  let opening ← eat .leftBracket
  let forms ← operands form opening.offset 3 []
  match ← peek with
  | .rightBracket =>
      let _ ← advance
      return .list (← swap forms)
  | .endOfInput => throw (.failed (.unexpectedEnd .leftBracket))
  | _ => throw (.failed (.malformedBracket opening.offset))

def quotation : Parse Atom := do
  let mark ← advance
  if (← peek) = .endOfInput then throw (.failed (.danglingQuote mark.offset))
  else return .quoted (← form)

def number : Parse Atom := do
  let token ← eat .number
  match Nesting.integer? token.text with
  | some value => return .number value
  | none => throw (.failed (.badInteger token.text token.offset))

/-- A form, given how the forms in it are read. -/
def formWith (turns : Nat) : Parse Atom := do
  match ← peek with
  | .leftParen => list form turns
  | .quoteMark => quotation form
  | .leftBracket => bracket form
  | .leftBrace => do
      let _ ← advance
      block form .rightBrace turns
  | .symbol => return .symbol (← advance).text
  | .number => number
  | _ => unexpected none

end Steps

/-- A form, with a bound on how deep forms may nest and how long their rows may be. -/
def readForm : Nat → Parse Atom
  | 0 => throw .unfinished
  | turns + 1 => formWith (readForm turns) turns

/-- Read a program: look at its first token, and descend. -/
def read (turns : Nat) (source : String) : Except Stop Atom :=
  match Cursor.nextToken? { source } with
  | some (current, cursor) => (block (readForm turns) .endOfInput turns).run' { current, cursor }
  | none => .error .fault

section Outcomes

variable {α β : Type} {here : Descent} {good : α → Descent → Prop} {bad : Stop → Prop}

/-- How the parse ends from here: with something good, or stopped in a certain way. -/
def Does (parse : Parse α) (here : Descent) (good : α → Descent → Prop) (bad : Stop → Prop) :
    Prop :=
  match parse.run here with
  | .ok (value, after) => good value after
  | .error stop => bad stop

theorem does_bind {parse : Parse α} {next : α → Parse β} {good : β → Descent → Prop} :
    Does (parse >>= next) here good bad ↔
      Does parse here (fun value after => Does (next value) after good bad) bad := by
  simp only [Does, StateT.run_bind]
  cases parse.run here <;> rfl

theorem does_throw {stop : Stop} : Does (throw stop : Parse α) here good bad ↔ bad stop :=
  Iff.rfl

theorem does_peek {good : TokenKind → Descent → Prop} :
    Does peek here good bad ↔ good here.current.kind here :=
  Iff.rfl

theorem does_unexpected {expected : Option TokenKind} :
    Does (unexpected expected : Parse α) here good bad ↔
      bad (.failed (.unexpectedToken here.current.text expected here.current.offset)) :=
  Iff.rfl

theorem does_eat {kind : TokenKind} {good : Token → Descent → Prop}
    (found : here.current.kind = kind) :
    Does (eat kind) here good bad ↔ Does advance here good bad := by
  rw [eat, does_bind, does_peek, if_pos found]

theorem Does.imp {parse : Parse α} {good' : α → Descent → Prop} {bad' : Stop → Prop}
    (does : Does parse here good bad) (better : ∀ value after, good value after → good' value after)
    (worse : ∀ stop, bad stop → bad' stop) : Does parse here good' bad' := by
  unfold Does at does ⊢
  split
  · next value after ran =>
      rw [ran] at does
      exact better value after does
  · next stop ran =>
      rw [ran] at does
      exact worse stop does

theorem Does.run'_eq {parse : Parse α} {result : Except Stop α}
    (does : Does parse here (fun value _ => result = .ok value)
      (fun stop => result = .error stop)) :
    parse.run' here = result := by
  unfold Does at does
  rw [StateT.run'_eq]
  split at does
  · next ran =>
      rw [ran, does]
      rfl
  · next ran =>
      rw [ran, does]
      rfl

end Outcomes

section Facing

variable {source : String} {here : Descent} {rest : List Token}

/-- The tokens after the one that is looked at, in the text. -/
def Faces (source : String) (here : Descent) (rest : List Token) : Prop :=
  ∃ s : Scanner, s.StandsIn source ∧ here.cursor = s.cursor source ∧
    rest = if here.current.kind = .endOfInput then [] else s.tokens

theorem does_skip_of_ne {kind : TokenKind} {good : Unit → Descent → Prop} {bad : Stop → Prop}
    (other : here.current.kind ≠ kind) : Does (skip kind) here good bad ↔ good () here := by
  rw [skip, does_bind, does_peek, if_neg other]
  exact Iff.rfl

theorem Faces.rest_eq_nil (faces : here.Faces source rest)
    (isEnd : here.current.kind = .endOfInput) : rest = [] := by
  obtain ⟨s, _, _, others⟩ := faces
  rw [others, if_pos isEnd]

/-- Looking at the next token of the text. -/
theorem faces_nextToken {s : Scanner} (stands : s.StandsIn source) :
    ∃ rest, s.tokens = s.nextToken.1 :: rest ∧
      Faces source ⟨s.nextToken.1, s.nextToken.2.cursor source⟩ rest := by
  refine ⟨_, ?_, s.nextToken.2, stands.nextToken, rfl, rfl⟩
  rw [Scanner.tokens]
  split <;> rfl

theorem does_advance {good : Token → Descent → Prop} {bad : Stop → Prop}
    (faces : here.Faces source rest) (notEnd : here.current.kind ≠ .endOfInput)
    (next : ∀ after others, rest = after.current :: others → after.Faces source others →
      good here.current after) : Does advance here good bad := by
  obtain ⟨s, stands, cursor, others⟩ := faces
  rw [if_neg notEnd] at others
  obtain ⟨later, tokens, faces⟩ := faces_nextToken stands
  have moved : here.cursor.nextToken? = some (s.nextToken.1, s.nextToken.2.cursor source) := by
    rw [cursor, stands.nextToken?_cursor]
  simp only [Does, StateT.run, advance, moved]
  exact next _ later (others.trans tokens) faces

theorem does_skip {kind : TokenKind} {good : Unit → Descent → Prop} {bad : Stop → Prop}
    (faces : here.Faces source rest) (found : here.current.kind = kind)
    (notEnd : kind ≠ .endOfInput)
    (next : ∀ after others, rest = after.current :: others → after.Faces source others →
      good () after) : Does (skip kind) here good bad := by
  rw [skip, does_bind, does_peek, if_pos found]
  exact does_bind.mpr (does_advance faces (found ▸ notEnd) next)

theorem does_close {ending : TokenKind} {good : Unit → Descent → Prop} {bad : Stop → Prop}
    (faces : here.Faces source rest) (found : here.current.kind = ending)
    (inner : ending ≠ .endOfInput)
    (next : ∀ after others, rest = after.current :: others → after.Faces source others →
      good () after) : Does (close ending) here good bad := by
  rw [close, if_neg inner, does_bind, does_eat found]
  exact does_advance faces (found ▸ inner) next

end Facing

end Descent

namespace Nesting

/-- A token that the place does not take as its closing, or as what separates statements. -/
structure Lacks (place : Nesting) (token : Token) : Prop where
  notEnd : token.kind ≠ .endOfInput
  refused : token.kind ∈ [.rightParen, .rightBrace, .rightBracket, .semicolon] →
    place.shift token = .error (unexpected token)

variable {outer : Nesting} {opened : Nat} {rows : List Atom} {block : Block} {token : Token}

theorem lacks_list (notEnd : token.kind ≠ .endOfInput) (notClosing : token.kind ≠ .rightParen) :
    (list outer opened rows).Lacks token where
  notEnd := notEnd
  refused closing := by
    simp only [List.mem_cons, List.not_mem_nil, or_false] at closing
    obtain kind | kind | kind | kind := closing
    · exact absurd kind notClosing
    all_goals simp only [shift, full?, close, kind]

theorem lacks_bracket (notEnd : token.kind ≠ .endOfInput)
    (notClosing : token.kind ≠ .rightBracket) (notFull : rows.length ≠ 3) :
    (bracket outer opened rows).Lacks token where
  notEnd := notEnd
  refused closing := by
    have notFull : (bracket outer opened rows).full? = none := full?_bracket_eq_none.mpr notFull
    simp only [List.mem_cons, List.not_mem_nil, or_false] at closing
    obtain kind | kind | kind | kind := closing
    case inr.inr.inl => exact absurd kind notClosing
    all_goals simp only [shift, notFull, close, kind]

/-- Where a block stands, and the token that ends it: a brace, or the end of the text. -/
inductive Ends : TokenKind → (Block → Nesting) → Prop where
  | program : Ends .endOfInput .program
  | brace {outer : Nesting} {opened : Nat} : Ends .rightBrace (.brace outer opened)

theorem Ends.isBlock {ending : TokenKind} {frame : Block → Nesting} (ends : Ends ending frame) :
    IsBlock frame := by
  cases ends with
  | program => exact .program
  | brace => exact .brace

theorem Ends.lacks {ending : TokenKind} {frame : Block → Nesting} (ends : Ends ending frame)
    (notEnd : token.kind ≠ .endOfInput) (notClosing : token.kind ≠ ending)
    (notSemicolon : token.kind ≠ .semicolon) : (frame block).Lacks token where
  notEnd := notEnd
  refused closing := by
    simp only [List.mem_cons, List.not_mem_nil, or_false] at closing
    cases ends with
    | program =>
        obtain kind | kind | kind | kind := closing
        case inr.inr.inr => exact absurd kind notSemicolon
        all_goals simp only [shift, full?, close, kind]
    | brace =>
        obtain kind | kind | kind | kind := closing
        case inr.inl => exact absurd kind notClosing
        case inr.inr.inr => exact absurd kind notSemicolon
        all_goals simp only [shift, full?, close, kind]

theorem Ends.supply {ending : TokenKind} {frame : Block → Nesting} (ends : Ends ending frame)
    (form : Atom) (start : Nat) :
    (frame block).supply form start = frame (block.add form start) := by
  cases ends <;> rfl

theorem Ends.readOn_nil {ending : TokenKind} {frame : Block → Nesting} (ends : Ends ending frame)
    (inner : ending ≠ .endOfInput) :
    (frame block).readOn [] = .error (.unexpectedEnd .leftBrace) := by
  cases ends with
  | program => exact absurd rfl inner
  | brace => rfl

theorem lacks_mark (notEnd : token.kind ≠ .endOfInput) : (mark outer opened).Lacks token where
  notEnd := notEnd
  refused closing := by
    simp only [List.mem_cons, List.not_mem_nil, or_false] at closing
    obtain kind | kind | kind | kind := closing
    all_goals simp only [shift, full?, close, kind]

end Nesting

namespace Descent

open Nesting (readOn_error readOn_shift shift_endOfInput)

/-- Reading on stops in this way too. Without an end there were more tokens than steps. -/
def StopsAs (place : Nesting) (tokens : List Token) (steps : Nat) : Stop → Prop
  | .failed cause => place.readOn tokens = .error cause
  | .fault => False
  | .unfinished => steps < tokens.length

theorem StopsAs.earlier {place before : Nesting} {tokens others : List Token} {steps fewer : Nat}
    {stop : Stop} (stops : StopsAs place others fewer stop)
    (same : before.readOn tokens = place.readOn others)
    (longer : fewer < others.length → steps < tokens.length) :
    StopsAs before tokens steps stop := by
  cases stop with
  | failed cause => exact same.trans stops
  | fault => exact stops
  | unfinished => exact longer stops

/-- It takes one step more where there is more to read. -/
theorem StopsAs.earlier_step {place before : Nesting} {first next : Token}
    {rest others : List Token} {steps : Nat} {stop : Stop}
    (stops : StopsAs place (next :: others) steps stop) (less : others.length < rest.length)
    (same : before.readOn (first :: rest) = place.readOn (next :: others)) :
    StopsAs before (first :: rest) (steps + 1) stop := by
  refine stops.earlier same ?_
  simp only [List.length_cons]
  omega

/-- From one place in the text to another there is a form, and to read on from the first is to read
    on from the second, once the form has been supplied. -/
def Supplies (source : String) (here : Descent) (rest : List Token) (form : Atom)
    (after : Descent) : Prop :=
  ∃ others, after.Faces source others ∧ others.length < rest.length ∧
    ∀ place : Nesting, place.full? = none → place.readOn (here.current :: rest) =
      (place.supply form here.current.offset).readOn (after.current :: others)

/-- Wherever a form can stand, to read it is to supply it there; and where it does not stand,
    reading on fails in the same way. -/
def Reads (source : String) (turns : Nat) (form : Parse Atom) : Prop :=
  ∀ here rest, here.Faces source rest → Does form here (Supplies source here rest)
    (fun stop => ∀ place : Nesting, place.full? = none → place.Lacks here.current →
      StopsAs place (here.current :: rest) turns stop)

/-- From one place in the text to the end of a block, which has begun already, there are statements,
    and to read on from the first is to read on from the end of the block with these. -/
def Fills (source : String) (ending : TokenKind) (here : Descent) (rest : List Token)
    (begun : Block) (row : List Atom) (after : Descent) : Prop :=
  ∃ others whole, after.Faces source others ∧ others.length ≤ rest.length ∧
    after.current.kind = ending ∧ row = .symbol "do" :: Block.ended whole ∧
    ∀ frame, Nesting.Ends ending frame → (frame begun).readOn (here.current :: rest) =
      (frame whole).readOn (after.current :: others)

/-- In every block that has this end, reading on stops in this way too. -/
def StopsInBlock (ending : TokenKind) (begun : Block) (tokens : List Token) (steps : Nat)
    (stop : Stop) : Prop :=
  ∀ frame, Nesting.Ends ending frame → StopsAs (frame begun) tokens steps stop

section Forms

variable {source : String} {form : Parse Atom} {turns : Nat} (reads : Reads source turns form)
  {here : Descent} {rest : List Token}

include reads

theorem does_items {bound : Nat} (le : bound ≤ turns) (faces : here.Faces source rest)
    (before : List Atom) :
    Does (items form bound before) here
      (fun all after => ∃ others, after.Faces source others ∧ others.length ≤ rest.length ∧
        after.current.kind = .rightParen ∧ ∀ outer opened,
          (Nesting.list outer opened before.reverse).readOn (here.current :: rest) =
            (Nesting.list outer opened all.reverse).readOn (after.current :: others))
      (fun stop => ∀ outer opened,
        StopsAs (.list outer opened before.reverse) (here.current :: rest) bound stop) := by
  induction bound generalizing here rest before with
  | zero => exact fun _ _ => Nat.zero_lt_succ _
  | succ bound ih =>
      rw [items, does_bind, does_peek]
      split
      next kind => exact ⟨rest, faces, Nat.le_refl _, kind, fun _ _ => rfl⟩
      next kind =>
        rw [does_throw, faces.rest_eq_nil kind]
        intro outer opened
        exact readOn_shift (shift_endOfInput kind) []
      next notClosing notEnd =>
        rw [does_bind]
        refine (reads here rest faces).imp ?_ ?_
        · rintro atom after ⟨others, faces, less, same⟩
          have same (outer : Nesting) (opened : Nat) := same (.list outer opened before.reverse) rfl
          simp only [Nesting.supply] at same
          have further := ih (Nat.le_of_succ_le le) faces (before ++ [atom])
          simp only [List.reverse_append, List.reverse_singleton, List.singleton_append] at further
          refine further.imp ?_ ?_
          · rintro all last ⟨beyond, faces, le, kind, same'⟩
            exact ⟨beyond, faces, by omega, kind,
              fun outer opened => (same outer opened).trans (same' outer opened)⟩
          · intro stop stops outer opened
            exact (stops outer opened).earlier_step less (same outer opened)
        · intro stop stops outer opened
          have lacks : (Nesting.list outer opened before.reverse).Lacks here.current :=
            Nesting.lacks_list notEnd notClosing
          exact (stops _ rfl lacks).earlier rfl (by omega)

theorem does_list (faces : here.Faces source rest) (kind : here.current.kind = .leftParen) :
    Does (list form turns) here (Supplies source here rest)
      (fun stop => ∀ place : Nesting, place.full? = none →
        StopsAs place (here.current :: rest) (turns + 1) stop) := by
  rw [list, does_bind, does_eat kind]
  refine does_advance faces (by simp [kind]) ?_
  rintro inside others rfl faces
  have opens (place : Nesting) (notFull : place.full? = none) :
      place.readOn (here.current :: inside.current :: others) =
        (Nesting.list place here.current.offset []).readOn (inside.current :: others) :=
    readOn_shift (Nesting.shift_leftParen kind notFull) _
  rw [does_bind]
  refine (does_items reads (Nat.le_refl turns) faces []).imp ?_ ?_
  · rintro all closing ⟨beyond, faces, le, kind, same⟩
    rw [does_bind]
    refine does_advance faces (by simp [kind]) ?_
    rintro after more rfl faces
    refine ⟨more, faces, ?_, ?_⟩
    · simp only [List.length_cons] at le ⊢
      omega
    · intro place notFull
      refine (opens place notFull).trans ((same place here.current.offset).trans ?_)
      rw [readOn_shift (Nesting.shift_rightParen kind), List.reverse_reverse]
  · intro stop stops place notFull
    exact (stops place here.current.offset).earlier_step (Nat.lt_succ_self _) (opens place notFull)

theorem does_operands {missing : Nat} (faces : here.Faces source rest) {before : List Atom}
    (three : before.length + missing = 3) (opened : Nat) :
    Does (operands form opened missing before) here
      (fun all after => ∃ others, after.Faces source others ∧ others.length ≤ rest.length ∧
        all.length = 3 ∧ ∀ outer,
          (Nesting.bracket outer opened before.reverse).readOn (here.current :: rest) =
            (Nesting.bracket outer opened all.reverse).readOn (after.current :: others))
      (fun stop => ∀ outer,
        StopsAs (.bracket outer opened before.reverse) (here.current :: rest) turns stop) := by
  induction missing generalizing here rest before with
  | zero => exact ⟨rest, faces, Nat.le_refl _, three, fun _ => rfl⟩
  | succ missing ih =>
      have notFull (outer : Nesting) :
          (Nesting.bracket outer opened before.reverse).full? = none := by
        rw [Nesting.full?_bracket_eq_none, List.length_reverse]
        omega
      rw [operands, does_bind, does_peek]
      split
      next kind =>
        intro outer
        refine readOn_error (Nesting.shift_malformed kind ?_) rest
        rw [List.length_reverse]
        omega
      next kind =>
        rw [does_throw, faces.rest_eq_nil kind]
        intro outer
        exact readOn_shift (shift_endOfInput kind) []
      next notClosing notEnd =>
        rw [does_bind]
        refine (reads here rest faces).imp ?_ ?_
        · rintro atom after ⟨others, faces, less, same⟩
          have same (outer : Nesting) := same (.bracket outer opened before.reverse) (notFull outer)
          simp only [Nesting.supply] at same
          have room : (before ++ [atom]).length + missing = 3 := by
            simp only [List.length_append, List.length_singleton]
            omega
          have further := ih faces room
          simp only [List.reverse_append, List.reverse_singleton, List.singleton_append] at further
          refine further.imp ?_ ?_
          · rintro all last ⟨beyond, faces, le, full, same'⟩
            exact ⟨beyond, faces, by omega, full, fun outer => (same outer).trans (same' outer)⟩
          · intro stop stops outer
            refine (stops outer).earlier (same outer) ?_
            simp only [List.length_cons]
            omega
        · intro stop stops outer
          have lacks : (Nesting.bracket outer opened before.reverse).Lacks here.current := by
            refine Nesting.lacks_bracket notEnd notClosing ?_
            rw [List.length_reverse]
            omega
          exact stops _ (notFull outer) lacks

theorem does_bracket (faces : here.Faces source rest) (kind : here.current.kind = .leftBracket) :
    Does (bracket form) here (Supplies source here rest)
      (fun stop => ∀ place : Nesting, place.full? = none →
        StopsAs place (here.current :: rest) (turns + 1) stop) := by
  rw [bracket, does_bind, does_eat kind]
  refine does_advance faces (by simp [kind]) ?_
  rintro inside others rfl faces
  have opens (place : Nesting) (notFull : place.full? = none) :
      place.readOn (here.current :: inside.current :: others) =
        (Nesting.bracket place here.current.offset []).readOn (inside.current :: others) :=
    readOn_shift (Nesting.shift_leftBracket kind notFull) _
  rw [does_bind]
  refine (does_operands reads faces rfl here.current.offset).imp ?_ ?_
  · rintro all last ⟨beyond, faces, le, three, same⟩
    obtain ⟨left, operator, right, rfl⟩ := List.length_eq_three.mp three
    rw [does_bind, does_peek]
    split
    next kind =>
      rw [does_bind]
      refine does_advance faces (by simp [kind]) ?_
      rintro after more rfl faces
      refine ⟨more, faces, ?_, ?_⟩
      · simp only [List.length_cons] at le ⊢
        omega
      · intro place notFull
        refine (opens place notFull).trans ((same place).trans ?_)
        exact readOn_shift (Nesting.shift_rightBracket kind) _
    next kind =>
      intro place notFull
      refine (opens place notFull).trans ((same place).trans ?_)
      rw [faces.rest_eq_nil kind]
      exact readOn_shift (shift_endOfInput kind) []
    next notClosing notEnd =>
      intro place notFull
      refine (opens place notFull).trans ((same place).trans ?_)
      exact readOn_error (Nesting.shift_full rfl notEnd notClosing) _
  · intro stop stops place notFull
    exact (stops place).earlier_step (Nat.lt_succ_self _) (opens place notFull)

theorem does_quotation (faces : here.Faces source rest) (kind : here.current.kind = .quoteMark) :
    Does (quotation form) here (Supplies source here rest)
      (fun stop => ∀ place : Nesting, place.full? = none →
        StopsAs place (here.current :: rest) (turns + 1) stop) := by
  rw [quotation, does_bind]
  refine does_advance faces (by simp [kind]) ?_
  rintro inside others rfl faces
  have opens (place : Nesting) (notFull : place.full? = none) :
      place.readOn (here.current :: inside.current :: others) =
        (Nesting.mark place here.current.offset).readOn (inside.current :: others) :=
    readOn_shift (Nesting.shift_quoteMark kind notFull) _
  rw [does_bind, does_peek]
  split
  next isEnd =>
    intro place notFull
    rw [StopsAs, opens place notFull, faces.rest_eq_nil isEnd]
    exact readOn_shift (shift_endOfInput isEnd) []
  next notEnd =>
    rw [does_bind]
    refine (reads inside others faces).imp ?_ ?_
    · rintro atom after ⟨more, faces, less, same⟩
      refine ⟨more, faces, ?_, ?_⟩
      · simp only [List.length_cons]
        omega
      · intro place notFull
        rw [opens place notFull]
        exact same (.mark place here.current.offset) rfl
    · intro stop stops place notFull
      have stops := stops (.mark place here.current.offset) rfl (Nesting.lacks_mark notEnd)
      exact stops.earlier_step (Nat.lt_succ_self _) (opens place notFull)

/-- The forms of a statement are added to the block. Where the block does not end at once, nor the
    statement, there is some form. -/
theorem does_forms (ending : TokenKind) {bound : Nat} (le : bound ≤ turns)
    (faces : here.Faces source rest) (under : Block) :
    Does (forms form ending bound under.forms.reverse) here
      (fun row after => ∃ others filled, after.Faces source others ∧
        (after.current = here.current ∧ others = rest ∧ row = under.forms.reverse ∨
          others.length < rest.length ∧ row ≠ []) ∧
        (after.current.kind = ending ∨ after.current.kind = .semicolon) ∧
        filled.statements = under.statements ∧ filled.forms = row.reverse ∧
        ∀ frame, Nesting.Ends ending frame → (frame under).readOn (here.current :: rest) =
          (frame filled).readOn (after.current :: others))
      (StopsInBlock ending under (here.current :: rest) bound) := by
  induction bound generalizing here rest under with
  | zero => exact fun _ _ => Nat.zero_lt_succ _
  | succ bound ih =>
      rw [forms, does_bind, does_peek]
      split
      next kind =>
        exact ⟨rest, under, faces, .inl ⟨rfl, rfl, rfl⟩, kind, rfl, by rw [List.reverse_reverse],
          fun _ _ => rfl⟩
      next goesOn =>
        obtain ⟨notClosing, notSemicolon⟩ := not_or.mp goesOn
        split
        next isEnd =>
          rw [does_throw, faces.rest_eq_nil isEnd]
          intro frame ends
          rw [isEnd] at notClosing
          exact (readOn_shift (shift_endOfInput isEnd) []).trans
            (ends.readOn_nil (Ne.symm notClosing))
        next notEnd =>
          rw [does_bind]
          refine (reads here rest faces).imp ?_ ?_
          · rintro atom after ⟨others, faces, less, same⟩
            have same (frame : Block → Nesting) (ends : Nesting.Ends ending frame) :
                (frame under).readOn (here.current :: rest) =
                  (frame (under.add atom here.current.offset)).readOn
                    (after.current :: others) := by
              rw [same _ (ends.isBlock.full?_eq_none under), ends.supply]
            have further := ih (Nat.le_of_succ_le le) faces (under.add atom here.current.offset)
            rw [Block.forms_add, List.reverse_cons] at further
            refine further.imp ?_ ?_
            · rintro row last ⟨beyond, filled, faces, progress, kind, statements, forms, same'⟩
              rw [Block.statements_add] at statements
              refine ⟨beyond, filled, faces, .inr ?_, kind, statements, forms,
                fun frame ends => (same frame ends).trans (same' frame ends)⟩
              obtain ⟨_, rfl, row⟩ | ⟨more, filled⟩ := progress
              · exact ⟨less, by simp [row]⟩
              · exact ⟨by omega, filled⟩
            · intro stop stops frame ends
              exact (stops frame ends).earlier_step less (same frame ends)
          · intro stop stops frame ends
            have lacks : (frame under).Lacks here.current :=
              ends.lacks notEnd notClosing notSemicolon
            exact (stops _ (ends.isBlock.full?_eq_none under) lacks).earlier rfl (by omega)

omit reads in
theorem does_statement {good : Atom → Descent → Prop} {bad : Stop → Prop} (row : List Atom) :
    Does (statement row) here good bad ↔ good (Block.statement row) here := by
  rcases row with _ | ⟨form, _ | ⟨second, others⟩⟩ <;> exact Iff.rfl

/-- After its semicolon, or at the end of the block, the statement has its place in the block. -/
theorem does_row {ending : TokenKind} (faces : here.Faces source rest) {under : Block}
    (between : under.forms = []) (notClosing : here.current.kind ≠ ending) :
    Does (row form ending turns) here
      (fun made after => ∃ others whole, after.Faces source others ∧
        others.length < rest.length ∧ (whole.forms = [] ∨ after.current.kind = ending) ∧
        whole.ended = under.ended ++ [made] ∧
        ∀ frame, Nesting.Ends ending frame → (frame under).readOn (here.current :: rest) =
          (frame whole).readOn (after.current :: others))
      (StopsInBlock ending under (here.current :: rest) turns) := by
  have inside := does_forms reads ending (Nat.le_refl turns) faces under
  rw [between, List.reverse_nil] at inside
  rw [row, does_bind]
  refine inside.imp ?_ fun _ stops => stops
  rintro made after ⟨others, filled, faces, progress, kind, statements, forms, same⟩
  have old : filled.statements.reverse = under.ended := by
    rw [Block.ended_of_between between, statements]
  rw [does_bind]
  by_cases semicolon : after.current.kind = .semicolon
  · refine does_skip faces semicolon (by simp) ?_
    rintro next more rfl faces
    have none : filled.endStatement.forms = [] := rfl
    rw [does_statement]
    refine ⟨more, filled.endStatement, faces, ?_, .inl none, ?_, ?_⟩
    · obtain ⟨_, rfl, _⟩ | ⟨less, _⟩ := progress
      · exact Nat.lt_succ_self _
      · exact Nat.lt_of_succ_lt less
    · rw [Block.ended_of_between none, ← old]
      simp [Block.endStatement, forms]
    · intro frame ends
      exact (same frame ends).trans
        (readOn_shift (ends.isBlock.shift_semicolon filled semicolon) _)
  · have kind := kind.resolve_right semicolon
    obtain ⟨unchanged, _⟩ | ⟨less, some⟩ := progress
    · exact absurd (unchanged ▸ kind) notClosing
    have nonempty : filled.forms ≠ [] := by simp [forms, some]
    rw [does_skip_of_ne semicolon, does_statement]
    refine ⟨others, filled, faces, less, .inr kind, ?_, same⟩
    rw [Block.ended_of_forms nonempty, old, forms, List.reverse_reverse]

/-- The statements of the block are those that have ended, and at its end the last one. -/
theorem does_statements {ending : TokenKind} {bound : Nat} (le : bound ≤ turns)
    (faces : here.Faces source rest) {under : Block}
    (between : under.forms = [] ∨ here.current.kind = ending) :
    Does (statements form ending turns bound (.symbol "do" :: under.ended)) here
      (Fills source ending here rest under)
      (StopsInBlock ending under (here.current :: rest) bound) := by
  induction bound generalizing here rest under with
  | zero => exact fun _ _ => Nat.zero_lt_succ _
  | succ bound ih =>
      rw [statements, does_bind, does_peek]
      split
      next kind => exact ⟨rest, under, faces, Nat.le_refl _, kind, rfl, fun _ _ => rfl⟩
      next notClosing =>
        rw [does_bind]
        refine (does_row reads faces (between.resolve_right notClosing) notClosing).imp ?_ ?_
        · rintro made after ⟨others, more, faces, less, between, ended, same⟩
          have further := ih (Nat.le_of_succ_le le) faces between
          rw [ended] at further
          refine further.imp ?_ ?_
          · rintro all last ⟨beyond, whole, faces, le, kind, ended, same'⟩
            exact ⟨beyond, whole, faces, by omega, kind, ended,
              fun frame ends => (same frame ends).trans (same' frame ends)⟩
          · intro stop stops frame ends
            exact (stops frame ends).earlier_step less (same frame ends)
        · intro stop stops frame ends
          exact (stops frame ends).earlier rfl (by omega)

theorem does_brace (faces : here.Faces source rest) (kind : here.current.kind = .leftBrace) :
    Does (do let _ ← advance; block form .rightBrace turns) here (Supplies source here rest)
      (fun stop => ∀ place : Nesting, place.full? = none →
        StopsAs place (here.current :: rest) (turns + 1) stop) := by
  rw [does_bind]
  refine does_advance faces (by simp [kind]) ?_
  rintro inside others rfl faces
  have opens (place : Nesting) (notFull : place.full? = none) :
      place.readOn (here.current :: inside.current :: others) =
        (Nesting.brace place here.current.offset {}).readOn (inside.current :: others) :=
    readOn_shift (Nesting.shift_leftBrace kind notFull) _
  have empty : ({} : Block).forms = [] ∨ inside.current.kind = .rightBrace := .inl rfl
  rw [block, does_bind]
  refine (does_statements reads (Nat.le_refl turns) faces empty).imp ?_ ?_
  · rintro _ last ⟨beyond, whole, faces, le, kind, rfl, same⟩
    rw [does_bind]
    refine does_close faces kind (by simp) ?_
    rintro after more rfl faces
    refine ⟨more, faces, ?_, ?_⟩
    · simp only [List.length_cons] at le ⊢
      omega
    · intro place notFull
      refine (opens place notFull).trans ((same _ .brace).trans ?_)
      rw [readOn_shift (Nesting.shift_rightBrace kind), Block.close_eq]
  · intro stop stops place notFull
    exact (stops _ .brace).earlier_step (Nat.lt_succ_self _) (opens place notFull)

/-- The forms that are tokens by themselves, and all others. -/
theorem reads_formWith : Reads source (turns + 1) (formWith form turns) := by
  intro here rest faces
  have weaken {parse : Parse Atom} (does : Does parse here (Supplies source here rest)
      (fun stop => ∀ place : Nesting, place.full? = none →
        StopsAs place (here.current :: rest) (turns + 1) stop)) :
      Does parse here (Supplies source here rest)
        (fun stop => ∀ place : Nesting, place.full? = none → place.Lacks here.current →
          StopsAs place (here.current :: rest) (turns + 1) stop) :=
    does.imp (fun _ _ supplies => supplies) fun _ stops place notFull _ => stops place notFull
  rw [formWith, does_bind, does_peek]
  split
  next kind => exact weaken (does_list reads faces kind)
  next kind => exact weaken (does_quotation reads faces kind)
  next kind => exact weaken (does_bracket reads faces kind)
  next kind => exact weaken (does_brace reads faces kind)
  next kind =>
    rw [does_bind]
    refine does_advance faces (by simp [kind]) ?_
    rintro after more rfl faces
    exact ⟨more, faces, Nat.lt_succ_self _,
      fun place notFull => readOn_shift (Nesting.shift_symbol kind notFull) _⟩
  next kind =>
    rw [number, does_bind, does_eat kind]
    refine does_advance faces (by simp [kind]) ?_
    rintro after more rfl faces
    cases integer : Nesting.integer? here.current.text with
    | some value =>
        refine ⟨more, faces, Nat.lt_succ_self _, ?_⟩
        intro place notFull
        have shifted := Nesting.shift_integer kind notFull
        rw [integer] at shifted
        exact readOn_shift shifted _
    | none =>
        intro place notFull _
        refine readOn_error ?_ _
        rw [Nesting.shift_integer kind notFull, integer]
  next notList notQuotation notBracket notBrace notSymbol notNumber =>
    rw [does_unexpected]
    intro place _ lacks
    refine readOn_error (lacks.refused ?_) rest
    have notEnd := lacks.notEnd
    cases kind : here.current.kind <;> simp_all

omit reads in
/-- Without the allowance for more forms, nothing is read. -/
theorem reads_readForm (source : String) (turns : Nat) : Reads source turns (readForm turns) := by
  induction turns with
  | zero => exact fun _ _ _ _ _ _ => Nat.zero_lt_succ _
  | succ turns ih => exact reads_formWith ih

end Forms

/-- To descend into a text is to read it: with as many steps as the text has tokens, every function
    finds what it relies on. -/
theorem read_eq (source : String) {turns : Nat} (enough : (tokens source).length ≤ turns) :
    Descent.read turns source = (Homoiconic.read source).mapError Stop.failed := by
  have begins : (Scanner.ofSource source).StandsIn source := ⟨[], rfl, rfl⟩
  obtain ⟨rest, whole, faces⟩ := faces_nextToken begins
  let first : Descent :=
    ⟨(Scanner.ofSource source).nextToken.1, (Scanner.ofSource source).nextToken.2.cursor source⟩
  have whole : tokens source = first.current :: rest := whole
  have read : Homoiconic.read source = (Nesting.program {}).readOn (first.current :: rest) := by
    rw [← whole]
    exact read_eq_readOn source
  have looked : Cursor.nextToken? { source } = some (first.current, first.cursor) :=
    begins.nextToken?_cursor
  have empty : ({} : Block).forms = [] ∨ first.current.kind = .endOfInput := .inl rfl
  have does : Does (block (readForm turns) .endOfInput turns) first
      (fun program _ => (Homoiconic.read source).mapError Stop.failed = .ok program)
      (fun stop => (Homoiconic.read source).mapError Stop.failed = .error stop) := by
    rw [block, does_bind]
    refine (does_statements (reads_readForm source turns) (Nat.le_refl turns) faces empty).imp ?_ ?_
    · rintro _ last ⟨others, all, faces, _, kind, rfl, same⟩
      have done : (Nesting.program all).readOn (last.current :: others) = .ok all.close := by
        rw [faces.rest_eq_nil kind]
        exact readOn_shift (shift_endOfInput kind) []
      rw [read.trans ((same _ .program).trans done), Block.close_eq]
      rfl
    · intro stop stops
      have stops := stops _ .program
      cases stop with
      | failed cause => exact congrArg (Except.mapError Stop.failed) (read.trans stops)
      | fault => exact stops.elim
      | unfinished =>
          have short : turns < (first.current :: rest).length := stops
          rw [whole] at enough
          omega
  rw [Descent.read, looked]
  exact does.run'_eq

end Descent

/-- The kind of token that alone would have been taken. -/
def ReadError.expected? : ReadError → Option TokenKind
  | .unexpectedToken _ expected _ => expected
  | _ => none

namespace Nesting

variable {here : Nesting} {token : Token} {cause : ReadError}

theorem expected?_of_shift (fails : here.shift token = .error cause) : cause.expected? = none := by
  cases refuses_of_shift fails <;> rfl

theorem expected?_of_readOn {tokens : List Token} (fails : here.readOn tokens = .error cause) :
    cause.expected? = none := by
  induction tokens generalizing here with
  | nil => cases here <;> cases fails <;> rfl
  | cons token rest ih =>
      cases shifted : here.shift token with
      | error found =>
          rw [readOn_error shifted] at fails
          cases fails
          exact expected?_of_shift shifted
      | ok shift =>
          rw [readOn_shift shifted] at fails
          exact ih fails

end Nesting

/-- Reading never fails for want of one certain kind of token: in a descent, what has to be taken is
    there, and `Descent.eat` does not fail. -/
theorem expected?_of_read {source : String} {cause : ReadError}
    (fails : read source = .error cause) : cause.expected? = none := by
  rw [read_eq_readOn] at fails
  exact Nesting.expected?_of_readOn fails

end Homoiconic
