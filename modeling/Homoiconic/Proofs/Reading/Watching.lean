import Homoiconic.Proofs.Reading.Descent

/-! # Watching a descent

A descent into a program can be watched. The account of it says which tokens it has taken, and which
forms and turns of rows it has passed, and lasts even if the descent fails. Each function here goes
the way of the one of the same name in a descent that is not watched, and adds the notes to it. They
change nothing else: a descent that is watched ends in the same way, `Watched.fst_read`.
-/

namespace Homoiconic.Descent

/-- What a descent passes on its way. -/
inductive Part where
  | form
  /-- One more form in a parenthesis. -/
  | item
  /-- One more form in a square bracket. -/
  | operand
  /-- One more form in a statement. -/
  | member
  /-- One more statement in a block, with the semicolon after it. -/
  | statement
  deriving Repr, DecidableEq

/-- A part that has been passed, by the numbers of tokens taken before it began and at its end. -/
structure Span where
  part : Part
  start : Nat
  stop : Nat
  deriving Repr, DecidableEq

/-- Where a descent has got to, and what it has met with on its way. -/
structure Account where
  here : Descent
  /-- The tokens that were looked at where the descent was told to advance, in order. -/
  taken : List Token := []
  /-- The parts that have been passed, in the order of their ends. -/
  spans : List Span := []

/-- A parse that keeps an account, and does not lose it by failing. -/
abbrev Watched := EStateM Stop Account

/-- A parse that never advances is watched without a note. -/
def watch {α : Type} (parse : Parse α) : Watched α :=
  fun account =>
    match parse.run account.here with
    | .ok (value, here) => .ok value { account with here }
    | .error stop => .error stop account

namespace Watched

section Steps

/-- To advance is to take the token that is looked at, whatever it is. -/
def advance : Watched Token :=
  fun account =>
    watch Descent.advance { account with taken := account.taken ++ [account.here.current] }

/-- Note a part when it has been passed. -/
def passing {α : Type} (part : Part) (parse : Watched α) : Watched α :=
  fun account =>
    match parse account with
    | .ok value after =>
        .ok value { after with
          spans := after.spans ++ [⟨part, account.taken.length, after.taken.length⟩] }
    | .error stop after => .error stop after

def eat (kind : TokenKind) : Watched Token := do
  if (← watch peek) = kind then advance else watch (unexpected (some kind))

def skip (kind : TokenKind) : Watched Unit := do
  if (← watch peek) = kind then let _ ← advance

def close (ending : TokenKind) : Watched Unit :=
  if ending = .endOfInput then return else do
    let _ ← eat ending

variable (form : Watched Atom)

def forms (ending : TokenKind) : Nat → List Atom → Watched (List Atom)
  | 0, _ => throw .unfinished
  | turns + 1, before => do
      let kind ← watch peek
      if kind = ending ∨ kind = .semicolon then return before
      else if kind = .endOfInput then throw (.failed (.unexpectedEnd .leftBrace))
      else forms ending turns (before ++ [← passing .member form])

def row (ending : TokenKind) (bound : Nat) : Watched Atom := do
  let made ← forms form ending bound []
  skip .semicolon
  watch (statement made)

def statements (ending : TokenKind) (bound : Nat) : Nat → List Atom → Watched (List Atom)
  | 0, _ => throw .unfinished
  | turns + 1, before => do
      if (← watch peek) = ending then return before
      else statements ending bound turns (before ++ [← passing .statement (row form ending bound)])

def block (ending : TokenKind) (turns : Nat) : Watched Atom := do
  let items ← statements form ending turns turns [.symbol "do"]
  close ending
  return .list items

def items : Nat → List Atom → Watched (List Atom)
  | 0, _ => throw .unfinished
  | turns + 1, before => do
      match ← watch peek with
      | .rightParen => return before
      | .endOfInput => throw (.failed (.unexpectedEnd .leftParen))
      | _ => items turns (before ++ [← passing .item form])

def list (turns : Nat) : Watched Atom := do
  let _ ← eat .leftParen
  let items ← items form turns []
  let _ ← advance
  return .list items

def operands (opened : Nat) : Nat → List Atom → Watched (List Atom)
  | 0, before => return before
  | missing + 1, before => do
      match ← watch peek with
      | .rightBracket => throw (.failed (.malformedBracket opened))
      | .endOfInput => throw (.failed (.unexpectedEnd .leftBracket))
      | _ => operands opened missing (before ++ [← passing .operand form])

def bracket : Watched Atom := do
  let opening ← eat .leftBracket
  let forms ← operands form opening.offset 3 []
  match ← watch peek with
  | .rightBracket =>
      let _ ← advance
      return .list (← watch (swap forms))
  | .endOfInput => throw (.failed (.unexpectedEnd .leftBracket))
  | _ => throw (.failed (.malformedBracket opening.offset))

def quotation : Watched Atom := do
  let mark ← advance
  if (← watch peek) = .endOfInput then throw (.failed (.danglingQuote mark.offset))
  else return .quoted (← form)

def number : Watched Atom := do
  let token ← eat .number
  match Nesting.integer? token.text with
  | some value => return .number value
  | none => throw (.failed (.badInteger token.text token.offset))

def formWith (turns : Nat) : Watched Atom := do
  match ← watch peek with
  | .leftParen => list form turns
  | .quoteMark => quotation form
  | .leftBracket => bracket form
  | .leftBrace => do
      let _ ← advance
      block form .rightBrace turns
  | .symbol => return .symbol (← advance).text
  | .number => number
  | _ => watch (unexpected none)

end Steps

def readForm : Nat → Watched Atom
  | 0 => throw .unfinished
  | turns + 1 => passing .form (formWith (readForm turns) turns)

end Watched

/-- Before the first token of a program, nothing has been taken or passed. -/
def Account.start (source : String) : Account where
  here :=
    { current := (Scanner.ofSource source).nextToken.1
      cursor := (Scanner.ofSource source).nextToken.2.cursor source }

/-- Read a program, and give the account of it as well, which goes as far as the descent has come. -/
def Watched.read (turns : Nat) (source : String) : Except Stop Atom × Account :=
  match block (readForm turns) .endOfInput turns (.start source) with
  | .ok program account => (.ok program, account)
  | .error stop account => (.error stop, account)

section Watching

variable {α β : Type} {watched : Watched α} {parse : Parse α}

/-- Apart from its account, what is watched is the parse. -/
def Watches (watched : Watched α) (parse : Parse α) : Prop :=
  ∀ account, parse.run account.here =
    match watched account with
    | .ok value after => .ok (value, after.here)
    | .error stop _ => .error stop

theorem watches_watch (parse : Parse α) : Watches (watch parse) parse := by
  intro account
  unfold watch
  cases parse.run account.here <;> rfl

theorem watches_pure (value : α) : Watches (pure value) (pure value) :=
  fun _ => rfl

theorem watches_throw (stop : Stop) : Watches (throw stop : Watched α) (throw stop) :=
  fun _ => rfl

theorem Watches.bind {next : α → Watched β} {next' : α → Parse β} (first : Watches watched parse)
    (others : ∀ value, Watches (next value) (next' value)) :
    Watches (watched >>= next) (parse >>= next') := by
  intro account
  have first := first account
  rw [StateT.run_bind, first]
  change _ = match EStateM.bind watched next account with
    | .ok value after => Except.ok (value, after.here)
    | .error stop _ => .error stop
  unfold EStateM.bind
  cases watched account with
  | ok value after => exact others value after
  | error stop after => rfl

theorem watches_advance : Watches Watched.advance advance :=
  fun account => watches_watch advance
    { account with taken := account.taken ++ [account.here.current] }

theorem Watches.passing (watches : Watches watched parse) (part : Part) :
    Watches (Watched.passing part watched) parse := by
  intro account
  rw [watches account]
  unfold Watched.passing
  cases watched account <;> rfl

theorem watches_eat (kind : TokenKind) : Watches (Watched.eat kind) (eat kind) := by
  refine (watches_watch peek).bind fun found => ?_
  split
  · exact watches_advance
  · exact watches_watch _

theorem watches_skip (kind : TokenKind) : Watches (Watched.skip kind) (skip kind) := by
  refine (watches_watch peek).bind fun found => ?_
  split
  · exact watches_advance.bind fun _ => watches_pure _
  · exact watches_pure _

theorem watches_close (ending : TokenKind) : Watches (Watched.close ending) (close ending) := by
  unfold Watched.close close
  split
  · exact watches_pure _
  · exact (watches_eat ending).bind fun _ => watches_pure _

theorem watches_number : Watches Watched.number number := by
  refine (watches_eat .number).bind fun token => ?_
  cases Nesting.integer? token.text with
  | some value => exact watches_pure _
  | none => exact watches_throw _

variable {form : Watched Atom} {form' : Parse Atom} (watches : Watches form form')

include watches

theorem watches_forms (ending : TokenKind) (turns : Nat) (before : List Atom) :
    Watches (Watched.forms form ending turns before) (forms form' ending turns before) := by
  induction turns generalizing before with
  | zero => exact watches_throw _
  | succ turns ih =>
      refine (watches_watch peek).bind fun kind => ?_
      split
      · exact watches_pure _
      · split
        · exact watches_throw _
        · exact (watches.passing .member).bind fun _ => ih _

theorem watches_row (ending : TokenKind) (bound : Nat) :
    Watches (Watched.row form ending bound) (row form' ending bound) := by
  refine (watches_forms watches ending bound []).bind fun made => ?_
  exact (watches_skip .semicolon).bind fun _ => watches_watch _

theorem watches_statements (ending : TokenKind) (bound turns : Nat) (before : List Atom) :
    Watches (Watched.statements form ending bound turns before)
      (statements form' ending bound turns before) := by
  induction turns generalizing before with
  | zero => exact watches_throw _
  | succ turns ih =>
      refine (watches_watch peek).bind fun kind => ?_
      split
      · exact watches_pure _
      · exact ((watches_row watches ending bound).passing .statement).bind fun _ => ih _

theorem watches_block (ending : TokenKind) (turns : Nat) :
    Watches (Watched.block form ending turns) (block form' ending turns) := by
  refine (watches_statements watches ending turns turns _).bind fun items => ?_
  exact (watches_close ending).bind fun _ => watches_pure _

theorem watches_items (turns : Nat) (before : List Atom) :
    Watches (Watched.items form turns before) (items form' turns before) := by
  induction turns generalizing before with
  | zero => exact watches_throw _
  | succ turns ih =>
      refine (watches_watch peek).bind fun kind => ?_
      cases kind with
      | rightParen => exact watches_pure _
      | endOfInput => exact watches_throw _
      | _ => exact (watches.passing .item).bind fun _ => ih _

theorem watches_list (turns : Nat) : Watches (Watched.list form turns) (list form' turns) := by
  refine (watches_eat .leftParen).bind fun _ => ?_
  refine (watches_items watches turns []).bind fun items => ?_
  exact watches_advance.bind fun _ => watches_pure _

theorem watches_operands (opened missing : Nat) (before : List Atom) :
    Watches (Watched.operands form opened missing before)
      (operands form' opened missing before) := by
  induction missing generalizing before with
  | zero => exact watches_pure _
  | succ missing ih =>
      refine (watches_watch peek).bind fun kind => ?_
      cases kind with
      | rightBracket => exact watches_throw _
      | endOfInput => exact watches_throw _
      | _ => exact (watches.passing .operand).bind fun _ => ih _

theorem watches_bracket : Watches (Watched.bracket form) (bracket form') := by
  refine (watches_eat .leftBracket).bind fun opening => ?_
  refine (watches_operands watches opening.offset 3 []).bind fun forms => ?_
  refine (watches_watch peek).bind fun kind => ?_
  cases kind with
  | rightBracket =>
      refine watches_advance.bind fun _ => ?_
      exact (watches_watch _).bind fun _ => watches_pure _
  | _ => exact watches_throw _

theorem watches_quotation : Watches (Watched.quotation form) (quotation form') := by
  refine watches_advance.bind fun mark => ?_
  refine (watches_watch peek).bind fun kind => ?_
  split
  · exact watches_throw _
  · exact watches.bind fun _ => watches_pure _

theorem watches_formWith (turns : Nat) :
    Watches (Watched.formWith form turns) (formWith form' turns) := by
  refine (watches_watch peek).bind fun kind => ?_
  cases kind with
  | leftParen => exact watches_list watches turns
  | quoteMark => exact watches_quotation watches
  | leftBracket => exact watches_bracket watches
  | leftBrace => exact watches_advance.bind fun _ => watches_block watches .rightBrace turns
  | symbol => exact watches_advance.bind fun _ => watches_pure _
  | number => exact watches_number
  | _ => exact watches_watch _

omit watches in
theorem watches_readForm (turns : Nat) : Watches (Watched.readForm turns) (readForm turns) := by
  induction turns with
  | zero => exact watches_throw _
  | succ turns ih => exact (watches_formWith ih turns).passing .form

end Watching

theorem Watched.fst_read (turns : Nat) (source : String) :
    (Watched.read turns source).1 = Descent.read turns source := by
  have begins : (Scanner.ofSource source).StandsIn source := ⟨[], rfl, rfl⟩
  have looked : Cursor.nextToken? { source } =
      some ((Account.start source).here.current, (Account.start source).here.cursor) :=
    begins.nextToken?_cursor
  have watches := watches_block (watches_readForm turns) .endOfInput turns (.start source)
  rw [Descent.read, looked]
  change _ = StateT.run' _ (Account.start source).here
  rw [StateT.run'_eq, watches, Watched.read]
  cases Watched.block (Watched.readForm turns) .endOfInput turns (.start source) <;> rfl

end Homoiconic.Descent
