import Homoiconic.Proofs.Reading.Watching
import Homoiconic.Proofs.Token.Concatenation

/-! # Every token is taken once

The account of a descent shows what makes it end. Nothing is passed without a token being taken, be
it a form or one turn of a row, and even where a statement has no forms; no token is taken twice, and
the end of the text not even once. So there is no more to take after as many tokens as the text has,
whether it is a program or not; and of a program, all of them have been taken.
-/

namespace Homoiconic.Descent

/-- The account says what has happened on the way through the text. The tokens taken are those before
    the one that is looked at, and some of them were taken in each part that has been passed. -/
structure Account.IsAccurate (source : String) (account : Account) : Prop where
  ahead : ∃ rest, account.here.Faces source rest ∧
    tokens source = account.taken ++ account.here.current :: rest
  spans : ∀ span ∈ account.spans, span.start < span.stop ∧ span.stop ≤ account.taken.length

/-- The account stays accurate, whether the parse fails or not, and what comes of a parse that does
    not fail is good. -/
def Keeps {α : Type} (source : String) (parse : Watched α) (account : Account)
    (good : α → Account → Prop) : Prop :=
  match parse account with
  | .ok value after => after.IsAccurate source ∧ good value after
  | .error _ after => after.IsAccurate source

/-- The account stays accurate, and a parse that does not fail has taken some token. -/
def TakesSome {α : Type} (source : String) (parse : Watched α) (account : Account) : Prop :=
  Keeps source parse account fun _ after => account.taken.length < after.taken.length

section Steps

variable {α β : Type} {source : String} {account : Account} {parse : Watched α}
  {good : α → Account → Prop}

theorem Keeps.imp {better : α → Account → Prop} (keeps : Keeps source parse account good)
    (implies : ∀ value after, good value after → better value after) :
    Keeps source parse account better := by
  unfold Keeps at keeps ⊢
  split
  · next value after ran =>
      rw [ran] at keeps
      exact ⟨keeps.1, implies value after keeps.2⟩
  · next ran =>
      rw [ran] at keeps
      exact keeps

theorem Keeps.bind {next : α → Watched β} {best : β → Account → Prop}
    (first : Keeps source parse account good)
    (others : ∀ value after, after.IsAccurate source → good value after →
      Keeps source (next value) after best) :
    Keeps source (parse >>= next) account best := by
  change match EStateM.bind parse next account with
    | .ok value after => after.IsAccurate source ∧ best value after
    | .error _ after => after.IsAccurate source
  unfold Keeps at first
  unfold EStateM.bind
  cases ran : parse account with
  | ok value after =>
      rw [ran] at first
      exact others value after first.1 first.2
  | error stop after =>
      rw [ran] at first
      exact first

theorem keeps_peek_bind {next : TokenKind → Watched α} :
    Keeps source (watch peek >>= next) account good ↔
      Keeps source (next account.here.current.kind) account good :=
  Iff.rfl

/-- A part in which some token has been taken can be noted. -/
theorem TakesSome.passing (takes : TakesSome source parse account) (part : Part) :
    TakesSome source (Watched.passing part parse) account := by
  unfold TakesSome Keeps at takes ⊢
  unfold Watched.passing
  cases ran : parse account with
  | error stop after =>
      rw [ran] at takes
      exact takes
  | ok value after =>
      rw [ran] at takes
      obtain ⟨⟨ahead, spans⟩, more⟩ := takes
      refine ⟨⟨ahead, ?_⟩, more⟩
      intro span member
      rcases List.mem_append.mp member with member | member
      · exact spans span member
      · rw [List.mem_singleton.mp member]
        exact ⟨more, Nat.le_refl _⟩

variable (accurate : account.IsAccurate source)

include accurate

theorem keeps_pure {value : α} (made : good value account) :
    Keeps source (pure value) account good :=
  ⟨accurate, made⟩

theorem keeps_throw {stop : Stop} : Keeps source (throw stop) account good :=
  accurate

/-- A parse that stays where it is leaves the account as it is. -/
theorem keeps_watch {parse : Parse α}
    (still : ∀ value after, parse.run account.here = .ok (value, after) → after = account.here) :
    Keeps source (watch parse) account fun _ after => after = account := by
  unfold Keeps watch
  cases ran : parse.run account.here with
  | error stop => exact accurate
  | ok result =>
      obtain ⟨value, after⟩ := result
      obtain rfl := still value after ran
      exact ⟨accurate, rfl⟩

theorem keeps_unexpected {expected : Option TokenKind} :
    Keeps source (watch (unexpected expected)) account good :=
  accurate

theorem keeps_statement (row : List Atom) :
    Keeps source (watch (statement row)) account fun _ after => after = account := by
  refine keeps_watch accurate fun value after ran => ?_
  rcases row with _ | ⟨form, _ | ⟨second, others⟩⟩ <;> (cases ran; rfl)

theorem keeps_swap (row : List Atom) :
    Keeps source (watch (swap row)) account fun _ after => after = account := by
  refine keeps_watch accurate fun value after ran => ?_
  rcases row with _ | ⟨first, _ | ⟨second, others⟩⟩ <;> cases ran
  rfl

/-- Anything but the end of the text may be taken. -/
theorem takesSome_advance (notEnd : account.here.current.kind ≠ .endOfInput) :
    TakesSome source Watched.advance account := by
  obtain ⟨rest, faces, whole⟩ := accurate.ahead
  have does : Does advance account.here
      (fun _ after => ∃ others, rest = after.current :: others ∧ after.Faces source others)
      (fun _ => False) :=
    does_advance faces notEnd fun after others split faces => ⟨others, split, faces⟩
  unfold Does at does
  unfold TakesSome Keeps Watched.advance watch
  cases ran : advance.run account.here with
  | error stop =>
      rw [ran] at does
      exact does.elim
  | ok advanced =>
      rw [ran] at does
      obtain ⟨others, split, later⟩ := does
      refine ⟨⟨⟨others, later, ?_⟩, ?_⟩, ?_⟩
      · rw [whole, split, List.append_assoc]
        rfl
      · intro span member
        have earlier := accurate.spans span member
        simp only [List.length_append, List.length_singleton]
        omega
      · simp

theorem takesSome_eat {kind : TokenKind} (notEnd : kind ≠ .endOfInput) :
    TakesSome source (Watched.eat kind) account := by
  rw [TakesSome, Watched.eat, keeps_peek_bind]
  split
  next found => exact takesSome_advance accurate (found ▸ notEnd)
  next => exact keeps_unexpected accurate

theorem keeps_skip {kind : TokenKind} (notEnd : kind ≠ .endOfInput) :
    Keeps source (Watched.skip kind) account fun _ after =>
      if account.here.current.kind = kind then account.taken.length < after.taken.length
      else after = account := by
  rw [Watched.skip, keeps_peek_bind]
  split
  next found =>
    refine (takesSome_advance accurate (found ▸ notEnd)).bind fun _ after accurate more => ?_
    exact keeps_pure accurate more
  next => exact keeps_pure accurate rfl

/-- The end of a block is taken, unless it is the end of the text. -/
theorem keeps_close (ending : TokenKind) :
    Keeps source (Watched.close ending) account fun _ after =>
      if ending = .endOfInput then after = account
      else account.taken.length < after.taken.length := by
  rw [Watched.close]
  split
  next => exact keeps_pure accurate rfl
  next inner =>
    refine (takesSome_eat accurate inner).bind fun _ after accurate more => ?_
    exact keeps_pure accurate more

theorem takesSome_number : TakesSome source Watched.number account := by
  refine (takesSome_eat accurate (by decide)).bind fun token after accurate more => ?_
  cases Nesting.integer? token.text with
  | some value => exact keeps_pure accurate more
  | none => exact keeps_throw accurate

end Steps

section Forms

variable {source : String} {form : Watched Atom} {account : Account}
  (takes : ∀ account, account.IsAccurate source → TakesSome source form account)
  (accurate : account.IsAccurate source)

include takes accurate

/-- The forms of a statement end at the end of the block or at a semicolon, and some token has been
    taken unless that is where they began. -/
theorem keeps_forms (ending : TokenKind) (turns : Nat) (before : List Atom) :
    Keeps source (Watched.forms form ending turns before) account fun _ after =>
      (after = account ∨ account.taken.length < after.taken.length) ∧
        (after.here.current.kind = ending ∨ after.here.current.kind = .semicolon) := by
  induction turns generalizing account before with
  | zero => exact keeps_throw accurate
  | succ turns ih =>
      rw [Watched.forms, keeps_peek_bind]
      split
      next found => exact keeps_pure accurate ⟨.inl rfl, found⟩
      next =>
        split
        next => exact keeps_throw accurate
        next =>
          refine ((takes account accurate).passing .member).bind ?_
          intro atom after accurate more
          refine (ih accurate _).imp ?_
          rintro row last ⟨progress, kind⟩
          refine ⟨.inr ?_, kind⟩
          obtain rfl | further := progress
          · exact more
          · omega

/-- A turn of the statements takes some token: if the statement has no forms, its semicolon. -/
theorem takesSome_row {ending : TokenKind} (bound : Nat)
    (notClosing : account.here.current.kind ≠ ending) :
    TakesSome source (Watched.row form ending bound) account := by
  refine (keeps_forms takes accurate ending bound []).bind ?_
  rintro made middle accurate ⟨progress, kind⟩
  refine (keeps_skip accurate (by decide)).bind fun _ last accurate skipped => ?_
  have more : account.taken.length < last.taken.length := by
    split at skipped
    next =>
      obtain rfl | more := progress
      · exact skipped
      · omega
    next notSemicolon =>
      obtain rfl := skipped
      obtain rfl | more := progress
      · exact absurd (kind.resolve_right notSemicolon) notClosing
      · exact more
  refine (keeps_statement accurate made).imp ?_
  rintro atom _ rfl
  exact more

theorem keeps_statements (ending : TokenKind) (bound turns : Nat) (before : List Atom) :
    Keeps source (Watched.statements form ending bound turns before) account fun _ after =>
      account.taken.length ≤ after.taken.length ∧ after.here.current.kind = ending := by
  induction turns generalizing account before with
  | zero => exact keeps_throw accurate
  | succ turns ih =>
      rw [Watched.statements, keeps_peek_bind]
      split
      next found => exact keeps_pure accurate ⟨Nat.le_refl _, found⟩
      next notClosing =>
        refine ((takesSome_row takes accurate bound notClosing).passing .statement).bind ?_
        intro atom after accurate more
        refine (ih accurate _).imp ?_
        rintro row last ⟨further, kind⟩
        exact ⟨by omega, kind⟩

/-- The end of the text is looked at after the block that it ends. -/
theorem keeps_block (ending : TokenKind) (turns : Nat) :
    Keeps source (Watched.block form ending turns) account fun _ after =>
      account.taken.length ≤ after.taken.length ∧
        (ending = .endOfInput → after.here.current.kind = .endOfInput) := by
  refine (keeps_statements takes accurate ending turns turns _).bind ?_
  rintro items middle accurate ⟨further, kind⟩
  refine (keeps_close accurate ending).bind fun _ last accurate closed => ?_
  refine keeps_pure accurate ?_
  split at closed
  next isEnd =>
    obtain rfl := closed
    exact ⟨further, fun _ => kind.trans isEnd⟩
  next inner => exact ⟨by omega, fun isEnd => absurd isEnd inner⟩

theorem keeps_items (turns : Nat) (before : List Atom) :
    Keeps source (Watched.items form turns before) account fun _ after =>
      account.taken.length ≤ after.taken.length ∧ after.here.current.kind = .rightParen := by
  induction turns generalizing account before with
  | zero => exact keeps_throw accurate
  | succ turns ih =>
      rw [Watched.items, keeps_peek_bind]
      split
      next found => exact keeps_pure accurate ⟨Nat.le_refl _, found⟩
      next => exact keeps_throw accurate
      next =>
        refine ((takes account accurate).passing .item).bind ?_
        intro atom after accurate more
        refine (ih accurate _).imp ?_
        rintro row last ⟨further, kind⟩
        exact ⟨by omega, kind⟩

theorem takesSome_list (turns : Nat) : TakesSome source (Watched.list form turns) account := by
  refine (takesSome_eat accurate (by decide)).bind fun opening inside accurate more => ?_
  refine (keeps_items takes accurate turns []).bind ?_
  rintro row closing accurate ⟨further, kind⟩
  refine (takesSome_advance accurate (by simp [kind])).bind fun _ after accurate last => ?_
  exact keeps_pure accurate (by omega)

theorem keeps_operands (opened missing : Nat) (before : List Atom) :
    Keeps source (Watched.operands form opened missing before) account
      fun _ after => account.taken.length ≤ after.taken.length := by
  induction missing generalizing account before with
  | zero => exact keeps_pure accurate (Nat.le_refl _)
  | succ missing ih =>
      rw [Watched.operands, keeps_peek_bind]
      split
      next => exact keeps_throw accurate
      next => exact keeps_throw accurate
      next =>
        refine ((takes account accurate).passing .operand).bind ?_
        intro atom after accurate more
        exact (ih accurate _).imp fun _ last further => by omega

theorem takesSome_bracket : TakesSome source (Watched.bracket form) account := by
  refine (takesSome_eat accurate (by decide)).bind fun opening inside accurate more => ?_
  refine (keeps_operands takes accurate opening.offset 3 []).bind ?_
  intro row closing accurate further
  rw [keeps_peek_bind]
  split
  next kind =>
    refine (takesSome_advance accurate (by simp [kind])).bind fun _ after accurate last => ?_
    refine (keeps_swap accurate row).bind ?_
    rintro _ _ accurate rfl
    exact keeps_pure accurate (by omega)
  next => exact keeps_throw accurate
  next => exact keeps_throw accurate

theorem takesSome_quotation (notEnd : account.here.current.kind ≠ .endOfInput) :
    TakesSome source (Watched.quotation form) account := by
  refine (takesSome_advance accurate notEnd).bind fun mark inside accurate more => ?_
  rw [keeps_peek_bind]
  split
  next => exact keeps_throw accurate
  next =>
    refine (takes inside accurate).bind fun atom after accurate further => ?_
    exact keeps_pure accurate (by omega)

theorem takesSome_formWith (turns : Nat) :
    TakesSome source (Watched.formWith form turns) account := by
  rw [TakesSome, Watched.formWith, keeps_peek_bind]
  split
  next => exact takesSome_list takes accurate turns
  next kind => exact takesSome_quotation takes accurate (by simp [kind])
  next => exact takesSome_bracket takes accurate
  next kind =>
    refine (takesSome_advance accurate (by simp [kind])).bind fun _ inside accurate more => ?_
    refine (keeps_block takes accurate .rightBrace turns).imp ?_
    rintro atom after ⟨further, _⟩
    omega
  next kind =>
    refine (takesSome_advance accurate (by simp [kind])).bind fun token after accurate more => ?_
    exact keeps_pure accurate more
  next => exact takesSome_number accurate
  next => exact keeps_unexpected accurate

omit takes in
theorem takesSome_readForm (turns : Nat) :
    TakesSome source (Watched.readForm turns) account := by
  induction turns generalizing account with
  | zero => exact keeps_throw accurate
  | succ turns ih =>
      exact (takesSome_formWith (fun _ => ih) accurate turns).passing .form

end Forms

namespace Account

variable {source : String} {account : Account}

theorem isAccurate_start (source : String) : (start source).IsAccurate source where
  ahead := by
    have begins : (Scanner.ofSource source).StandsIn source := ⟨[], rfl, rfl⟩
    obtain ⟨rest, whole, faces⟩ := faces_nextToken begins
    exact ⟨rest, faces, whole⟩
  spans := by simp [start]

/-- No token is taken twice, nor the end of the text. -/
theorem IsAccurate.taken_isPrefix (accurate : account.IsAccurate source) :
    account.taken <+: innerTokens source := by
  obtain ⟨rest, _, whole⟩ := accurate.ahead
  have split := tokens_eq_innerTokens source
  have lengths := congrArg List.length (whole.symm.trans split)
  have taken : account.taken <+: tokens source := whole ▸ List.prefix_append _ _
  have inner : innerTokens source <+: tokens source := split ▸ List.prefix_append _ _
  refine List.prefix_of_prefix_length_le taken inner ?_
  simp only [List.length_append, List.length_cons, List.length_nil] at lengths
  omega

theorem IsAccurate.taken_eq (accurate : account.IsAccurate source)
    (isEnd : account.here.current.kind = .endOfInput) : account.taken = innerTokens source := by
  obtain ⟨rest, faces, whole⟩ := accurate.ahead
  rw [faces.rest_eq_nil isEnd, tokens_eq_innerTokens] at whole
  exact (List.append_inj' whole rfl).1.symm

end Account

/-- Of a program that is read all tokens have been taken, and of any text only those at its front. -/
theorem isAccurate_read (turns : Nat) (source : String) :
    (Watched.read turns source).2.IsAccurate source ∧
      ∀ program, (Watched.read turns source).1 = .ok program →
        (Watched.read turns source).2.taken = innerTokens source := by
  have begins := Account.isAccurate_start source
  have keeps := keeps_block (fun _ => (takesSome_readForm · turns)) begins .endOfInput turns
  unfold Keeps at keeps
  unfold Watched.read
  split
  next ran =>
    rw [ran] at keeps
    obtain ⟨accurate, _, kind⟩ := keeps
    exact ⟨accurate, fun _ _ => accurate.taken_eq (kind rfl)⟩
  next ran =>
    rw [ran] at keeps
    exact ⟨keeps, nofun⟩

/-- **Reading ends, and takes each token once.** However many steps are allowed, the tokens that the
    descent takes are those of the text, in order, each once, and never its end; and if there is a
    program, all of them have been taken. Wherever a form is read some token is taken, and so it is
    in each turn of a row; in particular in all forms and turns that the descent has passed. With as
    many steps as the text has tokens the descent ends by itself, and gives what reading gives. -/
theorem each_token_is_taken_once (source : String) (turns : Nat) :
    (∀ account, account.IsAccurate source →
      TakesSome source (Watched.readForm turns) account ∧
        ∀ ending bound, account.here.current.kind ≠ ending →
          TakesSome source (Watched.row (Watched.readForm turns) ending bound) account) ∧
      ∃ result account, Watched.read turns source = (result, account) ∧
        account.taken <+: innerTokens source ∧
        account.taken.length ≤ (innerTokens source).length ∧
        (∀ token ∈ account.taken, token.kind ≠ .endOfInput) ∧
        (∀ span ∈ account.spans,
          span.start < span.stop ∧ span.stop ≤ account.taken.length) ∧
        (∀ program, result = .ok program → account.taken = innerTokens source) ∧
        ((tokens source).length ≤ turns →
          result = (Homoiconic.read source).mapError .failed) := by
  obtain ⟨accurate, complete⟩ := isAccurate_read turns source
  have taken := accurate.taken_isPrefix
  constructor
  · intro account accurate
    refine ⟨takesSome_readForm accurate turns, ?_⟩
    intro ending bound notClosing
    exact takesSome_row (fun _ => (takesSome_readForm · turns)) accurate bound notClosing
  · refine ⟨(Watched.read turns source).1, (Watched.read turns source).2, rfl, taken,
      taken.length_le, ?_, accurate.spans, complete, ?_⟩
    · intro token member
      exact (spells_innerTokens source).kind_ne token (taken.subset member)
    · intro enough
      exact (Watched.fst_read turns source).trans (read_eq source enough)

/-- In a statement without forms, the semicolon is taken. -/
theorem each_token_is_taken_once_without_forms :
    TakesSome ";\x7bx\x7d" (Watched.row (Watched.readForm 5) .endOfInput 5)
        (.start ";\x7bx\x7d") ∧
      ∃ program account, Watched.read 5 ";\x7bx\x7d" = (.ok program, account) ∧
        account.taken.map Token.text = [";", "\x7b", "x", "\x7d"] := by
  obtain ⟨turn, result, account, watched, _, _, _, _, complete, ends⟩ :=
    each_token_is_taken_once ";\x7bx\x7d" 5
  have program : Homoiconic.read ";\x7bx\x7d" = .ok (.list [.symbol "do", .quoted (.list []),
      .quoted (.list [.symbol "do", .quoted (.symbol "x")])]) := by
    decide +kernel
  have ended : result = .ok _ := (ends (by decide +kernel)).trans (by rw [program]; rfl)
  constructor
  · exact (turn _ (Account.isAccurate_start _)).2 .endOfInput 5 (by decide +kernel)
  · refine ⟨_, account, watched.trans (by rw [ended]), ?_⟩
    rw [complete _ ended]
    decide +kernel

/-- What is passed on the way through a text that fails: a form, which is the first statement, and
    a form in a parenthesis that does not end. -/
example : (Watched.read 6 "x;(y").2.spans =
    [⟨.form, 0, 1⟩, ⟨.member, 0, 1⟩, ⟨.statement, 0, 2⟩, ⟨.form, 3, 4⟩, ⟨.item, 3, 4⟩] := by
  decide +kernel

end Homoiconic.Descent
