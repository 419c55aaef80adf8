import Homoiconic.Proofs.Token.Concatenation

/-! # The tokens of a text that goes on

Whatever a text goes on with, only its last token can change, and only if it is a number or a symbol
that stands at the very end. The token then grows at its end: it keeps its kind and its place, and a
number grows by digits only.
-/

namespace Homoiconic

/-- What has become of a token, the last of its text, when the text goes on with the characters
    `more`. -/
structure Token.GrowsTo (more : List Char) (token grown : Token) : Prop where
  kind : grown.kind = token.kind
  offset : grown.offset = token.offset
  text : ∃ added rest, more = added ++ rest ∧ grown.text = token.text ++ String.ofList added ∧
    (token.kind = .number → ∀ c ∈ added, c.isDigit) ∧
    (token.kind ≠ .number → token.kind ≠ .symbol → added = [])

theorem Token.GrowsTo.refl (more : List Char) (token : Token) : token.GrowsTo more token :=
  ⟨rfl, rfl, [], more, rfl, by simp, by simp, by simp⟩

namespace Lexeme

theorem Stands.text_ne_nil {kind : TokenKind} {text rest : List Char}
    (stands : Stands kind text rest) : text ≠ [] := by
  obtain ⟨c, tail, rfl, _⟩ := stands.eq_ofFirst
  simp

/-- Of the text after a token only the first character matters to it. -/
theorem Stands.before {kind : TokenKind} {text rest rest' : List Char}
    (stands : Stands kind text rest) (same : rest'.head? = rest.head?) :
    Stands kind text rest' := by
  cases stands with
  | punctuation mark => exact .punctuation mark
  | number nonempty digits boundary => exact .number nonempty digits (same ▸ boundary)
  | symbol name boundary => exact .symbol name (same ▸ boundary)

/-- A mark is a token by itself, whatever comes after it. -/
theorem Stands.of_mark {kind : TokenKind} {text rest : List Char} (stands : Stands kind text rest)
    (notNumber : kind ≠ .number) (notSymbol : kind ≠ .symbol) (rest' : List Char) :
    Stands kind text rest' := by
  cases stands with
  | punctuation mark => exact .punctuation mark
  | number => exact absurd rfl notNumber
  | symbol => exact absurd rfl notSymbol

theorem isSymbolName_append {name added : List Char} (isName : isSymbolName name)
    (continues : ∀ c ∈ added, continuesSymbol c) : isSymbolName (name ++ added) := by
  cases name with
  | nil => cases isName
  | cons c rest =>
      simp only [isSymbolName, Bool.and_eq_true, List.cons_append, List.all_append] at isName ⊢
      exact ⟨isName.1, isName.2, List.all_eq_true.mpr continues⟩

/-- A token at the end of a text takes from what comes next as much as it can. -/
theorem Stands.grow {kind : TokenKind} {text : List Char} (stands : Stands kind text [])
    (more : List Char) :
    ∃ added rest, more = added ++ rest ∧ Stands kind (text ++ added) rest ∧
      (kind = .number → ∀ c ∈ added, c.isDigit) ∧
      (kind ≠ .number → kind ≠ .symbol → added = []) := by
  cases stands with
  | punctuation mark =>
      refine ⟨[], more, rfl, ?_, by simp, by simp⟩
      rw [List.append_nil]
      exact .punctuation mark
  | number nonempty digits _ =>
      have taken : ∀ c ∈ more.takeWhile Char.isDigit, c.isDigit :=
        List.all_eq_true.mp List.all_takeWhile
      refine ⟨_, _, (List.takeWhile_append_dropWhile (p := Char.isDigit)).symm, ?_,
        fun _ => taken, by simp⟩
      refine .number (by simp [nonempty]) (List.forall_mem_append.mpr ⟨digits, taken⟩) ?_
      intro c first
      simp [head?_dropWhile _ first]
  | symbol name _ =>
      have taken : ∀ c ∈ more.takeWhile continuesSymbol, continuesSymbol c :=
        List.all_eq_true.mp List.all_takeWhile
      refine ⟨_, _, (List.takeWhile_append_dropWhile (p := continuesSymbol)).symm, ?_,
        by simp, by simp⟩
      refine .symbol (isSymbolName_append name taken) ?_
      intro c first
      exact (continuesSymbol_eq_false_iff c).mp (head?_dropWhile _ first)

end Lexeme

namespace Spells

theorem eq_nil_of_nil {offset : Nat} {spelled : List Token} (spells : Spells offset [] spelled) :
    spelled = [] := by
  generalize whole : ([] : List Char) = chars at spells
  cases spells with
  | blanks => rfl
  | token before stands rest =>
      have none := stands.text_ne_nil
      simp_all

/-- A text that goes on spells its tokens as before, but for the last one, and then others. -/
theorem goOn {offset : Nat} {chars : List Char} {spelled : List Token} {last : Token}
    (spells : Spells offset chars (spelled ++ [last])) (more : List Char) :
    ∃ grown others, last.GrowsTo more grown ∧
      Spells offset (chars ++ more) (spelled ++ grown :: others) := by
  generalize whole : spelled ++ [last] = tokens at spells
  induction spells generalizing spelled with
  | blanks => simp at whole
  | @token offset blanks text rest kind tokens before stands later ih =>
      cases spelled with
      | nil =>
          obtain ⟨rfl, rfl⟩ : last = _ ∧ [] = tokens := List.cons.inj whole
          cases rest with
          | nil =>
              obtain ⟨added, after, rfl, longer, digits, fixed⟩ := stands.grow more
              obtain ⟨others, next⟩ :=
                exists_spells (offset + byteLength (blanks ++ (text ++ added))) after
              have spells := Spells.token before longer next
              refine ⟨⟨kind, String.ofList (text ++ added), _⟩, others, ⟨rfl, rfl, ?_⟩,
                by simpa using spells⟩
              exact ⟨added, after, rfl, String.ofList_append, digits, fixed⟩
          | cons c rest =>
              -- Something stands after the token already, and that stays so.
              obtain ⟨others, next⟩ := exists_spells (offset + byteLength (blanks ++ text))
                (c :: rest ++ more)
              have same : (c :: rest ++ more).head? = (c :: rest).head? := rfl
              have spells := Spells.token before (stands.before same) next
              exact ⟨_, others, .refl more _, by simpa using spells⟩
      | cons first spelled =>
          obtain ⟨rfl, rfl⟩ : first = _ ∧ spelled ++ [last] = tokens := List.cons.inj whole
          obtain ⟨grown, others, grows, next⟩ := ih rfl
          have goesOn : (rest ++ more).head? = rest.head? := by
            cases rest with
            | nil => simpa using later.eq_nil_of_nil
            | cons c rest => rfl
          have spells := Spells.token before (stands.before goesOn) next
          exact ⟨grown, others, grows, by simpa using spells⟩

/-- A text without tokens, or with a mark as its last one, spells the same tokens before any other
    text. -/
theorem append_of_mark {offset : Nat} {first second : List Char} {spelled others : List Token}
    (spells : Spells offset first spelled)
    (mark : ∀ last ∈ spelled.getLast?, last.kind ≠ .number ∧ last.kind ≠ .symbol)
    (later : Spells (offset + byteLength first) second others) :
    Spells offset (first ++ second) (spelled ++ others) := by
  induction spells with
  | blanks blank => exact later.after_blanks blank
  | @token offset blanks text rest kind tokens before stands inside ih =>
      rw [byteLength_append, ← Nat.add_assoc] at later
      have stands : Lexeme.Stands kind text (rest ++ second) := by
        cases tokens with
        | nil =>
            obtain ⟨notNumber, notSymbol⟩ := mark _ rfl
            exact stands.of_mark notNumber notSymbol _
        | cons token tokens =>
            cases rest with
            | nil => cases inside.eq_nil_of_nil
            | cons c rest => exact stands.before rfl
      have marked : ∀ last ∈ tokens.getLast?, last.kind ≠ .number ∧ last.kind ≠ .symbol := by
        intro last isLast
        refine mark last ?_
        rw [List.getLast?_cons, Option.mem_def.mp isLast]
        rfl
      simpa using Spells.token before stands (ih marked later)

end Spells

end Homoiconic
