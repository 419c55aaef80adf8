import Homoiconic.Atom.Basic
import Homoiconic.Token.Scanner

/-! # The grammar of programs

The rules that say which tokens make up a program and which atom that is, stated apart from the
reader. Each rule takes tokens off the front of a row and leaves the others; offsets play no part.
-/

namespace Homoiconic.Grammar

/-- What some forms make as a statement. Statements are quoted. -/
inductive Statement : List Atom → Atom → Prop where
  /-- A single form is itself the statement. -/
  | single {form : Atom} : Statement [form] (.quoted form)
  /-- Any other number of forms makes a list. -/
  | call {forms : List Atom} : forms.length ≠ 1 → Statement forms (.quoted (.list forms))

mutual
/-- A form stands at the front of some tokens, and the last argument is the tokens after it. -/
inductive Form : List Token → Atom → List Token → Prop where
  /-- A name stands for itself. -/
  | symbol {token : Token} {rest : List Token} :
      token.kind = .symbol → Form (token :: rest) (.symbol token.text) rest
  /-- Digits stand for a number of less than 64 bits. -/
  | number {token : Token} {rest : List Token} {value : Nat} :
      token.kind = .number → Nat.ofDigitChars 10 token.text.toList 0 = value → value < 1 <<< 63 →
      Form (token :: rest) (.number (.ofNat value)) rest
  /-- Forms in parentheses make a list. -/
  | list {opening closing : Token} {inside rest : List Token} {items : List Atom} :
      opening.kind = .leftParen → Forms inside items (closing :: rest) →
      closing.kind = .rightParen → Form (opening :: inside) (.list items) rest
  /-- A quote mark quotes the form after it. -/
  | quoted {mark : Token} {after rest : List Token} {inner : Atom} :
      mark.kind = .quoteMark → Form after inner rest → Form (mark :: after) (.quoted inner) rest
  /-- Three forms in square brackets make a call of the one in the middle. -/
  | bracket {opening closing : Token} {inside second third rest : List Token}
      {left operator right : Atom} :
      opening.kind = .leftBracket → Form inside left second → Form second operator third →
      Form third right (closing :: rest) → closing.kind = .rightBracket →
      Form (opening :: inside) (.list [operator, left, right]) rest
  /-- Statements in braces make a call of `do`. -/
  | brace {opening closing : Token} {inside rest : List Token} {statements : List Atom} :
      opening.kind = .leftBrace → Statements inside statements (closing :: rest) →
      closing.kind = .rightBrace →
      Form (opening :: inside) (.list (.symbol "do" :: statements)) rest

inductive Forms : List Token → List Atom → List Token → Prop where
  | nil {rest : List Token} : Forms rest [] rest
  | cons {first after rest : List Token} {item : Atom} {items : List Atom} :
      Form first item after → Forms after items rest → Forms first (item :: items) rest

inductive Statements : List Token → List Atom → List Token → Prop where
  | nil {rest : List Token} : Statements rest [] rest
  /-- A last statement, which has forms. -/
  | last {first rest : List Token} {forms : List Atom} {statement : Atom} :
      Forms first forms rest → forms ≠ [] → Statement forms statement →
      Statements first [statement] rest
  /-- A statement, with or without forms, and others after its semicolon. -/
  | more {semicolon : Token} {first after rest : List Token} {forms others : List Atom}
      {statement : Atom} :
      Forms first forms (semicolon :: after) → semicolon.kind = .semicolon →
      Statement forms statement → Statements after others rest →
      Statements first (statement :: others) rest
end

/-- A text is a program: its tokens up to the end are statements. -/
inductive Program : String → Atom → Prop where
  /-- The statements of the text, as a call of `do`. -/
  | mk {source : String} {statements : List Atom} {last : Token} :
      Statements (tokens source) statements [last] → last.kind = .endOfInput →
      Program source (.list (.symbol "do" :: statements))

end Homoiconic.Grammar
