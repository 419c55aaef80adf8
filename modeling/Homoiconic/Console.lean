import Homoiconic.Session
import Homoiconic.WhiteSpace

/-! # The console

At the console a program is typed line by line. Every line that is not blank is run at once and
answered on the next row: with the text of its value, with nothing if the value is nil, or with an
error, in red if the standard output is a terminal. The lines that were run make up the history, in
which no line follows itself. So it goes on until the input ends or cannot be read.
-/

namespace Homoiconic

/-- What the console has to know about the standard output. -/
structure StandardOutput where
  isTerminal : Bool := false
  /-- A text together with what makes a terminal show it in red. -/
  red : String → String := fun text => "\x1b[31m" ++ text ++ "\x1b[0m"

structure Console where
  context : Context
  output : StandardOutput := {}
  /-- The rows written so far, the latest first. -/
  rows : List String := []
  /-- The lines run so far, the latest first. -/
  history : List String := []

/-- What the console gets when it waits for a line. -/
inductive Console.Input where
  | line (text : String)
  /-- A signal, known by its name, broke in. -/
  | signal (name : String)
  | endOfInput
  /-- The input cannot be read, for a reason that the system describes. -/
  | failure (description : String)

namespace Console

/-- Whether the console waits for nothing after this. -/
def Input.isLast : Input → Bool
  | .line _ | .signal _ => false
  | .endOfInput | .failure _ => true

/-- What stands before a line that is typed. -/
def prompt : String :=
  ">>> "

def remember (line : String) : List String → List String
  | [] => [line]
  | last :: older => if line = last then last :: older else line :: last :: older

def complaint (output : StandardOutput) (error : RunError) : String :=
  let message := "error: " ++ error.message
  if output.isTerminal then output.red message else message

/-- Run a line: the row that answers it, if there is one, and the context after it. There is no
    answer at all if the line does not end within the bound. -/
def answer (bound : Nat) (output : StandardOutput) (line : String) (context : Context) :
    Option (Option String × Context) :=
  match Session.rep bound line context with
  | .returned shown after => some (shown, after)
  | .failed error after => some (some (complaint output error), after)
  | .unfinished => none

def enter (bound : Nat) (console : Console) (line : String) : Option Console :=
  let rows := (prompt ++ line) :: console.rows
  if WhiteSpace.isBlankText line then some { console with rows }
  else
    (answer bound console.output line console.context).map fun (shown, context) =>
      { console with
        context
        rows := shown.toList ++ rows
        history := remember line console.history }

/-- What is done about an input. A signal is reported, and so is a failure. -/
def respond (bound : Nat) (console : Console) : Input → Option Console
  | .line text => enter bound console text
  | .signal name => some { console with rows := ("Received signal " ++ name) :: console.rows }
  | .endOfInput => some console
  | .failure description => some { console with rows := ("Error: " ++ description) :: console.rows }

/-- Respond to one input after the other, up to one that is the last. -/
def converse (bound : Nat) (console : Console) : List Input → Option Console
  | [] => some console
  | input :: inputs => do
      let next ← respond bound console input
      if input.isLast then return next else converse bound next inputs

/-- Enter the lines, after which the input ends. -/
def enterAll (bound : Nat) (console : Console) (lines : List String) : Option Console :=
  converse bound console (lines.map .line ++ [.endOfInput])

/-- A row without the spaces at its end. -/
def trimRow (row : String) : String :=
  .ofList (row.toList.reverse.dropWhile (· == ' ')).reverse

/-- The screen while the console waits for a line, if every character of a row takes its place on
    it: all rows without the spaces at their ends, and without empty rows at the end. -/
def screen (console : Console) : List String :=
  (((prompt :: console.rows).map trimRow).dropWhile (· == "")).reverse

/-- The history as a text, a line for each entry. -/
def savedHistory (console : Console) : String :=
  String.join (console.history.reverse.map (· ++ "\n"))

end Console

end Homoiconic
