import Homoiconic.Console
import Homoiconic.Launch

/-! # The command line

With an argument, the program in that file is run; without one, the program on the standard input
or, at a terminal, the lines that are typed there.
-/

namespace Homoiconic.Main

def readFile (path : String) : IO (Except InputError ByteArray) := do
  try
    return .ok (← IO.FS.readBinFile path)
  catch
    | .noFileOrDirectory .. => return .error .missing
    | .inappropriateType .. => return .error .directory
    | e => return .error (.other (toString e))

/-- Run a program, show what it printed, and complain if it failed. -/
def launch (input : Except InputError ByteArray) : IO UInt32 := do
  match Launch.exit? (Launch.runInput Session.ample input (Session.start {})) with
  | some exit =>
      (← IO.getStdout).write exit.printed
      (← IO.getStderr).putStr exit.complaint
      return exit.code
  | none => return 1

/-- Wait for a line. -/
def await (input : IO.FS.Stream) : IO Console.Input := do
  try
    let line ← input.getLine
    if line.isEmpty then return .endOfInput
    return .line (if line.endsWith "\n" then (line.dropEnd 1).copy else line)
  catch e => return .failure (toString e)

/-- Answer the lines typed at a terminal until they end. -/
partial def converse (input output : IO.FS.Stream) (console : Console) : IO Unit := do
  output.putStr Console.prompt
  output.flush
  let next ← await input
  match Console.respond Session.ample { console with rows := [] } next with
  | some console =>
      output.write console.context.sink.written
      -- The terminal has shown the line itself while it was typed.
      let rows := if next matches .line _ then console.rows.dropLast else console.rows
      for row in rows.reverse do output.putStrLn row
      unless next.isLast do
        let context := { console.context with sink := {}, log := [] }
        converse input output { console with context }
  | none => return

end Homoiconic.Main

open Homoiconic.Main in
def main (args : List String) : IO UInt32 := do
  let input ← IO.getStdin
  match args with
  | path :: _ => launch (← readFile path)
  | [] =>
      if ← input.isTty then
        let output ← IO.getStdout
        converse input output
          { context := Homoiconic.Session.start {}, output := { isTerminal := ← output.isTty } }
        return 0
      else
        launch (.ok (← input.readBinToEnd))
