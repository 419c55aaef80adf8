import Homoiconic.Session

/-! # Running a whole file

A file, or the standard input, holds one program. Its value is of no interest, only what it prints
and whether it fails.
-/

namespace Homoiconic

inductive InputError where
  | missing
  | directory
  /-- The file does not hold text in UTF-8. -/
  | notText
  /-- Something else, which the system describes. -/
  | other (description : String)
  deriving Repr, DecidableEq

def InputError.message : InputError → String
  | .missing => "No such file or directory (os error 2)"
  | .directory => "Is a directory (os error 21)"
  | .notText => "stream did not contain valid UTF-8"
  | .other description => description

inductive LaunchError where
  | input (cause : InputError)
  | run (cause : RunError)
  deriving Repr, DecidableEq

def LaunchError.message : LaunchError → String
  | .input cause => "io error: " ++ cause.message
  | .run cause => cause.message

namespace Launch

def runSource (bound : Nat) (source : String) : Action LaunchError Unit :=
  fun context =>
    match Session.run bound source context with
    | .returned _ after => .returned () after
    | .failed cause after => .failed (.run cause) after
    | .unfinished => .unfinished

/-- Run what a file holds. Nothing is run if that is not text. -/
def runBytes (bound : Nat) (bytes : ByteArray) : Action LaunchError Unit :=
  match String.fromUTF8? bytes with
  | some source => runSource bound source
  | none => .fail (.input .notText)

def runInput (bound : Nat) : Except InputError ByteArray → Action LaunchError Unit
  | .ok bytes => runBytes bound bytes
  | .error cause => .fail (.input cause)

/-- What a finished launch leaves behind. -/
structure Exit where
  /-- Nonzero after a failure. -/
  code : UInt32
  printed : ByteArray
  /-- The complaint about a failure. -/
  complaint : String

/-- The end of a launch, if it has ended. -/
def exit? : Outcome LaunchError Unit → Option Exit
  | .returned () after => some ⟨0, after.sink.written, ""⟩
  | .failed error after => some ⟨1, after.sink.written, error.message ++ "\n"⟩
  | .unfinished => none

end Launch

end Homoiconic
