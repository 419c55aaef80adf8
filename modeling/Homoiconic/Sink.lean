/-! # Sinks

Where printed text goes. A sink may have room for a limited number of bytes: it keeps what fits of a
write, and the write fails if something is left over. Flushing may fail as well. Besides, a request
may fail for reasons of the sink's own, which may depend on all that it was asked for before, and a
write that fails like that may have kept any part of the text. What has been written is never taken
back.
-/

namespace Homoiconic

inductive SinkError where
  /-- There was no room for all of a text. -/
  | full
  | notFlushed
  /-- Something else, which the sink describes. -/
  | other (description : String)
  deriving Repr, DecidableEq

def SinkError.message : SinkError → String
  | .full => "sink full"
  | .notFlushed => "flush failed"
  | .other description => description

/-- What a sink is asked for. -/
inductive Sink.Request where
  | write (bytes : ByteArray)
  | flush

/-- How a request fails for a reason of the sink's own. -/
structure Sink.Failure where
  /-- The number of bytes, of those to be written, that are kept in spite of it. -/
  kept : Nat := 0
  description : String

structure Sink where
  written : ByteArray := .empty
  /-- The number of bytes for which there is room left, if there is a limit. -/
  room : Option Nat := none
  flushFails : Bool := false
  /-- How the last of the requests that are made from now on fails, if it does. -/
  trouble : List Sink.Request → Option Sink.Failure := fun _ => none

namespace Sink

/-- The sink once a request has been made, which counts for what becomes of later ones. -/
def asked (sink : Sink) (request : Request) : Sink :=
  { sink with trouble := fun later => sink.trouble (request :: later) }

/-- Whether there is room for all of these bytes. -/
def fits (sink : Sink) (bytes : ByteArray) : Bool :=
  sink.room.all (bytes.size ≤ ·)

/-- Keep these bytes, or as many of them as there is room for. -/
def keep (sink : Sink) (bytes : ByteArray) : Sink :=
  match sink.room with
  | none => { sink with written := sink.written ++ bytes }
  | some room =>
      { sink with
        written := sink.written ++ bytes.extract 0 room
        room := some (room - bytes.size) }

/-- Write bytes: all of them, or as many as there is room for and then an error, or as many as are
    kept before the sink fails otherwise. -/
def writeBytes (sink : Sink) (bytes : ByteArray) : Except SinkError Unit × Sink :=
  let after := sink.asked (.write bytes)
  match sink.trouble [.write bytes] with
  | none => (if sink.fits bytes then .ok () else .error .full, after.keep bytes)
  | some failure =>
      (.error (.other failure.description), after.keep (bytes.extract 0 failure.kept))

def write (sink : Sink) (text : String) : Except SinkError Unit × Sink :=
  sink.writeBytes text.toUTF8

def flush (sink : Sink) : Except SinkError Unit × Sink :=
  let after := sink.asked .flush
  match sink.trouble [.flush] with
  | none => (if sink.flushFails then .error .notFlushed else .ok (), after)
  | some failure => (.error (.other failure.description), after)

end Sink

end Homoiconic
