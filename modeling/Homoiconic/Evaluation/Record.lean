import Homoiconic.Evaluation.Error
import Homoiconic.Reading.Block

/-! # The log

A record says what the interpreter did. Records are kept as data; their wording is made up only when
somebody asks for it.
-/

namespace Homoiconic

inductive Level where
  | trace
  | debug
  | warn
  deriving Repr, DecidableEq

inductive Record where
  /-- A statement of several forms was read. -/
  | juxtaposed (remark : Juxtaposition)
  | readProgram (program : Atom)
  | evaluating (code : Atom)
  | called (builtin : Builtin) (args : List Atom)
  | resulted (builtin : Builtin) (value : Value)
  | failed (builtin : Builtin) (error : EvalError)
  | entered (closure : Closure) (args : List Atom)
  | expanded (code : Atom)
  | assigned (name : String) (value : Value)
  /-- A run ended with an error and left no trace in the environment. -/
  | rolledBack (error : EvalError)
  deriving Repr, DecidableEq

namespace Record

def level : Record → Level
  | .juxtaposed _ => .warn
  | .assigned .. | .rolledBack _ => .debug
  | _ => .trace

/-- Arguments as code: each on a line of its own if there are several. -/
def describeArgs : List Atom → String
  | [] => "no args"
  | [arg] => arg.text
  | args => "\n\t" ++ "\n\t".intercalate (args.map Atom.text)

def text : Record → String
  | .juxtaposed remark =>
      s!"statement at {remark.offset} juxtaposes {remark.forms} forms without a separator; " ++
        "evaluating them as one call"
  | .readProgram program => "read program " ++ program.text
  | .evaluating code => "eval " ++ code.text
  | .called builtin args => "Call " ++ builtin.name ++ " with " ++ describeArgs args
  | .resulted builtin value => "Call to " ++ builtin.name ++ " resulted in " ++ value.text
  | .failed builtin error => "Call to " ++ builtin.name ++ " failed: " ++ error.message
  | .entered closure args =>
      match closure.kind with
      | .lambda => "Call " ++ closure.text ++ " with " ++ describeArgs args
      | .expander => "Expand " ++ closure.text ++ " with " ++ describeArgs args
  | .expanded code => "macro expanded to " ++ code.text
  | .assigned name value => "set " ++ name ++ " to " ++ value.text
  | .rolledBack error => "rolled back after error: " ++ error.message

end Record

end Homoiconic
