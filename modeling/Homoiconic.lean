import Homoiconic.Atom.Source
import Homoiconic.Evaluation.Bound
import Homoiconic.Main
import Homoiconic.Reading.Grammar
import Homoiconic.Proofs.Token.Spelling
import Homoiconic.Proofs.Token.Pattern
import Homoiconic.Proofs.Token.Position
import Homoiconic.Proofs.Token.Concatenation
import Homoiconic.Proofs.Token.Growth
import Homoiconic.Proofs.Token.Queries
import Homoiconic.Proofs.Reading.Taking
import Homoiconic.Proofs.Reading.Completeness
import Homoiconic.Proofs.Reading.Soundness
import Homoiconic.Proofs.Reading.Concatenation
import Homoiconic.Proofs.Reading.Closure
import Homoiconic.Proofs.Reading.Readable
import Homoiconic.Proofs.Reading.Printed
import Homoiconic.Proofs.Reading.Unambiguous
import Homoiconic.Proofs.Reading.Continuation
import Homoiconic.Proofs.Reading.Descent
import Homoiconic.Proofs.Reading.Consumption
import Homoiconic.Proofs.Reading.Elsewhere
import Homoiconic.Proofs.Reading.Layout
import Homoiconic.Proofs.Reading.Sequel
import Homoiconic.Proofs.Reading.Culprit
import Homoiconic.Proofs.Evaluation.Unseen
import Homoiconic.Proofs.Evaluation.SavedStack
import Homoiconic.Proofs.Evaluation.StorePassing
import Homoiconic.Proofs.Evaluation.Progress
import Homoiconic.Proofs.Evaluation.Printed
import Homoiconic.Proofs.Evaluation.Room
import Homoiconic.Proofs.Evaluation.Assignments
import Homoiconic.Proofs.Evaluation.Program
import Homoiconic.Proofs.Evaluation.Unwinding
import Homoiconic.Proofs.Evaluation.Correspondence
import Homoiconic.Proofs.Evaluation.Simulation
import Homoiconic.Proofs.Evaluation.Points
import Homoiconic.Proofs.Evaluation.Provenance
import Homoiconic.Proofs.Evaluation.Interference
import Homoiconic.Proofs.Evaluation.Renaming
import Homoiconic.Proofs.Evaluation.Calls
import Homoiconic.Proofs.Evaluation.Operands
import Homoiconic.Proofs.Evaluation.Division
import Homoiconic.Proofs.Evaluation.Wrapping
import Homoiconic.Proofs.Evaluation.Loop
import Homoiconic.Proofs.Evaluation.Counting
import Homoiconic.Proofs.Evaluation.Upkeep
import Homoiconic.Proofs.Evaluation.Identity
import Homoiconic.Proofs.Evaluation.Indexed
import Homoiconic.Proofs.Session.AllOrNothing
import Homoiconic.Proofs.Session.Room
import Homoiconic.Proofs.Session.Assignments
import Homoiconic.Proofs.Session.Unwinding
import Homoiconic.Proofs.Session.Program
import Homoiconic.Proofs.Session.Concatenation
import Homoiconic.Proofs.Session.Provenance
import Homoiconic.Proofs.Session.BeyondRepair
import Homoiconic.Proofs.Session.Identity
import Homoiconic.Proofs.Session.Safety
import Homoiconic.Proofs.Environment.Commands
import Homoiconic.Proofs.Environment.History
import Homoiconic.Proofs.Environment.ByteOrder
import Homoiconic.Proofs.Environment.Listing
import Homoiconic.Proofs.Evaluation.Flattening
import Homoiconic.Proofs.Reading.Braces
import Homoiconic.Proofs.Session.Flattening
import Homoiconic.Proofs.Evaluation.SinglePass
import Homoiconic.Proofs.Console.Blank
import Homoiconic.Proofs.Console.Transcript
