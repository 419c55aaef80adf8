import Homoiconic.Proofs.Evaluation.Indexed
import Homoiconic.Proofs.Evaluation.Operands
import Homoiconic.Proofs.Reading.Descent
import Homoiconic.Session

/-! # Safety

A program that scans a text by positions, descends into its forms, and takes the arguments of a call
by their positions relies on much that it does not check. It relies on nothing in vain: whatever the
text and whatever the context, scanning, reading and evaluation find everything where they take it
from.
-/

namespace Homoiconic

/-- The result of the operation on integers without bounds. -/
def Arithmetic.exact : Arithmetic → Int → Int → Int
  | .add, x, y => x + y
  | .subtract, x, y => x - y
  | .multiply, x, y => x * y
  | .divide, x, y => x.tdiv y

/-- An operation has a result unless it is a division by zero, and the result is the exact one,
    wrapped around to 64 bits. -/
theorem Arithmetic.apply?_wraps {kind : Arithmetic} {x y : Int64}
    (defined : kind = .divide → y ≠ 0) :
    kind.apply? x y = some (Int64.ofInt (kind.exact x.toInt y.toInt)) := by
  rw [apply?_eq_combine defined, Option.some_inj, ← Int64.toInt_inj, Int64.toInt_ofInt]
  cases kind with
  | add => exact Int64.toInt_add x y
  | subtract => exact Int64.toInt_sub x y
  | multiply => exact Int64.toInt_mul x y
  | divide => exact Int64.toInt_div x y

namespace Session

/-- No text and no context leads to a fault.

    Wherever scanning leads, the position is in the text and between two characters, and a scanner
    that cuts the text off there answers what it should. A descent into the text does what reading
    does, and never misses a token that it has to take. An evaluation that takes the arguments of
    calls by their positions does what an evaluation does, without a fault, and arithmetic on 64
    bits has a result wherever it is called for. A call with a number of arguments that the callable
    does not take fails and changes nothing; whatever evaluation would do, none takes place. -/
theorem nothing_faults (source : String) (bound : Nat) (context : Context) :
    (∀ s, Scanner.Scans source s →
      s.offset ≤ source.utf8ByteSize ∧ String.Pos.Raw.IsValid source ⟨s.offset⟩ ∧
        (s.cursor source).nextToken? = some (s.nextToken.1, s.nextToken.2.cursor source) ∧
        (s.cursor source).next? = some (s.next.1, s.next.2.cursor source)) ∧
      (∀ turns, (tokens source).length ≤ turns →
        Descent.read turns source = (read source).mapError .failed) ∧
      (∀ cause, read source = .error cause → cause.expected? = none) ∧
      (∀ code, Indexed.eval bound code context =
        Indexed.faultless (Evaluation.eval bound code) context) ∧
      (∀ callee args, Indexed.apply bound callee args context =
        Indexed.faultless (Evaluation.apply bound callee args) context) ∧
      (∀ (kind : Arithmetic) x y, (kind = .divide → y ≠ 0) →
        kind.apply? x y = some (Int64.ofInt (kind.exact x.toInt y.toInt))) ∧
      (∀ ev (builtin : Builtin) args, builtin.arity.admits args.length = false →
        Evaluation.call ev bound (.builtin builtin) args context =
          .failed (.badArgCount builtin.name builtin.arity args.length) context) ∧
      (∀ ev (closure : Closure) args, closure.arity.admits args.length = false →
        Evaluation.call ev bound (.closure closure) args context =
          .failed (.badArgCount closure.kind.name closure.arity args.length) context) := by
  refine ⟨?_, ?_, ?_, ?_, ?_, ?_, ?_, ?_⟩
  · intro s scans
    have stands := scans.standsIn
    exact ⟨stands.offset_le, stands.isValid, stands.nextToken?_cursor, stands.next?_cursor⟩
  · intro turns enough
    exact Descent.read_eq source enough
  · intro cause fails
    exact expected?_of_read fails
  · intro code
    rw [Indexed.eval_eq]
  · intro callee args
    rw [Indexed.apply_eq]
  · intro kind x y defined
    exact Arithmetic.apply?_wraps defined
  · intro ev builtin args refused
    rw [Evaluation.call_builtin_refused refused]
    rfl
  · intro ev closure args refused
    rw [Evaluation.call_closure_refused refused]
    rfl

/-- Behind a character of two bytes, in a text that ends too early, at the division that overflows,
    and in a call of `-` without arguments. -/
theorem nothing_faults_at_the_edges :
    String.Pos.Raw.IsValid "é(" ⟨(Scanner.ofSource "é(").nextToken.2.offset⟩ ∧
      Descent.read (tokens "é(").length "é(" = (read "é(").mapError .failed ∧
      Arithmetic.divide.apply? Int64.minValue (-1) = some Int64.minValue ∧
      Evaluation.call (Evaluation.eval 1) 1 (.builtin .subtract) [] (start {}) =
        .failed (.badArgCount "-" (.atLeast 1) 0) (start {}) := by
  obtain ⟨scanning, reading, _, _, _, arithmetic, builtins, _⟩ :=
    nothing_faults "é(" 1 (start {})
  exact ⟨(scanning _ (.nextToken .start)).2.1, reading _ (Nat.le_refl _),
    arithmetic .divide _ _ fun _ => by decide, builtins _ .subtract [] rfl⟩

end Session

end Homoiconic
