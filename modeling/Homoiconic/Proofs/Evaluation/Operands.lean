import Homoiconic.Proofs.Evaluation.Calls

/-! # The operands of arithmetic

The operands of an arithmetic operation are evaluated from left to right, each in the context that
the one before it has left, up to the first that is of no use: one that fails, one that is not an
integer, or a divisor that is zero. That one decides the error, and those after it do not matter.
-/

namespace Homoiconic

namespace Arithmetic

def builtin : Arithmetic → Builtin
  | .add => .add
  | .subtract => .subtract
  | .multiply => .multiply
  | .divide => .divide

/-- The result of the operation where it has one. -/
def combine : Arithmetic → Int64 → Int64 → Int64
  | .add, x, y => x + y
  | .subtract, x, y => x - y
  | .multiply, x, y => x * y
  | .divide, x, y => x / y

theorem operation?_builtin (kind : Arithmetic) (first : Atom) (rest : List Atom) :
    kind.builtin.operation? (first :: rest) = some (.arithmetic kind first rest) := by
  cases kind <;> rfl

theorem apply?_eq_combine {kind : Arithmetic} {y : Int64} (defined : kind = .divide → y ≠ 0)
    (x : Int64) : kind.apply? x y = some (kind.combine x y) := by
  cases kind with
  | divide => exact if_neg (defined rfl)
  | add | subtract | multiply => rfl

end Arithmetic

namespace Evaluation

open Homoiconic.Action

section Rules

variable (ev : Evaluator)

/-- Some atoms evaluate to integers, from left to right. -/
inductive Operands : List Atom → Context → List Int64 → Context → Prop where
  | nil {context : Context} : Operands [] context [] context
  | cons {code : Atom} {rest : List Atom} {n : Int64} {ns : List Int64}
      {context middle after : Context} :
      ev code context = .returned (.integer n) middle → Operands rest middle ns after →
      Operands (code :: rest) context (n :: ns) after

/-- The evaluation of an atom ends, but not with an integer. -/
inductive NoInteger (code : Atom) (context : Context) : EvalError → Context → Prop where
  | failed {error : EvalError} {after : Context} :
      ev code context = .failed error after → NoInteger code context error after
  | other {value : Value} {after : Context} :
      ev code context = .returned value after → value.integer? = none →
      NoInteger code context (.typeMismatch .integer) after

/-- An operand is of no use: it is no integer, or, if it is a divisor, it is zero. -/
inductive Refused (divisor : Prop) (code : Atom) (context : Context) :
    EvalError → Context → Prop where
  | noInteger {error : EvalError} {after : Context} :
      NoInteger ev code context error after → Refused divisor code context error after
  | zeroDivisor {after : Context} :
      divisor → ev code context = .returned (.integer 0) after →
      Refused divisor code context .divisionByZero after

end Rules

variable {ev : Evaluator} {bound : Nat} {kind : Arithmetic} {first code : Atom}
  {codes rest before later : List Atom} {n : Int64} {ns : List Int64}
  {context middle after : Context} {error : EvalError}

theorem integer_of_returned (returned : ev code context = .returned (.integer n) after) :
    integer ev code context = .returned n after := by
  simp only [integer, Bind.bind, Action.bind, returned]
  rfl

theorem integer_of_noInteger (none : NoInteger ev code context error after) :
    integer ev code context = .failed error after := by
  cases none with
  | failed fails => simp only [integer, Bind.bind, Action.bind, fails]
  | other returned other =>
      simp only [integer, Bind.bind, Action.bind, returned, other]
      rfl

/-- Operands that are of use are worked off, whatever comes after them. -/
theorem accumulate_append (operands : Operands ev before context ns middle)
    (defined : kind = .divide → 0 ∉ ns) (total : Int64) (later : List Atom) :
    accumulate ev kind total (before ++ later) context =
      accumulate ev kind (ns.foldl kind.combine total) later middle := by
  induction operands generalizing total with
  | nil => rfl
  | @cons code rest n ns _ _ _ returned _ ih =>
      have here : kind = .divide → n ≠ 0 := by
        rintro divides rfl
        exact defined divides List.mem_cons_self
      have others : kind = .divide → 0 ∉ ns := fun divides zero =>
        defined divides (List.mem_cons_of_mem n zero)
      simp only [List.cons_append, accumulate, Bind.bind, Action.bind,
        integer_of_returned returned, Arithmetic.apply?_eq_combine here, List.foldl_cons]
      exact ih others _

/-- An operand that is of no use ends the operation, whatever comes after it. -/
theorem accumulate_refused (refused : Refused ev (kind = .divide) code context error after)
    (total : Int64) (later : List Atom) :
    accumulate ev kind total (code :: later) context = .failed error after := by
  cases refused with
  | noInteger none =>
      simp only [accumulate, Bind.bind, Action.bind, integer_of_noInteger none]
  | zeroDivisor divides returned =>
      subst divides
      simp only [accumulate, Bind.bind, Action.bind, integer_of_returned returned,
        Arithmetic.apply?, if_true]
      rfl

/-- However an operand evaluates, it is of use, or of none, or its evaluation does not end. -/
theorem integer_or_refused (ev : Evaluator) (divisor : Prop) (code : Atom) (context : Context) :
    (∃ n after, ev code context = .returned (.integer n) after ∧ (divisor → n ≠ 0)) ∨
    (∃ error after, Refused ev divisor code context error after) ∨
    ev code context = .unfinished := by
  cases outcome : ev code context with
  | failed error after => exact .inr (.inl ⟨error, after, .noInteger (.failed outcome)⟩)
  | unfinished => exact .inr (.inr rfl)
  | returned value after =>
      cases isInteger : value.integer? with
      | none => exact .inr (.inl ⟨_, after, .noInteger (.other outcome isInteger)⟩)
      | some n =>
          obtain rfl : value = .integer n := by
            cases value <;> simp_all [Value.integer?]
          by_cases zero : divisor ∧ n = 0
          · obtain ⟨divisor, rfl⟩ := zero
            exact .inr (.inl ⟨_, after, .zeroDivisor divisor outcome⟩)
          · exact .inl ⟨n, after, rfl, not_and.mp zero⟩

/-- All operands are of use, or there is a first one that is not. -/
theorem operands_or_refused (ev : Evaluator) (divisors : Prop) (codes : List Atom)
    (context : Context) :
    (∃ ns after, Operands ev codes context ns after ∧ (divisors → 0 ∉ ns)) ∨
    ∃ before culprit later ns middle, codes = before ++ culprit :: later ∧
      Operands ev before context ns middle ∧ (divisors → 0 ∉ ns) ∧
      ((∃ error after, Refused ev divisors culprit middle error after) ∨
        ev culprit middle = .unfinished) := by
  induction codes generalizing context with
  | nil => exact .inl ⟨[], context, .nil, by simp⟩
  | cons code rest ih =>
      rcases integer_or_refused ev divisors code context with
        ⟨n, after, returned, nonzero⟩ | culprit
      · have extended {ns : List Int64} (defined : divisors → 0 ∉ ns) :
            divisors → 0 ∉ n :: ns := fun divides =>
          List.not_mem_cons_of_ne_of_not_mem (nonzero divides).symm (defined divides)
        rcases ih after with
          ⟨ns, last, operands, defined⟩ |
            ⟨before, culprit, later, ns, middle, rfl, operands, defined, ends⟩
        · exact .inl ⟨n :: ns, last, .cons returned operands, extended defined⟩
        · exact .inr ⟨code :: before, culprit, later, n :: ns, middle, rfl,
            .cons returned operands, extended defined, ends⟩
      · exact .inr ⟨[], code, rest, [], context, rfl, .nil, by simp, culprit⟩

theorem perform_append (operands : Operands ev (first :: before) context (n :: ns) middle)
    (defined : kind = .divide → 0 ∉ ns) (later : List Atom) :
    perform ev bound (.arithmetic kind first (before ++ later)) context =
      (do return Value.integer (← accumulate ev kind (ns.foldl kind.combine n) later)) middle := by
  cases operands with
  | cons returned others =>
      simp only [perform, Bind.bind, Action.bind, integer_of_returned returned,
        accumulate_append others defined n later]

theorem perform_of_operands (operands : Operands ev (first :: rest) context (n :: ns) after)
    (defined : kind = .divide → 0 ∉ ns) :
    perform ev bound (.arithmetic kind first rest) context =
      .returned (.integer (ns.foldl kind.combine n)) after := by
  rw [← List.append_nil rest, perform_append operands defined []]
  rfl

/-- The first operand is not a divisor, all others of a division are. -/
theorem perform_of_refused (split : first :: rest = before ++ code :: later)
    (operands : Operands ev before context ns middle) (defined : kind = .divide → 0 ∉ ns.tail)
    (refused : Refused ev (kind = .divide ∧ before ≠ []) code middle error after) :
    perform ev bound (.arithmetic kind first rest) context = .failed error after := by
  cases operands with
  | nil =>
      obtain ⟨rfl, rfl⟩ := List.cons.inj split
      cases refused with
      | noInteger none => simp only [perform, Bind.bind, Action.bind, integer_of_noInteger none]
      | zeroDivisor divisor => exact absurd rfl divisor.2
  | cons returned others =>
      obtain ⟨rfl, rfl⟩ := List.cons.inj split
      have asDivisor : Refused ev (kind = .divide) code middle error after := by
        cases refused with
        | noInteger none => exact .noInteger none
        | zeroDivisor divisor returned => exact .zeroDivisor divisor.1 returned
      refine (perform_append (.cons returned others) defined (code :: later)).trans ?_
      simp only [Bind.bind, Action.bind, accumulate_refused asDivisor]

theorem perform_of_unfinished (split : first :: rest = before ++ code :: later)
    (operands : Operands ev before context ns middle) (defined : kind = .divide → 0 ∉ ns.tail)
    (endless : ev code middle = .unfinished) :
    perform ev bound (.arithmetic kind first rest) context = .unfinished := by
  cases operands with
  | nil =>
      obtain ⟨rfl, rfl⟩ := List.cons.inj split
      simp only [perform, integer, Bind.bind, Action.bind, endless]
  | cons returned others =>
      obtain ⟨rfl, rfl⟩ := List.cons.inj split
      refine (perform_append (.cons returned others) defined (code :: later)).trans ?_
      simp only [accumulate, integer, Bind.bind, Action.bind, endless]

/-- The operands of a call are all of use, or there is a first one that is not. -/
theorem first_operand_or_refused (ev : Evaluator) (divides : Prop) (first : Atom)
    (rest : List Atom) (context : Context) :
    (∃ n ns after, Operands ev (first :: rest) context (n :: ns) after ∧ (divides → 0 ∉ ns)) ∨
    ∃ before culprit later ns middle, first :: rest = before ++ culprit :: later ∧
      Operands ev before context ns middle ∧ (divides → 0 ∉ ns.tail) ∧
      ((∃ error after, Refused ev (divides ∧ before ≠ []) culprit middle error after) ∨
        ev culprit middle = .unfinished) := by
  rcases integer_or_refused ev False first context with
    ⟨n, after, returned, _⟩ | ⟨error, after, _ | _⟩ | endless
  · rcases operands_or_refused ev divides rest after with
      ⟨ns, last, operands, defined⟩ |
        ⟨before, culprit, later, ns, middle, rfl, operands, defined, ends⟩
    · exact .inl ⟨n, ns, last, .cons returned operands, defined⟩
    · refine .inr ⟨first :: before, culprit, later, n :: ns, middle, rfl,
        .cons returned operands, defined, ?_⟩
      simpa using ends
  · exact .inr ⟨[], first, rest, [], context, rfl, .nil, by simp,
      .inl ⟨error, after, .noInteger ‹_›⟩⟩
  · contradiction
  · exact .inr ⟨[], first, rest, [], context, rfl, .nil, by simp, .inr endless⟩

end Evaluation

end Homoiconic
