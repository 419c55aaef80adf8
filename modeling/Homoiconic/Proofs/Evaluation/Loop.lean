import Homoiconic.Proofs.Evaluation.Calls

/-! # Loops

What a loop does, turn by turn. A turn evaluates the condition, the body and then `advance`, each in
the context that the one before has left, and whatever their values are, the loop ends with nil in
the context where the condition does not hold any more: `Loop.evaluates_iff`.
-/

namespace Homoiconic

open Evaluation (Evaluates eval)

/-- The parts of a call `(for first condition advance body)`. -/
structure Loop where
  first : Atom
  condition : Atom
  advance : Atom
  body : Atom

namespace Loop

variable {loop : Loop} {context begun next last after : Context} {entries : List Context}
  {value : Value}

def args (loop : Loop) : List Atom :=
  [loop.first, loop.condition, loop.advance, loop.body]

def code (loop : Loop) : Atom :=
  .list (.symbol "for" :: loop.args)

def operation (loop : Loop) : Operation :=
  .loop loop.first loop.condition loop.advance loop.body

/-- The context in which the loop begins: nothing has happened but the call itself. -/
def opened (loop : Loop) (context : Context) : Context :=
  context.calling "for" .loop loop.args

/-- Turns of the loop lead from one context to another. The body is evaluated in the contexts that
    are listed, once in each of them and in this order. -/
inductive Turns (loop : Loop) : Context → List Context → Context → Prop where
  | none {context : Context} : Turns loop context [] context
  | one {context entry middle next last : Context} {entries : List Context} {value step : Value} :
      Evaluates loop.condition context (.boolean true) entry →
      Evaluates loop.body entry value middle → Evaluates loop.advance middle step next →
      Turns loop next entries last → Turns loop context (entry :: entries) last

theorem Turns.append {others : List Context} (turns : loop.Turns context entries next)
    (more : loop.Turns next others last) : loop.Turns context (entries ++ others) last := by
  induction turns with
  | none => exact more
  | one condition body advance _ ih => exact .one condition body advance (ih more)

/-- A loop that is called in some context comes, after the turns whose bodies are evaluated in the
    contexts that are listed, to a last one, and is about to evaluate its condition there. -/
def Reaches (loop : Loop) (context : Context) (entries : List Context) (last : Context) : Prop :=
  ∃ value begun, Evaluates loop.first (loop.opened context) value begun ∧
    loop.Turns begun entries last

/-- A loop that is called in some context ends after the turns whose bodies are evaluated in the
    contexts that are listed. -/
def Ends (loop : Loop) (context : Context) (entries : List Context) (after : Context) : Prop :=
  ∃ last ended, loop.Reaches context entries last ∧
    Evaluates loop.condition last (.boolean false) ended ∧
    after = ended.logging (.resulted .loop .nil)

/-- With enough steps, the loop goes through its turns and ends after them. -/
theorem Turns.iterate_eq (turns : loop.Turns context entries last)
    (ends : Evaluates loop.condition last (.boolean false) after) :
    ∃ least, ∀ bound, least ≤ bound → ∀ allowed, entries.length < allowed →
      Evaluation.iterate (eval bound) loop.condition loop.advance loop.body allowed context =
        .returned () after := by
  induction turns with
  | none =>
      obtain ⟨least, holds⟩ := ends.eval_eq
      refine ⟨least, ?_⟩
      intro bound le allowed more
      obtain ⟨fewer, rfl⟩ := Nat.exists_eq_succ_of_ne_zero (Nat.ne_zero_of_lt more)
      simp only [Evaluation.iterate, Evaluation.boolean, Bind.bind, Action.bind, holds bound le]
      rfl
  | one condition body advance _ ih =>
      obtain ⟨first, holds⟩ := condition.eval_eq
      obtain ⟨second, does⟩ := body.eval_eq
      obtain ⟨third, steps⟩ := advance.eval_eq
      obtain ⟨others, later⟩ := ih ends
      refine ⟨max (max first second) (max third others), ?_⟩
      intro bound le allowed more
      obtain ⟨fewer, rfl⟩ := Nat.exists_eq_succ_of_ne_zero (Nat.ne_zero_of_lt more)
      have rest := later bound (by omega) fewer (by simpa using more)
      simp only [Evaluation.iterate, Evaluation.boolean, Bind.bind, Action.bind,
        holds bound (by omega), Value.boolean?, Action.expect, Pure.pure, Action.pure, if_true,
        does bound (by omega), steps bound (by omega)]
      exact rest

theorem boolean_eq_returned {code : Atom} {bound : Nat} {holds : Bool}
    (returned : Evaluation.boolean (eval bound) code context = .returned holds after) :
    Evaluates code context (.boolean holds) after := by
  obtain ⟨value, middle, evaluated, expected⟩ := Action.bind_eq_returned_iff.mp returned
  cases value with
  | boolean truth =>
      cases expected
      exact ⟨bound, evaluated⟩
  | nil | integer | atom | builtin | closure => cases expected

/-- A loop that ends has gone through turns, and then its condition did not hold. -/
theorem turns_of_iterate {bound allowed : Nat}
    (ends : Evaluation.iterate (eval bound) loop.condition loop.advance loop.body allowed context =
      .returned () after) :
    ∃ entries last, loop.Turns context entries last ∧
      Evaluates loop.condition last (.boolean false) after := by
  induction allowed generalizing context with
  | zero => cases ends
  | succ fewer ih =>
      obtain ⟨holds, entry, condition, ends⟩ := Action.bind_eq_returned_iff.mp ends
      have condition := boolean_eq_returned condition
      cases holds with
      | false =>
          cases ends
          exact ⟨[], context, .none, condition⟩
      | true =>
          obtain ⟨value, middle, body, ends⟩ := Action.bind_eq_returned_iff.mp ends
          obtain ⟨step, next, advance, ends⟩ := Action.bind_eq_returned_iff.mp ends
          obtain ⟨entries, last, turns, stops⟩ := ih ends
          exact ⟨entry :: entries, last, .one condition ⟨bound, body⟩ ⟨bound, advance⟩ turns, stops⟩

/-- The call of a loop is what the loop does, between two records of the call. -/
theorem eval_code (loop : Loop) (head : context.env.get? "for" = some (.builtin .loop))
    (bound : Nat) :
    eval (bound + 2) loop.code context =
      Action.reported .loop (Evaluation.perform (eval (bound + 1)) (bound + 1) loop.operation)
        (loop.opened context) :=
  Evaluation.eval_builtin head rfl bound

/-- A loop evaluates to nil, after all of its turns, in the context where its condition does not
    hold; and it evaluates to nothing else. -/
theorem evaluates_iff (head : context.env.get? "for" = some (.builtin .loop)) :
    Evaluates loop.code context value after ↔
      value = .nil ∧ ∃ entries, loop.Ends context entries after := by
  constructor
  · intro evaluates
    obtain ⟨least, returned⟩ := evaluates.eval_eq
    have called := returned (least + 2) (by omega)
    rw [eval_code loop head, Action.reported] at called
    cases performed : Evaluation.perform (eval (least + 1)) (least + 1) loop.operation
        (loop.opened context) with
    | failed | unfinished =>
        rw [performed] at called
        cases called
    | returned result ended =>
        rw [performed] at called
        cases called
        obtain ⟨start, begun, first, performed⟩ := Action.bind_eq_returned_iff.mp performed
        obtain ⟨_, last, iterated, performed⟩ := Action.bind_eq_returned_iff.mp performed
        cases performed
        obtain ⟨entries, last, turns, stops⟩ := turns_of_iterate iterated
        exact ⟨rfl, entries, last, ended, ⟨start, begun, ⟨_, first⟩, turns⟩, stops, rfl⟩
  · rintro ⟨rfl, entries, last, ended, ⟨start, begun, first, turns⟩, stops, rfl⟩
    obtain ⟨enough, begins⟩ := first.eval_eq
    obtain ⟨least, iterates⟩ := turns.iterate_eq stops
    let bound := max enough (max least entries.length)
    refine ⟨bound + 2, ?_⟩
    have first := begins (bound + 1) (by omega)
    have others := iterates (bound + 1) (by omega) (bound + 1) (by omega)
    rw [eval_code loop head, Action.reported]
    simp only [operation, Evaluation.perform, Bind.bind, Action.bind, first, others]
    rfl

theorem Turns.unique {others : List Context} {end' ended ended' : Context}
    (turns : loop.Turns context entries last)
    (stops : Evaluates loop.condition last (.boolean false) ended)
    (turns' : loop.Turns context others end')
    (stops' : Evaluates loop.condition end' (.boolean false) ended') :
    entries = others ∧ ended = ended' := by
  induction turns generalizing others with
  | none =>
      cases turns' with
      | none => exact ⟨rfl, (stops.unique stops').2⟩
      | one condition => cases (stops.unique condition).1
  | one condition body advance _ ih =>
      cases turns' with
      | none => cases (condition.unique stops').1
      | one condition' body' advance' rest =>
          obtain ⟨_, rfl⟩ := condition.unique condition'
          obtain ⟨_, rfl⟩ := body.unique body'
          obtain ⟨_, rfl⟩ := advance.unique advance'
          obtain ⟨rfl, rfl⟩ := ih stops rest
          exact ⟨rfl, rfl⟩

/-- There is one way only for a loop to end. -/
theorem Ends.unique {others : List Context} {after' : Context}
    (ends : loop.Ends context entries after) (ends' : loop.Ends context others after') :
    others = entries ∧ after' = after := by
  obtain ⟨last, ended, ⟨value, begun, first, turns⟩, stops, rfl⟩ := ends
  obtain ⟨last', ended', ⟨value', begun', first', turns'⟩, stops', rfl⟩ := ends'
  obtain ⟨_, rfl⟩ := first.unique first'
  obtain ⟨rfl, rfl⟩ := turns.unique stops turns' stops'
  exact ⟨rfl, rfl⟩

/-- A loop does not end, within any bound, if it can always go on for one more turn. -/
theorem eval_eq_unfinished (head : context.env.get? "for" = some (.builtin .loop))
    (first : Evaluates loop.first (loop.opened context) value begun)
    {invariant : Context → Prop} (start : invariant begun)
    (turn : ∀ here, invariant here → ∃ entry next, loop.Turns here [entry] next ∧ invariant next)
    (bound : Nat) : eval bound loop.code context = .unfinished := by
  have endless (bound allowed : Nat) {here : Context} (holds : invariant here) :
      Evaluation.iterate (eval bound) loop.condition loop.advance loop.body allowed here =
        .unfinished := by
    induction allowed generalizing here with
    | zero => rfl
    | succ allowed ih =>
        obtain ⟨entry, next, turns, holds⟩ := turn here holds
        cases turns with
        | one condition body advance rest =>
            cases rest
            simp only [Evaluation.iterate, Evaluation.boolean, bind_assoc]
            refine condition.bind_eq_unfinished bound ?_
            refine body.bind_eq_unfinished bound ?_
            exact advance.bind_eq_unfinished bound (ih holds)
  match bound with
  | 0 | 1 => rfl
  | bound + 2 =>
      have never : Evaluation.perform (eval (bound + 1)) (bound + 1) loop.operation
          (loop.opened context) = .unfinished := by
        refine first.bind_eq_unfinished (bound + 1) ?_
        simp only [Bind.bind, Action.bind, endless (bound + 1) (bound + 1) start]
      rw [eval_code loop head, Action.reported, never]

end Loop

end Homoiconic
