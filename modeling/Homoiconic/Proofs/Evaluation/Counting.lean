import Homoiconic.Proofs.Evaluation.Loop
import Homoiconic.Proofs.Evaluation.Operands

/-! # Counted loops

A loop that counts a name up to a limit evaluates its body once for each integer on the way,
whatever else the body does, as long as it lets the counter and the operations of counting alone.
The largest integer is a limit that the counter passes only by wrapping around: below it, counting
stops, but up to and including it, counting goes on forever.
-/

namespace Homoiconic

open Evaluation (Evaluates eval eval_assignment eval_builtin eval_symbol)

def Comparison.builtin : Comparison → Builtin
  | .less => .less
  | .atMost => .atMost
  | .greater => .greater
  | .atLeast => .atLeast

/-- The operations are called by the names that they have at first. -/
def Context.Provides (context : Context) (operations : List Builtin) : Prop :=
  ∀ operation ∈ operations, context.env.get? operation.name = some (.builtin operation)

/-- The loop `(for (set i a) (order i b) (incr i) body)`. -/
def Loop.counting (order : Comparison) (i : String) (a b : Int64) (body : Atom) : Loop where
  first := .list [.symbol "set", .symbol i, .number a]
  condition := .list [.symbol order.builtin.name, .symbol i, .number b]
  advance := .list [.symbol "incr", .symbol i]
  body := body

section Steps

variable {context : Context} {name : String} {n : Int64}

theorem evaluates_comparison {order : Comparison} (b : Int64)
    (head : context.env.get? order.builtin.name = some (.builtin order.builtin))
    (bound : context.env.get? name = some (.integer n)) :
    ∃ log, Evaluates (.list [.symbol order.builtin.name, .symbol name, .number b]) context
      (.boolean (order.holds n b)) { context with log } := by
  have call : order.builtin.operation? [.symbol name, .number b] =
      some (.comparison order (.symbol name) (.number b)) := by cases order <;> rfl
  have called := eval_builtin head call 0
  let begun := context.calling order.builtin.name order.builtin [.symbol name, .number b]
  have still : begun.env.get? name = some (.integer n) := bound
  have performed : Evaluation.perform (eval 1) 1 (.comparison order (.symbol name) (.number b))
      begun = .returned (.boolean (order.holds n b))
        ((begun.logging (.evaluating (.symbol name))).logging (.evaluating (.number b))) := by
    simp only [Evaluation.perform, Bind.bind, Action.bind,
      Evaluation.integer_of_returned (eval_symbol still 0)]
    rfl
  rw [Action.reported, performed] at called
  exact ⟨_, 2, called⟩

theorem evaluates_increment (head : context.env.get? "incr" = some (.builtin .increment))
    (bound : context.env.get? name = some (.integer n)) :
    ∃ log, Evaluates (.list [.symbol "incr", .symbol name]) context (.integer (n + 1))
      { context with env := context.env.set name (.integer (n + 1)), log } := by
  have call : Builtin.increment.operation? [.symbol name] =
      some (.stepping 1 (.symbol name)) := rfl
  have called := eval_builtin head call 0
  let begun := context.calling "incr" .increment [.symbol name]
  have found : begun.env.fetch name = .ok (.integer n) := by
    simp only [Environment.fetch, begun, Context.calling, bound]
  have performed : Evaluation.perform (eval 1) 1 (.stepping 1 (.symbol name)) begun =
      .returned (.integer (n + 1))
        { begun with env := begun.env.set name (.integer (n + 1)) } := by
    simp only [Evaluation.perform, Atom.symbol?, Action.expect, Action.lookup, Bind.bind,
      Action.bind, Pure.pure, Action.pure, found]
    rfl
  rw [Action.reported, performed] at called
  exact ⟨_, 2, called⟩

end Steps

section Counting

variable {good : Environment → Prop} {i : String} {body : Atom}

/-- Wherever the property holds, the name is bound to an integer, and the operations of counting are
    at hand, the body evaluates to something, keeps the property, and leaves these bindings. -/
def Counts (good : Environment → Prop) (i : String) (body : Atom) : Prop :=
  ∀ context : Context, good context.env → (∃ n, context.env.get? i = some (.integer n)) →
    context.Provides [.less, .atMost, .increment] →
    ∃ value after, Evaluates body context value after ∧ good after.env ∧
      ∀ name ∈ [i, "<", "<=", "incr"], after.env.get? name = context.env.get? name

/-- A context between two turns of a counted loop, where an integer is next. -/
structure Context.CountsAt (context : Context) (good : Environment → Prop) (i : String)
    (next : Int) : Prop where
  counter : context.env.get? i = some (.integer (.ofInt next))
  operations : context.Provides [.less, .atMost, .increment]
  good : good context.env

/-- No name is both the counter and one of an operation of counting. -/
theorem Context.Provides.set {context : Context} {operations : List Builtin}
    (provided : context.Provides operations) (other : i ∉ operations.map Builtin.name)
    (value : Value) (log : List Record) :
    Context.Provides { context with env := context.env.set i value, log } operations := by
  intro operation member
  have different : i ≠ operation.name := by
    rintro rfl
    exact other (List.mem_map_of_mem member)
  rw [Environment.get?_set, if_neg different]
  exact provided operation member

theorem Context.Provides.mono {context : Context} {operations fewer : List Builtin}
    (provided : context.Provides operations) (subset : fewer ⊆ operations) :
    context.Provides fewer :=
  fun operation member => provided operation (subset member)

variable {order : Comparison} {a b : Int64} {context : Context} {next : Int}

/-- One turn, from one integer to the next. -/
theorem turn_counting (other : i ∉ ["<", "<=", "incr"])
    (stable : ∀ env n, good env → good (env.set i (.integer n))) (counts : Counts good i body)
    (comparison : order.builtin ∈ [Builtin.less, .atMost, .increment])
    (here : context.CountsAt good i next) (holds : order.holds (.ofInt next) b) :
    ∃ entry after, (Loop.counting order i a b body).Turns context [entry] after ∧
      entry.env.get? i = some (.integer (.ofInt next)) ∧ after.CountsAt good i (next + 1) := by
  obtain ⟨log, condition⟩ :=
    evaluates_comparison b (here.operations order.builtin comparison) here.counter
  rw [holds] at condition
  obtain ⟨value, middle, evaluated, keeps, unchanged⟩ :=
    counts { context with log } here.good ⟨_, here.counter⟩ here.operations
  have counter : middle.env.get? i = some (.integer (.ofInt next)) := by
    rw [unchanged i (by simp)]
    exact here.counter
  have operations : middle.Provides [.less, .atMost, .increment] := by
    intro operation member
    have named : operation.name ∈ [i, "<", "<=", "incr"] := by
      simp only [List.mem_cons, List.not_mem_nil, or_false] at member
      obtain rfl | rfl | rfl := member <;> simp [Builtin.name]
    rw [unchanged operation.name named]
    exact here.operations operation member
  obtain ⟨log', advance⟩ :=
    evaluates_increment (operations .increment (by simp)) counter
  refine ⟨_, _, .one condition evaluated advance .none, here.counter, ?_⟩
  refine { counter := ?_, operations := operations.set other _ log', good := stable _ _ keeps }
  rw [Environment.get?_set, if_pos rfl, Int64.ofInt_add]
  rfl

/-- As many turns as the condition holds, one for each integer. -/
theorem turns_counting (other : i ∉ ["<", "<=", "incr"])
    (stable : ∀ env n, good env → good (env.set i (.integer n))) (counts : Counts good i body)
    (comparison : order.builtin ∈ [Builtin.less, .atMost, .increment])
    (here : context.CountsAt good i next) (count : Nat)
    (holds : ∀ k < count, order.holds (.ofInt (next + k)) b) :
    ∃ entries last, (Loop.counting order i a b body).Turns context entries last ∧
      entries.map (·.env.get? i) =
        (List.range count).map (fun k => some (.integer (.ofInt (next + k)))) ∧
      last.CountsAt good i (next + count) := by
  induction count with
  | zero => exact ⟨[], context, .none, rfl, by simpa using here⟩
  | succ count ih =>
      obtain ⟨entries, middle, turns, counters, later⟩ := ih fun k less => holds k (by omega)
      obtain ⟨entry, last, turn, counter, ends⟩ :=
        turn_counting (a := a) other stable counts comparison later (holds count (by omega))
      refine ⟨entries ++ [entry], last, turns.append turn, ?_, ?_⟩
      · rw [List.map_append, counters, List.range_succ, List.map_append, List.map_singleton,
          List.map_singleton, counter]
      · rwa [Int.natCast_succ, ← Int.add_assoc]

/-- The loop evaluates to nil after one turn for each of the integers, in which the name is bound to
    it, and leaves the name bound to the last argument. It has no other way to end. -/
structure Loop.RunsThrough (loop : Loop) (context : Context) (i : String) (integers : List Int)
    (final : Int) (entries : List Context) (after : Context) : Prop where
  evaluates : Evaluates loop.code context .nil after
  ends : ∀ others after', loop.Ends context others after' ↔ others = entries ∧ after' = after
  counters : entries.map (·.env.get? i) = integers.map fun n => some (.integer (.ofInt n))
  final : after.env.get? i = some (.integer (.ofInt final))

/-- The first part of the loop binds the counter to the first integer. -/
theorem begin_counting (order : Comparison) (a b : Int64) (body : Atom)
    (other : i ∉ ["<", "<=", "incr"])
    (stable : ∀ env n, good env → good (env.set i (.integer n))) (here : good context.env)
    (provided : context.Provides [.assign, .less, .atMost, .increment, .loop]) :
    ∃ begun, Evaluates (Loop.counting order i a b body).first
        ((Loop.counting order i a b body).opened context) .nil begun ∧
      begun.CountsAt good i a.toInt := by
  have assign : ((Loop.counting order i a b body).opened context).env.get? "set" =
      some (.builtin .assign) := provided .assign (by simp)
  have constant (older : List Record) : ∃ log,
      eval 1 (.number a) { (Loop.counting order i a b body).opened context with log := older } =
        .returned (.integer a) { (Loop.counting order i a b body).opened context with log } :=
    ⟨_, rfl⟩
  obtain ⟨log, assigned⟩ := eval_assignment 0 i assign constant
  refine ⟨_, ⟨2, assigned⟩, ?_⟩
  have operations : context.Provides [.less, .atMost, .increment] := provided.mono (by simp)
  refine {
    counter := ?_
    operations := operations.set other (.integer a) log
    good := stable _ a here }
  rw [Environment.get?_set, if_pos rfl, Int64.ofInt_toInt]

/-- A counted loop ends at the first integer for which the comparison does not hold. -/
theorem counting_runsThrough (other : i ∉ ["<", "<=", "incr"])
    (stable : ∀ env n, good env → good (env.set i (.integer n))) (counts : Counts good i body)
    (here : good context.env)
    (provided : context.Provides [.assign, .less, .atMost, .increment, .loop])
    (comparison : order.builtin ∈ [Builtin.less, .atMost, .increment]) (count : Nat)
    (holds : ∀ k < count, order.holds (.ofInt (a.toInt + k)) b)
    (stops : order.holds (.ofInt (a.toInt + count)) b = false) :
    ∃ entries after, (Loop.counting order i a b body).RunsThrough context i
      ((List.range count).map fun k : Nat => a.toInt + k) (a.toInt + count) entries after := by
  obtain ⟨begun, first, start⟩ := begin_counting order a b body other stable here provided
  obtain ⟨entries, last, turns, counters, ends⟩ :=
    turns_counting (a := a) other stable counts comparison start count holds
  obtain ⟨log, condition⟩ :=
    evaluates_comparison b (ends.operations order.builtin comparison) ends.counter
  rw [stops] at condition
  have ended : (Loop.counting order i a b body).Ends context entries
      (Context.logging { last with log } (.resulted .loop .nil)) :=
    ⟨last, _, ⟨.nil, begun, first, turns⟩, condition, rfl⟩
  have head : context.env.get? "for" = some (.builtin .loop) := provided .loop (by simp)
  refine ⟨entries, Context.logging { last with log } (.resulted .loop .nil), ?_, ?_, ?_,
    ends.counter⟩
  · exact (Loop.evaluates_iff head).mpr ⟨rfl, entries, ended⟩
  · intro others after
    constructor
    · exact fun again => ended.unique again
    · rintro ⟨rfl, rfl⟩
      exact ended
  · rw [counters, List.map_map]
    rfl

theorem toInt_ofInt_of_between {n : Int} (least : Int64.minValue.toInt ≤ n)
    (largest : n ≤ Int64.maxValue.toInt) : (Int64.ofInt n).toInt = n := by
  rw [Int64.toInt_minValue] at least
  rw [Int64.toInt_maxValue] at largest
  exact Int64.toInt_ofInt_of_le least (Int.lt_of_le_sub_one largest)

theorem holds_less_ofInt {n : Int} (least : Int64.minValue.toInt ≤ n)
    (largest : n ≤ Int64.maxValue.toInt) (b : Int64) :
    Comparison.less.holds (.ofInt n) b = decide (n < b.toInt) := by
  simp only [Comparison.holds, Int64.lt_iff_toInt_lt, toInt_ofInt_of_between least largest]

theorem holds_atMost_ofInt {n : Int} (least : Int64.minValue.toInt ≤ n)
    (largest : n ≤ Int64.maxValue.toInt) (b : Int64) :
    Comparison.atMost.holds (.ofInt n) b = decide (n ≤ b.toInt) := by
  simp only [Comparison.holds, Int64.le_iff_toInt_le, toInt_ofInt_of_between least largest]

/-- Counting up to a limit takes one turn for each integer below it, and leaves the counter at the
    limit or where it began, if that is more. Counting up to and including a limit takes one turn
    more, unless the limit is the largest integer: then the condition holds before every turn, the
    counter wraps around, and the loop does not end. The body may do whatever it likes apart from
    the counter and the operations of counting, and it may rely on any property of the environment
    that it keeps and that has nothing to do with the counter. -/
theorem counted_loops_are_exact {good : Environment → Prop} {i : String} {body : Atom}
    {context : Context} (a b : Int64) (other : i ∉ ["<", "<=", "incr"])
    (provided : context.Provides [.assign, .less, .atMost, .increment, .loop])
    (stable : ∀ env n, good env → good (env.set i (.integer n))) (here : good context.env)
    (counts : Counts good i body) :
    (∃ entries after, (Loop.counting .less i a b body).RunsThrough context i
      ((List.range (b.toInt - a.toInt).toNat).map fun k : Nat => a.toInt + k) (max a.toInt b.toInt)
      entries after) ∧
    (b < Int64.maxValue → ∃ entries after,
      (Loop.counting .atMost i a b body).RunsThrough context i
        ((List.range (b.toInt - a.toInt + 1).toNat).map fun k : Nat => a.toInt + k)
        (max a.toInt (b.toInt + 1)) entries after) ∧
    (b = Int64.maxValue →
      (∀ bound, eval bound (Loop.counting .atMost i a b body).code context = .unfinished) ∧
      ∀ k : Nat, ∃ entries last next,
        (Loop.counting .atMost i a b body).Reaches context entries last ∧ entries.length = k ∧
        last.env.get? i = some (.integer (.ofInt (a.toInt + k))) ∧
        Evaluates (Loop.counting .atMost i a b body).condition last (.boolean true) next) := by
  have least := a.minValue_le_toInt
  have largest := a.toInt_le
  have limit := b.toInt_le
  refine ⟨?_, ?_, ?_⟩
  · have final : max a.toInt b.toInt = a.toInt + (b.toInt - a.toInt).toNat := by omega
    rw [final]
    refine counting_runsThrough other stable counts here provided (by decide) _ ?_ ?_
    · intro k less
      rw [holds_less_ofInt (by omega) (by omega)]
      exact decide_eq_true (by omega)
    · rw [holds_less_ofInt (by omega) (by omega)]
      exact decide_eq_false (by omega)
  · intro below
    have below : b.toInt < Int64.maxValue.toInt := Int64.lt_iff_toInt_lt.mp below
    have final : max a.toInt (b.toInt + 1) = a.toInt + (b.toInt - a.toInt + 1).toNat := by omega
    rw [final]
    refine counting_runsThrough other stable counts here provided (by decide) _ ?_ ?_
    · intro k less
      rw [holds_atMost_ofInt (by omega) (by omega)]
      exact decide_eq_true (by omega)
    · rw [holds_atMost_ofInt (by omega) (by omega)]
      exact decide_eq_false (by omega)
  · rintro rfl
    have always (n : Int64) : Comparison.atMost.holds n Int64.maxValue :=
      decide_eq_true (Int64.le_iff_toInt_le.mpr n.toInt_le)
    have comparison : Comparison.atMost.builtin ∈ [Builtin.less, .atMost, .increment] := by decide
    obtain ⟨begun, first, start⟩ :=
      begin_counting .atMost a Int64.maxValue body other stable here provided
    refine ⟨?_, ?_⟩
    · let invariant (here : Context) : Prop := ∃ next, here.CountsAt good i next
      have started : invariant begun := ⟨_, start⟩
      refine Loop.eval_eq_unfinished (provided .loop (by simp)) first started ?_
      rintro here ⟨next, between⟩
      obtain ⟨entry, later, turn, _, ends⟩ :=
        turn_counting (a := a) other stable counts comparison between (always _)
      exact ⟨entry, later, turn, _, ends⟩
    · intro k
      obtain ⟨entries, last, turns, counters, ends⟩ :=
        turns_counting (a := a) other stable counts comparison start k fun _ _ => always _
      have head := ends.operations Comparison.atMost.builtin comparison
      obtain ⟨log, condition⟩ := evaluates_comparison Int64.maxValue head ends.counter
      rw [always] at condition
      refine ⟨entries, last, _, ⟨.nil, begun, first, turns⟩, ?_, ends.counter, condition⟩
      have lengths := congrArg List.length counters
      simpa using lengths

/-- The atom `(set total (+ total i))`. -/
def summing (total i : String) : Atom :=
  .list [.symbol "set", .symbol total, .list [.symbol "+", .symbol total, .symbol i]]

/-- What it takes to add something to a total. -/
structure Environment.CanSum (total : String) (env : Environment) : Prop where
  assign : env.get? "set" = some (.builtin .assign)
  add : env.get? "+" = some (.builtin .add)
  total : ∃ n, env.get? total = some (.integer n)

theorem evaluates_sum (context : Context) {total : String} {n k : Int64}
    (add : context.env.get? "+" = some (.builtin .add))
    (first : context.env.get? total = some (.integer n))
    (second : context.env.get? i = some (.integer k)) :
    ∃ log, eval 2 (.list [.symbol "+", .symbol total, .symbol i]) context =
      .returned (.integer (n + k)) { context with log } := by
  have call : Builtin.add.operation? [.symbol total, .symbol i] =
      some (.arithmetic .add (.symbol total) [.symbol i]) := rfl
  have called := eval_builtin add call 0
  let begun := context.calling "+" .add [.symbol total, .symbol i]
  have performed : Evaluation.perform (eval 1) 1
      (.arithmetic .add (.symbol total) [.symbol i]) begun = .returned (.integer (n + k))
        ((begun.logging (.evaluating (.symbol total))).logging (.evaluating (.symbol i))) := by
    have first : begun.env.get? total = some (.integer n) := first
    have second : (begun.logging (.evaluating (.symbol total))).env.get? i = some (.integer k) :=
      second
    have first := eval_symbol first 0
    have second := eval_symbol second 0
    exact Evaluation.perform_of_operands (.cons first (.cons second .nil)) (by simp)
  rw [Action.reported, performed] at called
  exact ⟨_, called⟩

theorem counts_summing {total : String} (other : total ∉ ["set", "+", i, "<", "<=", "incr"]) :
    Counts (Environment.CanSum total) i (summing total i) := by
  rintro context sums ⟨k, counter⟩ -
  obtain ⟨n, bound⟩ := sums.total
  have unchanged (name : String) (value : Value)
      (member : name ∈ ["set", "+", i, "<", "<=", "incr"]) :
      (context.env.set total value).get? name = context.env.get? name := by
    have different : total ≠ name := by
      rintro rfl
      exact other member
    rw [Environment.get?_set, if_neg different]
  obtain ⟨log, assigned⟩ := eval_assignment 1 total sums.assign fun older =>
    evaluates_sum { context with log := older } sums.add bound counter
  refine ⟨.nil, _, ⟨3, assigned⟩, ?_, ?_⟩
  · refine { assign := ?_, add := ?_, total := ⟨n + k, ?_⟩ }
    · exact (unchanged "set" _ (by simp)).trans sums.assign
    · exact (unchanged "+" _ (by simp)).trans sums.add
    · rw [Environment.get?_set, if_pos rfl]
  · intro name member
    exact unchanged name _ (by grind)

theorem Environment.CanSum.set {total : String} {env : Environment} (sums : env.CanSum total)
    (other : i ∉ ["set", "+"]) (n : Int64) : (env.set i (.integer n)).CanSum total where
  assign := by
    rw [get?_set, if_neg (by grind)]
    exact sums.assign
  add := by
    rw [get?_set, if_neg (by grind)]
    exact sums.add
  total := by
    rw [get?_set]
    split
    · exact ⟨n, rfl⟩
    · exact sums.total

theorem counted_loops_are_exact_summing :
    let context : Context := { env := Environment.standard.set "sum" (.integer 0) }
    (∃ entries after, (Loop.counting .less "i" 1 3 (summing "sum" "i")).RunsThrough context "i"
      [1, 2] 3 entries after) ∧
    ∃ entries after, (Loop.counting .atMost "i" 1 3 (summing "sum" "i")).RunsThrough context "i"
      [1, 2, 3] 4 entries after := by
  intro context
  have provided : context.Provides [.assign, .less, .atMost, .increment, .loop] := by
    intro operation member
    rw [Environment.get?_set, if_neg (by revert member; cases operation <;> decide)]
    exact Environment.get?_standard operation
  have sums : context.env.CanSum "sum" := by
    refine { assign := provided .assign (by simp), add := ?_, total := ⟨0, ?_⟩ }
    · rw [Environment.get?_set, if_neg (by decide)]
      exact Environment.get?_standard .add
    · rw [Environment.get?_set, if_pos rfl]
  have counts : Counts (Environment.CanSum "sum") "i" (summing "sum" "i") :=
    counts_summing (by decide)
  have runs := counted_loops_are_exact 1 3 (by decide) provided
    (fun env n sums => sums.set (by decide) n) sums counts
  exact ⟨runs.1, runs.2.1 (by decide)⟩

end Counting

end Homoiconic
