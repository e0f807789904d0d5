import DiceNotation.Outcome
import DiceNotation.Table
/-!
# Evaluating expressions

The dice of an expression are drawn from left to right, each extra die of an exploding throw right
after the die that exploded. A throw whose count alone goes beyond the limit draws no die. Dice
that were drawn before an evaluation failed have been drawn all the same, so the table is part of
the answer in either case.
-/

namespace DiceNotation

variable {σ : Type}

namespace Table

/-- Draws dice of one kind until `n` of them are final, `thrown` being those drawn before, the
latest first. A die that explodes is not final. -/
def gather (source : Source σ) (limit : Option Nat) (sides : Sides) (explodes : Bool) (n : Nat)
    (t : Table σ) (thrown : List Die) : Except EvalError (List Die) × Table σ :=
  match n with
  | 0 => (.ok thrown.reverse, t)
  | m + 1 =>
    match h : t.draw source limit sides with
    | (.error e, next) => (.error e, next)
    | (.ok die, next) =>
      if explodes = true ∧ die.value = sides.highest then
        gather source limit sides explodes (m + 1) next (die :: thrown)
      else gather source limit sides explodes m next (die :: thrown)
termination_by maxCount - t.rolls
decreasing_by
  all_goals
    have := rolls_of_draw h
    omega

@[simp] theorem gather_zero (source : Source σ) (limit : Option Nat) (sides : Sides)
    (explodes : Bool) (t : Table σ) (thrown : List Die) :
    t.gather source limit sides explodes 0 thrown = (.ok thrown.reverse, t) := by
  rw [gather]

/-- A die that explodes leaves as many dice to be thrown as before. -/
theorem gather_of_exploding {source : Source σ} {limit : Option Nat} {sides : Sides} {die : Die}
    {t next : Table σ} (h : t.draw source limit sides = (.ok die, next))
    (hd : die.value = sides.highest) (n : Nat) (thrown : List Die) :
    t.gather source limit sides true (n + 1) thrown =
      next.gather source limit sides true (n + 1) (die :: thrown) := by
  rw [gather]
  split <;> simp_all

/-- Any other die is one of those to be thrown. -/
theorem gather_of_final {source : Source σ} {limit : Option Nat} {sides : Sides} {explodes : Bool}
    {die : Die} {t next : Table σ} (h : t.draw source limit sides = (.ok die, next))
    (hd : ¬(explodes = true ∧ die.value = sides.highest)) (n : Nat) (thrown : List Die) :
    t.gather source limit sides explodes (n + 1) thrown =
      next.gather source limit sides explodes n (die :: thrown) := by
  rw [gather]
  split <;> simp_all

end Table

namespace Dice

/-- Throws the dice and gives the outcome. -/
def eval (source : Source σ) (limit : Option Nat) (d : Dice) (t : Table σ) :
    Except EvalError Outcome × Table σ :=
  match t.reserve limit d.count.toNat with
  | .error e => (.error e, t)
  | .ok () =>
    match t.gather source limit d.sides d.explodes d.count.toNat [] with
    | (.error e, next) => (.error e, next)
    | (.ok raw, next) => (Outcome.ofThrow d raw, next)

end Dice

namespace Expr

/-- Evaluates the expression on a table: the left operand, the right operand, then the
operation. -/
def eval (source : Source σ) (limit : Option Nat) : Expr → Table σ →
    Except EvalError Outcome × Table σ
  | .number value, t => (.ok (.constant value), t)
  | .dice d, t => d.eval source limit t
  | .binary left op right, t =>
    match left.eval source limit t with
    | (.error e, next) => (.error e, next)
    | (.ok l, next) =>
      match right.eval source limit next with
      | (.error e, last) => (.error e, last)
      | (.ok r, last) => (Outcome.combine op l r, last)

/-- Evaluates the expression on a fresh table: the outcome, and the state of the source after
it. -/
def evaluate (source : Source σ) (limit : Option Nat) (e : Expr) (state : σ) :
    Except EvalError Outcome × σ :=
  let (answer, table) := e.eval source limit (.start state)
  (answer, table.state)

end Expr

end DiceNotation
