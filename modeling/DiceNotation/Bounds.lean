import DiceNotation.Operator
/-!
# Bounds

The least and the greatest total of an expression, whatever its dice show, computed from the bounds
of its operands. The bounds of a product or a quotient are the least and the greatest result at the
corners of the operands' bounds; where a divisor may have either sign, it may also come as close to
zero as `-1` and `1`.
-/

namespace DiceNotation

/-- The least and the greatest total. -/
structure Bounds where
  /-- The least total. -/
  min : Amount
  /-- The greatest total. -/
  max : Amount
  deriving DecidableEq

namespace Bounds

/-- The smaller of two amounts. -/
def lesser (a b : Amount) : Amount := if a.val ≤ b.val then a else b

/-- The greater of two amounts. -/
def greater (a b : Amount) : Amount := if a.val ≤ b.val then b else a

/-- The bounds, widened so that they hold an amount. -/
def widen (bounds : Bounds) (a : Amount) : Bounds := ⟨lesser bounds.min a, greater bounds.max a⟩

/-- The bounds that hold an amount and every amount of a list, and no more. -/
def hull (a : Amount) (rest : List Amount) : Bounds := rest.foldl widen ⟨a, a⟩

/-- The divisors at which a quotient can be extreme. -/
def divisors (r : Bounds) : List Amount :=
  if r.min.val < 0 ∧ 0 < r.max.val then [r.min, .minusOne, .one, r.max] else [r.min, r.max]

/-- The results of an operation on the pairs of two lists, if all of them have one. -/
def results (op : Operator) (lefts rights : List Amount) : Except EvalError (List Amount) :=
  (lefts.flatMap fun l => rights.map fun r => (l, r)).mapM fun pair => op.apply pair.1 pair.2

/-- The bounds of the results at every corner. -/
def corners (op : Operator) (l : Bounds) (rights : List Amount) : Except EvalError Bounds := do
  match ← results op [l.min, l.max] rights with
  | [] => .ok l
  | a :: rest => .ok (hull a rest)

/-- The bounds of an operation, from the bounds of its operands. -/
def combine (op : Operator) (l r : Bounds) : Except EvalError Bounds :=
  match op with
  | .add => do
    let min ← Operator.add.apply l.min r.min
    let max ← Operator.add.apply l.max r.max
    .ok ⟨min, max⟩
  | .sub => do
    let min ← Operator.sub.apply l.min r.max
    let max ← Operator.sub.apply l.max r.min
    .ok ⟨min, max⟩
  | .mul => corners .mul l [r.min, r.max]
  | .div => corners .div l (divisors r)

end Bounds

end DiceNotation
