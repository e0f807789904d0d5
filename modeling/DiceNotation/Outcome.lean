import DiceNotation.Bounds
import DiceNotation.Decimal
import DiceNotation.Expr
/-!
# Outcomes

What came of evaluating an expression once: the total, the bounds and the average that the
expression has whatever the dice show, the dice that were thrown and those of them that counted.
-/

namespace DiceNotation

/-- What came of evaluating an expression. -/
structure Outcome where
  /-- The value of the expression. -/
  total : Amount
  /-- The least total there could have been. -/
  minimum : Amount
  /-- The greatest total there could have been. -/
  maximum : Amount
  /-- The value of the expression with the average of each throw in place of the throw. It may be
  an infinity or not a number where a divisor has the average zero. -/
  average : Float
  /-- Every die that was thrown, in the order of the throws. -/
  raw : List Die
  /-- The dice that counted, in the order of the throws. -/
  kept : List Die

namespace Outcome

/-- The bounds on the total. -/
def bounds (o : Outcome) : Bounds := ⟨o.minimum, o.maximum⟩

/-- The outcome of a number, which throws no dice. -/
def constant (value : Amount) : Outcome := ⟨value, value, value, value.toFloat, [], []⟩

/-- The text of an outcome, such as `7 [3, 4] (min 2, max 12, avg 7)`. -/
def text (o : Outcome) : String :=
  o.total.text ++ " [" ++ ", ".intercalate (o.raw.map Die.text) ++ "] (min " ++ o.minimum.text ++
    ", max " ++ o.maximum.text ++ ", avg " ++ Decimal.text o.average ++ ")"

/-- Whether two averages are the same: equal as floating-point numbers, or both not a number. -/
def sameAverage (x y : Float) : Bool := x == y || (x.isNaN && y.isNaN)

/-- Whether two outcomes are the same, with averages compared by `sameAverage`. -/
def same (a b : Outcome) : Bool :=
  a.total = b.total && a.minimum = b.minimum && a.maximum = b.maximum &&
    sameAverage a.average b.average && a.raw = b.raw && a.kept = b.kept

/-- The sum of what dice show, added up from the first to the last die, if every sum on the way is
an amount. -/
def sum? (start : Amount) : List Die → Option Amount
  | [] => some start
  | die :: rest => (Amount.ofInt? (start.val + die.value.val)).bind fun next => sum? next rest

/-- The outcome of a throw, from the dice that were thrown. -/
def ofThrow (d : Dice) (raw : List Die) : Except EvalError Outcome :=
  let kept := d.selection.select d.selected.toNat raw
  let counted := if d.selection = .all then d.count.toFloat else kept.length.toUInt64.toFloat
  match sum? .zero kept, Amount.ofInt? (kept.length * d.sides.lowest.val),
      Amount.ofInt? (kept.length * d.sides.highest.val) with
  | some total, some minimum, some maximum =>
    .ok ⟨total, minimum, maximum, counted * d.sides.average, raw, kept⟩
  | _, _, _ => .error .overflow

/-- The outcome of an operation, from the outcomes of its operands. -/
def combine (op : Operator) (l r : Outcome) : Except EvalError Outcome := do
  let total ← op.apply l.total r.total
  let bounds ← Bounds.combine op l.bounds r.bounds
  .ok ⟨total, bounds.min, bounds.max, op.applyFloat l.average r.average, l.raw ++ r.raw,
    l.kept ++ r.kept⟩

end Outcome

end DiceNotation
