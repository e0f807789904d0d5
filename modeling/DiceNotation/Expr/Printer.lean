import DiceNotation.Expr
/-!
# The canonical text of an expression

An operator stands between blanks. Operators group to the left, so a left operand is put into
parentheses where it binds less tightly than the operator, and a right operand also where it binds
just as tightly.
-/

namespace DiceNotation

namespace Dice

/-- The text of a throw, such as `4d6!kh3`. -/
def text (d : Dice) : String :=
  toString d.count.toNat ++ "d" ++ d.sides.label ++ (if d.explodes then "!" else "") ++
    if d.selection = .all then "" else d.selection.text ++ toString d.selected.toNat

end Dice

namespace Expr

/-- Text, in parentheses where wanted. -/
def enclosed (parentheses : Bool) (s : String) : String :=
  if parentheses then "(" ++ s ++ ")" else s

/-- The canonical text of an expression. -/
def text : Expr → String
  | .number value => value.text
  | .dice d => d.text
  | .binary left op right =>
    enclosed (left.precedence < op.precedence) left.text ++ " " ++ op.symbol.toString ++ " " ++
      enclosed (right.precedence ≤ op.precedence) right.text

end Expr

end DiceNotation
