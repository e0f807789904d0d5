import DiceNotation.Operator
import DiceNotation.Selection
/-!
# Dice expressions

An expression is a number, a throw of equal dice, or two expressions with an operator between them.
Any such tree may be built, also one that no text stands for, such as a throw of no dice at all.

In a text an expression has operators that bind loosely, between terms that have operators that bind
tightly, between factors that have none (`Grammar.Part`).
-/

namespace DiceNotation

/-- A throw of `count` equal dice. -/
structure Dice where
  /-- How many dice are thrown. -/
  count : UInt32
  /-- The kind of the dice. -/
  sides : Sides
  /-- Whether a die that shows its highest face is thrown again in addition. -/
  explodes : Bool
  /-- Which of the dice count. -/
  selection : Selection
  /-- How many dice the selection keeps or drops; of no effect where every die counts. -/
  selected : UInt32
  deriving DecidableEq

/-- A dice expression. -/
inductive Expr where
  /-- A number. -/
  | number (value : Amount)
  /-- A throw of dice. -/
  | dice (dice : Dice)
  /-- Two expressions with an operator between them. -/
  | binary (left : Expr) (op : Operator) (right : Expr)
  deriving DecidableEq

namespace Dice

/-- Dice that neither explode nor are selected from. -/
def plain (count : UInt32) (sides : Sides) : Dice := ⟨count, sides, false, .all, 1⟩

end Dice

namespace Expr

/-- How tightly the expression holds together: an operation as its operator does, and anything else
more tightly than every operator. -/
def precedence : Expr → Nat
  | .binary _ op _ => op.precedence
  | _ => 3

end Expr

/-! ## Parts of the grammar -/

namespace Grammar

/-- The parts of the grammar. -/
inductive Part where
  | expression
  | term
  | factor
  deriving DecidableEq

namespace Part

/-- What stands between the operators of a part. -/
def operand : Part → Part
  | .expression => .term
  | .term | .factor => .factor

/-- How tightly the operators of a part bind; a factor has none. -/
def precedence : Part → Nat
  | .expression => 1
  | .term => 2
  | .factor => 3

end Part

end Grammar

end DiceNotation
