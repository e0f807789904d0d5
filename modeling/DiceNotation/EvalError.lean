import DiceNotation.Text.Quoted
/-!
# Why an expression has no value
-/

namespace DiceNotation

/-- The ways in which building or evaluating an expression fails. -/
inductive EvalError where
  /-- A character that is no operator stands in an operator's place. -/
  | invalidOperator (symbol : Char)
  /-- A divisor is zero, or one of its bounds is. -/
  | divisionByZero
  /-- A result is no amount. -/
  | overflow
  /-- More dice would be thrown than the limit allows. -/
  | tooManyRolls (limit : Nat)
  deriving DecidableEq

namespace EvalError

/-- The stable code of the error. -/
def code : EvalError → String
  | .invalidOperator _ => "DiceExpression.InvalidOperator"
  | .divisionByZero => "DiceExpression.DivisionByZero"
  | .overflow => "DiceExpression.Overflow"
  | .tooManyRolls _ => "DiceExpression.TooManyRolls"

/-- The message for a reader. -/
def message : EvalError → String
  | .invalidOperator symbol => "invalid operator " ++ Text.quotedChar symbol
  | .divisionByZero => "cannot divide by zero"
  | .overflow => "arithmetic overflow"
  | .tooManyRolls limit => "too many dice rolled (limit is " ++ toString limit ++ ")"

end EvalError

end DiceNotation
