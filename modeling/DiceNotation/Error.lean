import DiceNotation.EvalError
import DiceNotation.ParseError
import DiceNotation.RollId
/-!
# Why a roll could not be made or found
-/

namespace DiceNotation

/-- The ways in which making or finding a roll fails. -/
inductive Error where
  /-- The text is no expression. -/
  | parse (e : ParseError)
  /-- The expression has no value. -/
  | eval (e : EvalError)
  /-- There is no roll of this identity. -/
  | notFound (id : RollId)
  deriving DecidableEq

namespace Error

/-- The stable code of the error. -/
def code : Error → String
  | .parse _ => ParseError.code
  | .eval e => e.code
  | .notFound _ => "Roll.NotFound"

/-- The message for a reader, when identities go by the given names. -/
def messageWith (name : RollId → String) : Error → String
  | .parse e => e.message
  | .eval e => e.message
  | .notFound id => "roll " ++ name id ++ " not found"

/-- The message for a reader. -/
def message (e : Error) : String := e.messageWith RollId.text

end Error

end DiceNotation
