import DiceNotation.Token
import DiceNotation.Text.Quoted
/-!
# Why a text is no expression

A fault says what is wrong with one token, or with the end of the text where a token is missing. A
`ParseError` is a fault with its place.
-/

namespace DiceNotation

/-- What is wrong at the place where reading stopped. -/
inductive Fault where
  /-- A known token, or the end of the text, stands where another token has to. -/
  | unexpected (found : Option Token.Kind) (expected : List Token.Kind)
  /-- An unknown character stands where a token has to. -/
  | unrecognized (expected : List Token.Kind)
  /-- An integer is too large for the place in which it stands. -/
  | numberTooLarge
  /-- A count of dice or of sides is zero. -/
  | zeroDice
  deriving DecidableEq

/-- A fault at a place in a text. -/
structure ParseError where
  /-- What is wrong. -/
  fault : Fault
  /-- How many characters stand before the place. -/
  position : Nat
  /-- The text of the token at the place; empty at the end of the text. -/
  slice : String
  deriving DecidableEq

namespace Fault

/-- A choice of sorts of token, in words. -/
def choice : List Token.Kind → String
  | [] => ""
  | [a] => a.name
  | [a, b] => a.name ++ " or " ++ b.name
  | kinds =>
    String.join (kinds.dropLast.map fun k => k.name ++ ", ") ++
      "or " ++ (kinds.getLast?.map Token.Kind.name).getD ""

/-- The fault in words. -/
def message : Fault → String
  | .unexpected (some found) expected =>
    "unexpected token: found " ++ found.name ++ ", expected " ++ choice expected
  | .unexpected none expected => "unexpected end of input, expected " ++ choice expected
  | .unrecognized expected => "unrecognized input, expected " ++ choice expected
  | .numberTooLarge => "number is too large"
  | .zeroDice => "dice need a count and a side count of at least 1"

/-- Adds a sort of token to a list in which it stands once at most. -/
def push (kinds : List Token.Kind) (k : Token.Kind) : List Token.Kind :=
  if k ∈ kinds then kinds else kinds ++ [k]

/-- Two faults at one place in one. It is the first of them, and where both are about what stands
there, it expects also what the second one does. -/
def join : Fault → Fault → Fault
  | .unexpected found expected, .unexpected _ more => .unexpected found (more.foldl push expected)
  | fault, _ => fault

/-- The sorts of token that could have come instead. -/
def expected : Fault → List Token.Kind
  | .unexpected _ kinds => kinds
  | .unrecognized kinds => kinds
  | _ => []

/-- The sort of the token that stands at the place, where the fault names it. -/
def found : Fault → Option Token.Kind
  | .unexpected kind _ => kind
  | _ => none

end Fault

namespace ParseError

/-- The stable code of every such error. -/
def code : String := "DiceExpression.InvalidFormat"

/-- Two failures in one: the one that is further in the text, or both of them joined. -/
def merge (e other : ParseError) : ParseError :=
  if e.position < other.position then other
  else if other.position < e.position then e
  else { e with fault := e.fault.join other.fault }

/-- The message for a reader. -/
def message (e : ParseError) : String :=
  "invalid dice expression at position " ++ toString e.position ++ " (" ++ Text.quoted e.slice ++
    "): " ++ e.fault.message

end ParseError

end DiceNotation
