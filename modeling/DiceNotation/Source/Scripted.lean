import DiceNotation.Source
/-!
# Scripted dice

A source that answers from a list, whatever it is asked, and with the lowest face once the list has
come to its end.
-/

namespace DiceNotation

/-- An entry of a script. -/
inductive Scripted where
  /-- A die of the kind asked for that shows this, even if the kind has no such face. -/
  | shows (value : Amount)
  /-- This very die, even if it is of another kind. -/
  | die (d : Die)
  deriving DecidableEq

namespace Scripted

/-- The die that an entry answers with. -/
def answer (sides : Sides) : Scripted → Die
  | .shows value => Die.of sides value
  | .die d => d

/-- The source that takes one entry after the other. -/
def source : Source (List Scripted)
  | [], sides => (Die.of sides sides.lowest, [])
  | entry :: rest, sides => (entry.answer sides, rest)

@[simp] theorem source_nil (sides : Sides) :
    source [] sides = (Die.of sides sides.lowest, []) := rfl

@[simp] theorem source_cons (entry : Scripted) (rest : List Scripted) (sides : Sides) :
    source (entry :: rest) sides = (entry.answer sides, rest) := rfl

end Scripted

end DiceNotation
