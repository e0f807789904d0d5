import DiceNotation.Sides
/-!
# Thrown dice
-/

namespace DiceNotation

/-- A die that was thrown: what it shows, and the label of the kind of die it is. -/
structure Die where
  /-- What the die shows. -/
  value : Amount
  /-- Which kind of die it is: `6`, `20`, or `f` for a fate die. -/
  label : String
  deriving DecidableEq

namespace Die

/-- A die of a kind that shows `value`. -/
def of (sides : Sides) (value : Amount) : Die := ⟨value, sides.label⟩

@[simp] theorem value_of (sides : Sides) (value : Amount) : (of sides value).value = value := rfl

@[simp] theorem label_of (sides : Sides) (value : Amount) : (of sides value).label = sides.label :=
  rfl

/-- What the die shows, in digits. -/
def text (die : Die) : String := die.value.text

end Die

end DiceNotation
