import DiceNotation.Die
/-!
# Keeping and dropping dice

Of the dice thrown, a selection keeps or drops some number of the highest or of the lowest. Dice
are ranked by what they show, and of equal dice the one thrown earlier comes first. The kept dice
stay in the order in which they were thrown.
-/

namespace DiceNotation

/-- Which dice of a throw count. -/
inductive Selection where
  /-- Every die. -/
  | all
  | keepHighest
  | keepLowest
  | dropHighest
  | dropLowest
  deriving DecidableEq

namespace Selection

/-- How the selection is written: nothing where every die counts. -/
def text : Selection → String
  | .all => ""
  | .keepHighest => "kh"
  | .keepLowest => "kl"
  | .dropHighest => "dh"
  | .dropLowest => "dl"

/-- The selection that keeps (or drops) the highest (or the lowest). -/
def of (keep highest : Bool) : Selection :=
  match keep, highest with
  | true, true => .keepHighest
  | true, false => .keepLowest
  | false, true => .dropHighest
  | false, false => .dropLowest

/-- A die with its place in the throw. -/
abbrev Placed := Die × Nat

/-- The dice from the highest to the lowest, of equal dice the earlier one first. -/
def descending (dice : List Die) : List Placed :=
  dice.zipIdx.mergeSort fun a b => b.1.value.val ≤ a.1.value.val

/-- The dice from the lowest to the highest, of equal dice the earlier one first. -/
def ascending (dice : List Die) : List Placed :=
  dice.zipIdx.mergeSort fun a b => a.1.value.val ≤ b.1.value.val

/-- Puts dice back into the order of the throw. -/
def inOrder (placed : List Placed) : List Die :=
  (placed.mergeSort fun a b => a.2 ≤ b.2).map Prod.fst

/-- The dice that count, when `n` dice are to be kept or dropped. -/
def select (selection : Selection) (n : Nat) (dice : List Die) : List Die :=
  match selection with
  | .all => dice
  | .keepHighest => inOrder ((descending dice).take n)
  | .keepLowest => inOrder ((ascending dice).take n)
  | .dropHighest => inOrder ((descending dice).drop n)
  | .dropLowest => inOrder ((ascending dice).drop n)

end Selection

end DiceNotation
