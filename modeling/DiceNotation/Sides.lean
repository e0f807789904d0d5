import DiceNotation.Amount
/-!
# Kinds of dice

A die has either a positive number of numbered faces or is a fate die with the faces `-1`, `0` and
`1`. Where a kind of die is written as one number, zero stands for the fate die.
-/

namespace DiceNotation

/-- The kind of a die. -/
inductive Sides where
  /-- A fate die. -/
  | fate
  /-- A die whose faces are numbered from one. -/
  | poly (faces : UInt32) (faces_pos : 0 < faces)
  deriving DecidableEq

namespace Sides

/-- The kind of die that a number stands for. -/
def ofNumber (n : UInt32) : Sides :=
  if h : 0 < n then .poly n h else .fate

/-- The number that stands for a kind of die. -/
def number : Sides → UInt32
  | .fate => 0
  | .poly faces _ => faces

@[simp] theorem number_ofNumber (n : UInt32) : (ofNumber n).number = n := by
  unfold ofNumber
  split
  · rfl
  · rename_i h
    exact (UInt32.le_antisymm (UInt32.not_lt.1 h) (UInt32.zero_le)).symm

@[simp] theorem ofNumber_number (s : Sides) : ofNumber s.number = s := by
  cases s with
  | fate => rfl
  | poly faces h => simp [ofNumber, number, h]

/-- The lowest face. -/
def lowest : Sides → Amount
  | .fate => Amount.minusOne
  | .poly _ _ => Amount.one

/-- The highest face, which makes an exploding die be thrown again. -/
def highest : Sides → Amount
  | .fate => Amount.one
  | .poly faces _ => Amount.ofUInt32 faces

/-- The average of the faces. -/
def average : Sides → Float
  | .fate => 0
  | .poly faces _ => (1 + faces.toFloat) / 2

/-- How the kind of die is written after the `d`, and the label on each of its dice. -/
def label : Sides → String
  | .fate => "f"
  | .poly faces _ => toString faces.toNat

end Sides

end DiceNotation
