/-!
# Unsigned numbers of 64 bits

Digits after an optional plus sign, of a value below `2 ^ 64`.
-/

namespace DiceNotation.Text

/-- The number of 64 bits that the text stands for. -/
def word64? (cs : List Char) : Option Nat :=
  let digits := match cs with
    | '+' :: rest => rest
    | _ => cs
  if digits.isEmpty || !digits.all Char.isDigit then none
  else
    let n := Nat.ofDigitChars 10 digits 0
    if n < UInt64.size then some n else none

end DiceNotation.Text
