import DiceNotation.Decimal.Shortest
/-!
# Decimal text of floating-point numbers

A number is written with the fewest digits that read back to it, positionally and never with an
exponent: `3.5`, `7`, `-0`, `0.0000001`. The two infinities are `inf` and `-inf`, and `NaN` has no
sign.

A number is read from an optional sign and either `inf`, `infinity` or `nan` in any case, or digits
with an optional point and an optional exponent, at least one digit standing before the exponent;
the value is rounded to the nearest number, so a large one is an infinity.
-/

namespace DiceNotation.Decimal

/-! ## Writing -/

/-- The numbers that round to the positive number `m * 2 ^ q`. Below a power of two the numbers lie
twice as dense, so the lower end is nearer there. The ends round to the number itself when `m` is
even. -/
def spanOf (m : Nat) (q : Int) : Span where
  low := if m = 0x10000000000000 ∧ -1074 < q then 4 * m - 1 else 4 * m - 2
  mid := 4 * m
  high := 4 * m + 2
  q := q - 2
  closed := m % 2 = 0

/-- The digits and the exponent of the shortest decimal for `m * 2 ^ q`. -/
def shortest (m : Nat) (q : Int) : Nat × Int :=
  ((spanOf m q).search 700 310).getD (0, 0)

/-- `d * 10 ^ k` in positional notation, with no zero at the end of a fraction. -/
def positional (d : Nat) (k : Int) : List Char :=
  let digits := Nat.toDigits 10 d
  if 0 ≤ k then digits ++ List.replicate k.toNat '0'
  else
    let places := (-k).toNat
    let padded := List.replicate (places + 1 - digits.length) '0' ++ digits
    let whole := padded.take (padded.length - places)
    let fraction := (padded.drop (padded.length - places)).reverse.dropWhile (· == '0') |>.reverse
    if fraction.isEmpty then whole else whole ++ '.' :: fraction

/-- The text of a floating-point number. -/
def text (x : Float) : String :=
  let bits : Nat := x.toBits.toNat
  let exponent : Nat := (bits >>> 52) % 2048
  let mantissa : Nat := bits % 0x10000000000000
  let sign := if bits < 0x8000000000000000 then "" else "-"
  if exponent = 2047 then
    if mantissa = 0 then sign ++ "inf" else "NaN"
  else if exponent = 0 ∧ mantissa = 0 then sign ++ "0"
  else
    let (m, q) :=
      if exponent = 0 then (mantissa, (-1074 : Int))
      else (mantissa + 0x10000000000000, (exponent : Int) - 1075)
    let (d, k) := shortest m q
    sign ++ String.ofList (positional d k)

/-! ## Reading -/

/-- `digits * 10 ^ exponent`, rounded to the nearest floating-point number. -/
def ofDigits (negative : Bool) (digits : Nat) (exponent : Int) : Float :=
  let x := Float.ofScientific digits (exponent < 0) exponent.natAbs
  if negative then -x else x

/-- An optional minus or plus sign: whether it is a minus, and what follows it. -/
def signed : List Char → Bool × List Char
  | '-' :: rest => (true, rest)
  | '+' :: rest => (false, rest)
  | rest => (false, rest)

/-- The number that a nonempty run of digits stands for. -/
def natural? (cs : List Char) : Option Nat :=
  if cs.isEmpty || !cs.all Char.isDigit then none else some (Nat.ofDigitChars 10 cs 0)

/-- The exponent part: nothing, or `e` and a signed natural number. -/
def exponent? : List Char → Option Int
  | [] => some 0
  | c :: rest =>
    if c = 'e' ∨ c = 'E' then
      let (negative, digits) := signed rest
      (natural? digits).map fun n => if negative then -n else n
    else none

/-- Reads digits with an optional point, and an exponent. -/
def unsigned? (cs : List Char) (negative : Bool) : Option Float :=
  let whole := cs.takeWhile Char.isDigit
  let afterWhole := cs.dropWhile Char.isDigit
  let (fraction, rest) :=
    match afterWhole with
    | '.' :: more => (more.takeWhile Char.isDigit, more.dropWhile Char.isDigit)
    | _ => ([], afterWhole)
  if whole.isEmpty && fraction.isEmpty then none
  else (exponent? rest).map fun e =>
    ofDigits negative (Nat.ofDigitChars 10 (whole ++ fraction) 0) (e - fraction.length)

/-- Not a number. -/
def nan : Float := Float.ofBits 0x7ff8000000000000

/-- Positive infinity. -/
def infinity : Float := Float.ofBits 0x7ff0000000000000

/-- Reads a floating-point number. -/
def ofText? (s : String) : Option Float :=
  let (negative, rest) := signed s.toList
  let word := rest.map Char.toLower
  if word = "inf".toList ∨ word = "infinity".toList then
    some (if negative then -infinity else infinity)
  else if word = "nan".toList then some nan
  else unsigned? rest negative

end DiceNotation.Decimal
