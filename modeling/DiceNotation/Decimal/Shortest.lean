/-!
# The shortest decimal in an interval

Every decimal number is `d * 10 ^ k` for a natural number `d` and an exponent `k`, a point of the
grid of spacing `10 ^ k`. `shortest` walks the grids from coarse to fine and takes the first one
with a point in the interval; on that grid only the two neighbours of the wanted number need to be
looked at, and the nearer one is taken, a tie going up.

All numbers are given over one common scale `2 ^ q`, so that the search is exact arithmetic on
natural numbers.
-/

namespace DiceNotation.Decimal

/-- The numbers that stand for one number, all over the scale `2 ^ q`: from `low` to `high`, the
ends included when `closed`, and the number itself, `mid`. -/
structure Span where
  /-- The lower end. -/
  low : Nat
  /-- The number itself. -/
  mid : Nat
  /-- The upper end. -/
  high : Nat
  /-- The exponent of the scale. -/
  q : Int
  /-- Whether the ends stand for the number too. -/
  closed : Bool

namespace Span

/-- The factors that bring `2 ^ q` and `10 ^ k` to natural numbers: `n * 2 ^ q` is below `10 ^ k`
exactly when `n * s.1` is below `s.2`. -/
def scale (s : Span) (k : Int) : Nat × Nat :=
  (Nat.pow 10 (-k).toNat <<< s.q.toNat, Nat.pow 10 k.toNat <<< (-s.q).toNat)

/-- The point of the grid of spacing `10 ^ k` that stands for the number best, if the interval
holds one. -/
def nearest? (s : Span) (k : Int) : Option Nat :=
  let (up, down) := s.scale k
  let below := s.mid * up / down
  let rest := s.mid * up % down
  let fitsBelow := if s.closed then s.low * up ≤ below * down else s.low * up < below * down
  let fitsAbove :=
    if s.closed then (below + 1) * down ≤ s.high * up else (below + 1) * down < s.high * up
  if fitsBelow then
    if fitsAbove ∧ down ≤ 2 * rest then some (below + 1) else some below
  else if fitsAbove then some (below + 1)
  else none

/-- The first of `n` grids, from spacing `10 ^ k` downwards, that has a point in the interval. -/
def search (s : Span) : Nat → Int → Option (Nat × Int)
  | 0, _ => none
  | n + 1, k =>
    match s.nearest? k with
    | some d => some (d, k)
    | none => search s n (k - 1)

end Span

end DiceNotation.Decimal
