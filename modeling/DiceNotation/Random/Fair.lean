import DiceNotation.Random.ChaCha
import DiceNotation.Source
/-!
# Fair dice from random words

To draw one of `range` equally likely numbers from a random word of `bits` bits, the word is
multiplied by `range`: the high half of the product is the number drawn. The low half says whether
the word is used at all. It is refused beyond a bound, the *zone*, that leaves equally many words
to every number, and then the next word is tried.
-/

namespace DiceNotation.Random

/-- A supply of random words with states in `ω`. -/
abbrev Words (ω : Type) := ω → UInt32 × ω

/-- The greatest low half with which a word is used: one less than `range` shifted to the left as
far as the bits of a word allow. -/
def zone {bits : Nat} (range : BitVec bits) : BitVec bits := range <<< range.clz - 1

/-- The number below `range` that a word draws, if it is used. The product has twice as many bits as
the word. -/
def pickWord {bits : Nat} (range word : BitVec bits) : Option (BitVec bits) :=
  let product := word.setWidth (bits + bits) * range.setWidth (bits + bits)
  if product.setWidth bits ≤ zone range then some ((product >>> bits).setWidth bits) else none

/-- The number below `range` that a word of `bits` bits draws, if it is used, as a natural number.
-/
def pick? (bits range word : Nat) : Option Nat :=
  (pickWord (.ofNat bits range) (.ofNat bits word)).map BitVec.toNat

/-- The number that the first of at most `attempts` words draws that is used. -/
def draw {ω : Type} (next : ω → Nat × ω) (bits range : Nat) : Nat → ω → Option Nat × ω
  | 0, state => (none, state)
  | attempts + 1, state =>
    let (word, state) := next state
    match pick? bits range word with
    | some n => (some n, state)
    | none => draw next bits range attempts state

/-- A word of 32 bits as a number. -/
def word32 {ω : Type} (words : Words ω) (state : ω) : Nat × ω :=
  let (word, state) := words state
  (word.toNat, state)

/-- A word of 64 bits as a number: the next word is its low half, and the one after its high
half. -/
def word64 {ω : Type} (words : Words ω) (state : ω) : Nat × ω :=
  let (low, state) := words state
  let (high, state) := words state
  (low.toNat + (high.toNat <<< 32), state)

/-- How many words are tried for one die. The trying itself has no bound of its own: a supply of
which all words are refused would be asked for ever. The bound makes the draw end there as well, and
at least half of all words are used, so that a supply of random words does not come to it. -/
def attempts : Nat := 0x10000000000000000

/-- The face of a kind of die that has number `n`, counted from the lowest face, which is number
zero. -/
def face (sides : Sides) (n : Nat) : Amount :=
  (Amount.ofInt? (sides.lowest.val + n)).getD sides.lowest

/-- How many faces a kind of die has, and how many bits of random words a die of the kind takes at
once. -/
def faces : Sides → Nat × Nat
  | .fate => (3, 64)
  | .poly n _ => (n.toNat, 32)

/-- The source of fair dice from a supply of random words. Where as many words as are tried are all
refused, the die shows its lowest face: no draw of fair dice ends there, and what the source gives
then stands for no draw. -/
def source {ω : Type} (words : Words ω) : Source ω :=
  fun state sides =>
    let (range, bits) := faces sides
    let next := if bits = 64 then word64 words else word32 words
    let (n, state) := draw next bits range attempts state
    (Die.of sides (face sides (n.getD 0)), state)

/-- The source of fair dice from the keystream of a seed. -/
def seeded : Source Keystream := source Keystream.next

end DiceNotation.Random
