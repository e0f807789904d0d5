/-!
# Words from a ChaCha keystream

The ChaCha stream cipher with eight rounds, used as a source of random words: a key of eight words
and a counter of 64 bits give a block of sixteen words, and the blocks of the counters `0, 1, 2, …`
one after another give a stream of words. The key is grown from a seed of 64 bits by a
multiplicative congruential generator with a permuted output.
-/

namespace DiceNotation.Random

/-! ## Blocks -/

/-- The words of a key. -/
abbrev Key := Vector UInt32 8

/-- The sixteen words on which the rounds work. -/
abbrev Block := Vector UInt32 16

namespace Block

/-- A word, with its bits moved to the left and those pushed out brought in from the right. -/
def rotate (x : UInt32) (n : UInt32) : UInt32 := (x <<< n) ||| (x >>> (32 - n))

/-- The quarter round on the words at four places. -/
def quarterRound (s : Block) (a b c d : Fin 16) : Block :=
  let s := s.set a (s[a] + s[b])
  let s := s.set d (rotate (s[d] ^^^ s[a]) 16)
  let s := s.set c (s[c] + s[d])
  let s := s.set b (rotate (s[b] ^^^ s[c]) 12)
  let s := s.set a (s[a] + s[b])
  let s := s.set d (rotate (s[d] ^^^ s[a]) 8)
  let s := s.set c (s[c] + s[d])
  s.set b (rotate (s[b] ^^^ s[c]) 7)

/-- A round on the columns and a round on the diagonals. -/
def doubleRound (s : Block) : Block :=
  let s := s.quarterRound 0 4 8 12
  let s := s.quarterRound 1 5 9 13
  let s := s.quarterRound 2 6 10 14
  let s := s.quarterRound 3 7 11 15
  let s := s.quarterRound 0 5 10 15
  let s := s.quarterRound 1 6 11 12
  let s := s.quarterRound 2 7 8 13
  s.quarterRound 3 4 9 14

/-- The words before the rounds: four constants, the key, the counter, and two zeros. -/
def initial (key : Key) (counter : UInt64) : Block :=
  #v[0x61707865, 0x3320646e, 0x79622d32, 0x6b206574,
    key[0], key[1], key[2], key[3], key[4], key[5], key[6], key[7],
    counter.toUInt32, (counter >>> 32).toUInt32, 0, 0]

/-- The words of the block with a counter. -/
def keystream (key : Key) (counter : UInt64) : Block :=
  let first := initial key counter
  let last := first.doubleRound.doubleRound.doubleRound.doubleRound
  first.zipWith (· + ·) last

end Block

/-! ## Keys -/

/-- The state of the generator that grows a key, after one more step. -/
def advance (state : UInt64) : UInt64 := state * 6364136223846793005 + 11634580027462260723

/-- The word that a state of the generator gives. -/
def permuted (state : UInt64) : UInt32 :=
  let x := (((state >>> 18) ^^^ state) >>> 27).toUInt32
  let turn := (state >>> 59).toUInt32
  (x >>> turn) ||| (x <<< ((32 - turn) % 32))

/-- The state of the generator after `n` steps from a seed. -/
def advanced (seed : UInt64) : Nat → UInt64
  | 0 => seed
  | n + 1 => advance (advanced seed n)

/-- The key that is grown from a seed. -/
def keyOfSeed (seed : UInt64) : Key := Vector.ofFn fun i => permuted (advanced seed (i.val + 1))

/-! ## The stream -/

/-- A stream of random words. -/
structure Keystream where
  /-- The key. -/
  key : Key
  /-- The counter of the next block. -/
  counter : UInt64
  /-- The words of the last block that were not taken yet. -/
  pending : List UInt32

namespace Keystream

/-- The stream of a seed. -/
def ofSeed (seed : UInt64) : Keystream := ⟨keyOfSeed seed, 0, []⟩

/-- The next word of the stream. -/
def next (s : Keystream) : UInt32 × Keystream :=
  match s.pending with
  | word :: rest => (word, { s with pending := rest })
  | [] =>
    let block := Block.keystream s.key s.counter
    (block[0], ⟨s.key, s.counter + 1, block.toList.tail⟩)

end Keystream

end DiceNotation.Random
