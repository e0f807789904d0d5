import DiceNotation.Random.Fair
import DiceNotation.Proofs.Source.Rule
import Mathlib
/-!
# Fair dice are fair

A die from random words shows one of its faces and bears the label of its kind, and each face is
drawn by equally many of the words that are used (`Random.source_fair`).

Words are of fixed width, and so are the shift, the subtraction and the product of which a draw
consists. They give what natural numbers give (`Random.pick?_eq`): nothing is lost at the upper end.

A word draws the number `n` below `range` if its product with `range` lies in a window of the
numbers from `n * 2 ^ bits` on (`Random.pick?_eq_some`). The window is as wide as `range` shifted to
the left as far as it goes, which is a multiple of `range`. So it holds equally many multiples of
`range` for every `n`, and they are the products of words (`Random.card_words`). Together these are
at least half of all words (`Random.half_le_card_used`).
-/

namespace DiceNotation.Random

/-! ## Words of fixed width -/

/-- How many of `bits` bits stand before the highest one of `range`. -/
def leadingZeros (bits range : Nat) : Nat := bits - (range.log2 + 1)

/-- Shifted to the left so far, no bit is pushed out. -/
lemma shifted_lt {bits range : Nat} (hlt : range < 2 ^ bits) :
    range * 2 ^ leadingZeros bits range < 2 ^ bits := by
  by_cases hr : range = 0
  · rw [hr, Nat.zero_mul]
    exact Nat.two_pow_pos bits
  · have hlog : range.log2 + 1 ≤ bits := (Nat.log2_lt hr).2 hlt
    calc range * 2 ^ leadingZeros bits range
        < 2 ^ (range.log2 + 1) * 2 ^ leadingZeros bits range :=
          Nat.mul_lt_mul_of_pos_right Nat.lt_log2_self (Nat.two_pow_pos _)
      _ = 2 ^ bits := by rw [← pow_add, leadingZeros, Nat.add_sub_cancel' hlog]

section

variable {bits : Nat} {range word : BitVec bits}

/-- The bits before the highest one of a number are the leading zeros of the word. -/
lemma leadingZeros_toNat (hr : 0 < range.toNat) :
    leadingZeros bits range.toNat = range.clz.toNat := by
  have hne : range ≠ 0 := by
    rintro rfl
    exact Nat.ne_of_gt hr BitVec.toNat_zero
  have hbits : 0 < bits := by
    refine Nat.pos_of_ne_zero ?_
    rintro rfl
    exact Nat.ne_of_gt hr (BitVec.toNat_of_zero_length rfl range)
  have hclz : range.clz.toNat < bits := by
    have hlt := BitVec.lt_def.1 (BitVec.clz_lt_iff_ne_zero.2 hne)
    rwa [BitVec.natCast_eq_ofNat, BitVec.toNat_ofNat,
      Nat.mod_eq_of_lt Nat.lt_two_pow_self] at hlt
  have hlower := BitVec.two_pow_sub_clz_le_toNat_of_ne_zero hbits hne
  have hupper := BitVec.toNat_lt_two_pow_sub_clz (x := range)
  have hlog : range.toNat.log2 = bits - 1 - range.clz.toNat := by
    refine (Nat.log2_eq_iff hr.ne').2 ⟨hlower, hupper.trans_eq ?_⟩
    congr 1
    omega
  rw [leadingZeros, hlog]
  omega

/-- The shift to the left and the subtraction stay within a word. -/
lemma toNat_zone (hr : 0 < range.toNat) :
    (zone range).toNat = range.toNat * 2 ^ leadingZeros bits range.toNat - 1 := by
  have hshifted : (range <<< range.clz).toNat =
      range.toNat * 2 ^ leadingZeros bits range.toNat := by
    rw [BitVec.shiftLeft_eq', BitVec.toNat_shiftLeft, ← leadingZeros_toNat hr, Nat.shiftLeft_eq,
      Nat.mod_eq_of_lt (shifted_lt range.isLt)]
  have hpos : 0 < range.toNat * 2 ^ leadingZeros bits range.toNat :=
    Nat.mul_pos hr (Nat.two_pow_pos _)
  have hone : (1 : BitVec bits).toNat = 1 := by
    have hwidth := shifted_lt range.isLt
    exact Nat.mod_eq_of_lt (by omega : 1 < 2 ^ bits)
  have hle : (1 : BitVec bits) ≤ range <<< range.clz := by
    rw [BitVec.le_def, hone, hshifted]
    exact hpos
  rw [zone, BitVec.toNat_sub_of_le hle, hshifted, hone]

/-- The product of two words fits twice as many bits. -/
lemma toNat_product :
    (word.setWidth (bits + bits) * range.setWidth (bits + bits)).toNat =
      word.toNat * range.toNat := by
  have hwidth : bits ≤ bits + bits := Nat.le_add_right bits bits
  rw [BitVec.toNat_mul_of_lt] <;>
    rw [BitVec.toNat_setWidth_of_le hwidth, BitVec.toNat_setWidth_of_le hwidth]
  rw [pow_add]
  exact Nat.mul_lt_mul'' word.isLt range.isLt

/-- A word draws the high half of the product, if the low half is below `range` shifted to the left.
-/
lemma map_toNat_pickWord (hr : 0 < range.toNat) :
    (pickWord range word).map BitVec.toNat =
      if word.toNat * range.toNat % 2 ^ bits <
          range.toNat * 2 ^ leadingZeros bits range.toNat then
        some (word.toNat * range.toNat / 2 ^ bits)
      else none := by
  have hpos : 0 < range.toNat * 2 ^ leadingZeros bits range.toNat :=
    Nat.mul_pos hr (Nat.two_pow_pos _)
  have hzone : ((word.setWidth (bits + bits) * range.setWidth (bits + bits)).setWidth bits ≤
      zone range) ↔ word.toNat * range.toNat % 2 ^ bits <
        range.toNat * 2 ^ leadingZeros bits range.toNat := by
    rw [BitVec.le_def, BitVec.toNat_setWidth, toNat_product, toNat_zone hr]
    omega
  have hhigh : (((word.setWidth (bits + bits) * range.setWidth (bits + bits)) >>> bits).setWidth
      bits).toNat = word.toNat * range.toNat / 2 ^ bits := by
    rw [BitVec.toNat_setWidth, BitVec.toNat_ushiftRight, toNat_product, Nat.shiftRight_eq_div_pow]
    exact Nat.mod_eq_of_lt (Nat.div_lt_of_lt_mul (Nat.mul_lt_mul'' word.isLt range.isLt))
  rw [pickWord]
  simp only [hzone]
  split
  · rw [Option.map_some, hhigh]
  · rfl

end

/-! ## The words that draw a number -/

section

variable {bits range n word : Nat}

/-- Words of fixed width draw as natural numbers do: nothing is lost at the upper end. -/
lemma pick?_eq (hr : 0 < range) (hlt : range < 2 ^ bits) (hword : word < 2 ^ bits) :
    pick? bits range word =
      if word * range % 2 ^ bits < range * 2 ^ leadingZeros bits range then
        some (word * range / 2 ^ bits)
      else none := by
  have hrange : (BitVec.ofNat bits range).toNat = range := Nat.mod_eq_of_lt hlt
  have hwords : (BitVec.ofNat bits word).toNat = word := Nat.mod_eq_of_lt hword
  rw [pick?, map_toNat_pickWord (by rwa [hrange]), hrange, hwords]

/-- A word draws the number in whose window its product with `range` lies. -/
lemma pick?_eq_some (hr : 0 < range) (hlt : range < 2 ^ bits) (hword : word < 2 ^ bits) :
    pick? bits range word = some n ↔ n * 2 ^ bits ≤ range * word ∧
      range * word < n * 2 ^ bits + range * 2 ^ leadingZeros bits range := by
  have hwidth := shifted_lt hlt
  have hsplit := Nat.div_add_mod' (range * word) (2 ^ bits)
  have hlow := Nat.mod_lt (range * word) (Nat.two_pow_pos bits)
  rw [pick?_eq hr hlt hword, Nat.mul_comm word range]
  simp only [Option.ite_none_right_eq_some, Option.some.injEq]
  constructor
  · rintro ⟨hused, rfl⟩
    omega
  · rintro ⟨hle, hlt'⟩
    have hn : range * word / 2 ^ bits = n := by
      refine Nat.div_eq_of_lt_le hle ?_
      rw [Nat.succ_mul]
      omega
    rw [hn] at hsplit
    exact ⟨by omega, hn⟩

/-- What a word draws is below `range`. -/
lemma lt_of_pick? (hr : 0 < range) (hlt : range < 2 ^ bits) (hword : word < 2 ^ bits)
    (h : pick? bits range word = some n) : n < range := by
  have hle := ((pick?_eq_some hr hlt hword).1 h).1
  have hproduct : range * word < range * 2 ^ bits := Nat.mul_lt_mul_of_pos_left hword hr
  exact Nat.lt_of_mul_lt_mul_right (hle.trans_lt hproduct)

/-- A quotient rounded up goes up by `p` as the dividend goes up by `p` divisors. -/
lemma ceilDiv_add_mul (hr : 0 < range) (m p : Nat) :
    (m + range * p) ⌈/⌉ range = m ⌈/⌉ range + p := by
  rw [Nat.ceilDiv_eq_add_pred_div, Nat.ceilDiv_eq_add_pred_div, ← Nat.add_mul_div_left _ _ hr]
  congr 1
  omega

/-- A word lies before a quotient rounded up if its product lies before the dividend. -/
lemma lt_ceilDiv_iff (hr : 0 < range) {m : Nat} : word < m ⌈/⌉ range ↔ range * word < m := by
  rw [← not_le, ceilDiv_le_iff_le_mul hr, not_le]

/-- Every number below `range` is drawn by equally many words. -/
theorem card_words (hlt : range < 2 ^ bits) (hn : n < range) :
    ((Finset.range (2 ^ bits)).filter fun word => pick? bits range word = some n).card =
      2 ^ leadingZeros bits range := by
  have hr : 0 < range := Nat.zero_lt_of_lt hn
  have hwindow : ((Finset.range (2 ^ bits)).filter fun word => pick? bits range word = some n) =
      Finset.Ico (n * 2 ^ bits ⌈/⌉ range)
        ((n * 2 ^ bits + range * 2 ^ leadingZeros bits range) ⌈/⌉ range) := by
    ext word
    rw [Finset.mem_filter, Finset.mem_range, Finset.mem_Ico, ceilDiv_le_iff_le_mul hr,
      lt_ceilDiv_iff hr]
    constructor
    · rintro ⟨hword, hpick⟩
      exact (pick?_eq_some hr hlt hword).1 hpick
    · -- The windows of the numbers below `range` hold products of words only.
      rintro ⟨hle, hproduct⟩
      have hnext : (n + 1) * 2 ^ bits ≤ range * 2 ^ bits := Nat.mul_le_mul_right _ hn
      have hwidth := shifted_lt hlt
      rw [Nat.succ_mul] at hnext
      have hword : word < 2 ^ bits :=
        Nat.lt_of_mul_lt_mul_left (by omega : range * word < range * 2 ^ bits)
      exact ⟨hword, (pick?_eq_some hr hlt hword).2 ⟨hle, hproduct⟩⟩
  rw [hwindow, Nat.card_Ico, ceilDiv_add_mul hr, Nat.add_sub_cancel_left]

/-- The words that are used are as many as the shifted `range` says. -/
theorem card_used (hr : 0 < range) (hlt : range < 2 ^ bits) :
    ((Finset.range (2 ^ bits)).filter fun word => (pick? bits range word).isSome).card =
      range * 2 ^ leadingZeros bits range := by
  have hmaps : ∀ word ∈ (Finset.range (2 ^ bits)).filter fun w => (pick? bits range w).isSome,
      (pick? bits range word).getD 0 ∈ Finset.range range := by
    intro word hword
    obtain ⟨hmem, hsome⟩ := Finset.mem_filter.1 hword
    obtain ⟨n, hn⟩ := Option.isSome_iff_exists.1 hsome
    rw [hn, Option.getD_some, Finset.mem_range]
    exact lt_of_pick? hr hlt (Finset.mem_range.1 hmem) hn
  have hfibers : ∀ n ∈ Finset.range range,
      (((Finset.range (2 ^ bits)).filter fun word => (pick? bits range word).isSome).filter
        fun word => (pick? bits range word).getD 0 = n).card = 2 ^ leadingZeros bits range := by
    intro n hn
    rw [← card_words hlt (Finset.mem_range.1 hn), Finset.filter_filter]
    congr 1
    refine Finset.filter_congr ?_
    intro word _
    cases pick? bits range word <;> simp
  rw [Finset.card_eq_sum_card_fiberwise hmaps, Finset.sum_const_nat hfibers, Finset.card_range]

/-- At least half of all words are used. -/
theorem half_le_card_used (hr : 0 < range) (hlt : range < 2 ^ bits) :
    2 ^ bits ≤ 2 * ((Finset.range (2 ^ bits)).filter fun word =>
      (pick? bits range word).isSome).card := by
  have hlog : range.log2 + 1 ≤ bits := (Nat.log2_lt hr.ne').2 hlt
  rw [card_used hr hlt]
  calc 2 ^ bits = 2 * (2 ^ range.log2 * 2 ^ leadingZeros bits range) := by
        rw [← pow_add, ← pow_succ', leadingZeros]
        congr 1
        omega
    _ ≤ 2 * (range * 2 ^ leadingZeros bits range) :=
        Nat.mul_le_mul_left _ (Nat.mul_le_mul_right _ (Nat.log2_self_le hr.ne'))

end

/-! ## Trying word after word -/

section

variable {ω : Type} {next : ω → Nat × ω} {bits range n refused limit : Nat} {state last : ω}

/-- From a state on, some words are refused, and then one draws the number `n` and leaves the state
`last`. -/
inductive Draws (next : ω → Nat × ω) (bits range : Nat) : ω → Nat → Nat → ω → Prop where
  /-- The first word is used. -/
  | used {state : ω} {n : Nat} (h : pick? bits range (next state).1 = some n) :
      Draws next bits range state 0 n (next state).2
  /-- The first word is refused. -/
  | refused {state last : ω} {refused n : Nat} (h : pick? bits range (next state).1 = none)
      (rest : Draws next bits range (next state).2 refused n last) :
      Draws next bits range state (refused + 1) n last

/-- A number is drawn within a limit if fewer words than that are refused before. -/
theorem draw_eq_some_iff :
    draw next bits range limit state = (some n, last) ↔
      ∃ refused < limit, Draws next bits range state refused n last := by
  induction limit generalizing state with
  | zero => simp [draw]
  | succ limit ih =>
    rw [draw]
    cases hpick : pick? bits range (next state).1 with
    | some m =>
      simp only [hpick, Prod.mk.injEq, Option.some.injEq]
      constructor
      · rintro ⟨rfl, rfl⟩
        exact ⟨0, Nat.zero_lt_succ limit, .used hpick⟩
      · rintro ⟨refused, -, hdraws⟩
        cases hdraws with
        | used h => exact ⟨Option.some.inj (hpick.symm.trans h), rfl⟩
        | refused h rest => exact absurd (hpick.symm.trans h) nofun
    | none =>
      simp only [hpick, ih]
      constructor
      · rintro ⟨refused, hlt, hdraws⟩
        exact ⟨refused + 1, Nat.succ_lt_succ hlt, .refused hpick hdraws⟩
      · rintro ⟨refused, hlt, hdraws⟩
        cases hdraws with
        | used h => exact absurd (hpick.symm.trans h) nofun
        | refused h rest => exact ⟨_, Nat.lt_of_succ_lt_succ hlt, rest⟩

/-- What is drawn is below `range`, if the words are words of `bits` bits. -/
lemma Draws.lt (hr : 0 < range) (hlt : range < 2 ^ bits) (hnext : ∀ s, (next s).1 < 2 ^ bits)
    (h : Draws next bits range state refused n last) : n < range := by
  induction h with
  | used h => exact lt_of_pick? hr hlt (hnext _) h
  | refused _ _ ih => exact ih

end

/-! ## Faces -/

/-- The words from which a die of a kind is drawn, as numbers. -/
def supply {ω : Type} (words : Words ω) : Sides → ω → Nat × ω
  | .fate => word64 words
  | .poly _ _ => word32 words

/-- The face of a die of a kind that a word shows, if it is used. -/
def shown? (sides : Sides) (word : Nat) : Option Amount :=
  (pick? (faces sides).2 (faces sides).1 word).map (face sides)

/-- How many words show each face of a kind of die. The exponent counts the leading zeros of the
number of faces, in a word of as many bits as the die takes. -/
def wordsPerFace : Sides → Nat
  | .fate => 2 ^ 62
  | .poly n _ => 2 ^ n.toBitVec.clz.toNat

section

variable {ω : Type} {words : Words ω} {sides : Sides} {n : Nat} {state : ω}

/-- A kind of die has a face. -/
lemma faces_pos (sides : Sides) : 0 < (faces sides).1 := by
  cases sides with
  | fate => exact Nat.succ_pos 2
  | poly n pos => exact UInt32.lt_iff_toNat_lt.1 pos

/-- A word has room for the number of faces. -/
lemma faces_lt (sides : Sides) : (faces sides).1 < 2 ^ (faces sides).2 := by
  cases sides with
  | fate => decide
  | poly n pos => exact n.toNat_lt

/-- The words are words of as many bits as a die takes. -/
lemma supply_lt (words : Words ω) (sides : Sides) (state : ω) :
    (supply words sides state).1 < 2 ^ (faces sides).2 := by
  cases sides with
  | fate =>
    have hlow := (words state).1.toNat_lt
    have hhigh := (words (words state).2).1.toNat_lt
    change (words state).1.toNat + (words (words state).2).1.toNat <<< 32 < 2 ^ 64
    rw [Nat.shiftLeft_eq]
    omega
  | poly n pos => exact (words state).1.toNat_lt

/-- The faces of a die go up by one from the lowest to the highest. -/
lemma highest_eq (sides : Sides) :
    sides.highest.val = sides.lowest.val + (faces sides).1 - 1 := by
  cases sides with
  | fate => rfl
  | poly n pos =>
    change (n.toNat : Int) = 1 + n.toNat - 1
    omega

/-- A face is as far above the lowest one as its number says. -/
lemma val_face (h : n < (faces sides).1) : (face sides n).val = sides.lowest.val + n := by
  have hlowest := sides.lowest.lower
  have hhighest := sides.highest.upper
  have hfaces := highest_eq sides
  cases hface : Amount.ofInt? (sides.lowest.val + n) with
  | none =>
    rw [Amount.ofInt?_eq_none] at hface
    omega
  | some v =>
    rw [face, hface, Option.getD_some]
    exact Amount.ofInt?_eq_some.1 hface

/-- A die with one of the faces up is a proper die. -/
lemma legal_face (h : n < (faces sides).1) : (Die.of sides (face sides n)).Legal sides := by
  have hface := val_face h
  have hfaces := highest_eq sides
  refine ⟨?_, ?_, rfl⟩ <;> rw [Die.value_of] <;> omega

/-- A die shows the face whose number the words draw, however many of them are tried. -/
lemma die_of_draw {limit : Nat} {drawn : Option Nat} {last : ω}
    (h : draw (supply words sides) (faces sides).2 (faces sides).1 limit state = (drawn, last)) :
    (let (range, bits) := faces sides
    let next := if bits = 64 then word64 words else word32 words
    let (n, state) := draw next bits range limit state
    (Die.of sides (face sides (n.getD 0)), state)) =
      (Die.of sides (face sides (drawn.getD 0)), last) := by
  have hnext : (if (faces sides).2 = 64 then word64 words else word32 words) =
      supply words sides := by
    cases sides with
    | fate => exact if_pos rfl
    | poly n pos => exact if_neg (by decide : ¬(32 = 64))
  simp only [hnext, h]

/-- The source gives the die that the words draw. -/
lemma source_of_draw {drawn : Option Nat} {last : ω}
    (h : draw (supply words sides) (faces sides).2 (faces sides).1 attempts state =
      (drawn, last)) :
    source words state sides = (Die.of sides (face sides (drawn.getD 0)), last) := by
  -- `attempts` is too large a number to be unfolded, so the limit is any number above.
  have hdie := die_of_draw h
  rw [source]
  exact hdie

/-- The numbers of words that show a face are those of the faces. -/
lemma shown?_eq_some {word : Nat} (h : n < (faces sides).1) (hword : word < 2 ^ (faces sides).2) :
    shown? sides word = some (face sides n) ↔
      pick? (faces sides).2 (faces sides).1 word = some n := by
  rw [shown?, Option.map_eq_some_iff]
  constructor
  · rintro ⟨m, hpick, hface⟩
    have hm := lt_of_pick? (faces_pos sides) (faces_lt sides) hword hpick
    have hvalues := congrArg Amount.val hface
    rw [val_face hm, val_face h] at hvalues
    have : m = n := by omega
    exact this ▸ hpick
  · intro hpick
    exact ⟨n, hpick, rfl⟩

/-- The bits that the number of faces leaves free. -/
lemma wordsPerFace_eq (sides : Sides) :
    wordsPerFace sides = 2 ^ leadingZeros (faces sides).2 (faces sides).1 := by
  cases sides with
  | fate => decide
  | poly n pos =>
    have hpos : 0 < n.toBitVec.toNat := faces_pos (.poly n pos)
    exact (congrArg (2 ^ ·) (leadingZeros_toNat hpos)).symm

/-- The source of dice from random words gives proper dice only. -/
theorem honest_source (words : Words ω) (state : ω) : (source words).Honest state := by
  refine Source.keeps_of_invariant (fun _ => True) ?_ (fun _ _ _ => trivial) trivial
  intro s sides _
  cases hdraw : draw (supply words sides) (faces sides).2 (faces sides).1 attempts s with
  | mk drawn last =>
    rw [source_of_draw hdraw]
    cases drawn with
    | none => exact legal_face (faces_pos sides)
    | some n =>
      obtain ⟨refused, -, hdraws⟩ := draw_eq_some_iff.1 hdraw
      exact legal_face (hdraws.lt (faces_pos sides) (faces_lt sides) (supply_lt words sides))

end

/-- Dice from random words are proper dice and fair. Whatever the words are, a die shows one of the
faces of its kind and bears the label of the kind, and it shows the face whose number the first word
draws that is used. Of all words, each face is shown by equally many, and the bits say how many. At
least half of all words are used. -/
theorem source_fair (sides : Sides) :
    (∀ {ω : Type} (words : Words ω) (state : ω), (source words state sides).1.Legal sides ∧
      ∀ {refused n : Nat} {last : ω},
        Draws (supply words sides) (faces sides).2 (faces sides).1 state refused n last →
          (Die.of sides (face sides n)).Legal sides ∧
            (refused < attempts →
              source words state sides = (Die.of sides (face sides n), last))) ∧
    (∀ value : Amount, sides.lowest.val ≤ value.val → value.val ≤ sides.highest.val →
      ((Finset.range (2 ^ (faces sides).2)).filter fun word =>
        shown? sides word = some value).card = wordsPerFace sides) ∧
    2 ^ (faces sides).2 ≤ 2 * ((Finset.range (2 ^ (faces sides).2)).filter fun word =>
      (shown? sides word).isSome).card := by
  refine ⟨?_, ?_, ?_⟩
  · intro ω words state
    refine ⟨(honest_source words state).draw sides, ?_⟩
    intro refused n last hdraws
    have hn := hdraws.lt (faces_pos sides) (faces_lt sides) (supply_lt words sides)
    refine ⟨legal_face hn, ?_⟩
    intro hlt
    exact source_of_draw (draw_eq_some_iff.2 ⟨refused, hlt, hdraws⟩)
  · intro value hlowest hhighest
    have hfaces := highest_eq sides
    obtain ⟨n, hn⟩ := Int.eq_ofNat_of_zero_le (Int.sub_nonneg.2 hlowest)
    have hlt : n < (faces sides).1 := by omega
    have hface : face sides n = value := by
      refine Amount.ext ?_
      rw [val_face hlt]
      omega
    rw [← hface, wordsPerFace_eq, ← card_words (faces_lt sides) hlt]
    congr 1
    refine Finset.filter_congr ?_
    intro word hword
    exact shown?_eq_some hlt (Finset.mem_range.1 hword)
  · simp only [shown?, Option.isSome_map]
    exact half_le_card_used (faces_pos sides) (faces_lt sides)

/-- The words of a list. -/
def listed : Words (List UInt32) := fun words => (words.headD 0, words.tail)

/-- A die with six faces. -/
def sixFaces : Sides := .poly 6 (by decide)

/-- The first of two words is refused, and with the second one the die shows a four. Of all words,
`2 ^ 29` show a four. -/
theorem source_fair_of_refused :
    Draws (supply listed sixFaces) 32 6 [0xFFFFFFFF, 0x80000000] 1 3 [] ∧
      source listed [0xFFFFFFFF, 0x80000000] sixFaces = (⟨⟨4, by decide, by decide⟩, "6"⟩, []) ∧
      ((Finset.range (2 ^ 32)).filter fun word =>
        shown? sixFaces word = some ⟨4, by decide, by decide⟩).card = 2 ^ 29 := by
  have hdraws : Draws (supply listed sixFaces) 32 6 [0xFFFFFFFF, 0x80000000] 1 3 [] :=
    .refused (by decide) (.used (by decide))
  obtain ⟨hsource, hcount, -⟩ := source_fair sixFaces
  have hdie := ((hsource listed [0xFFFFFFFF, 0x80000000]).2 hdraws).2 (by decide)
  exact ⟨hdraws, hdie, hcount ⟨4, by decide, by decide⟩ (by decide) (by decide)⟩

end DiceNotation.Random
