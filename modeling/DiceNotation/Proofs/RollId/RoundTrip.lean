import DiceNotation.RollId
import Mathlib
/-!
# Identities read back

The text of an identity is read back to it (`RollId.ofText?_text`): its digits stand for its bits
(`RollId.hexNumber?_hexDigits`), and the groups into which hyphens part them are put together again
(`RollId.unhyphenate?_hyphenate`).
-/

namespace DiceNotation.RollId

/-! ## Digits -/

/-- There are as many digits as are asked for. -/
lemma length_hexDigits (width n : Nat) : (hexDigits width n).length = width := by
  induction width generalizing n with
  | zero => rfl
  | succ width ih => rw [hexDigits, List.length_append, ih, List.length_singleton]

/-- Digits are read back. -/
lemma hexValue?_digitChar : ∀ n < 16, hexValue? (Nat.digitChar n) = some n := by
  decide

/-- Digits are read one part after the other. -/
lemma hexNumber?_append (n : Nat) (first second : List Char) :
    hexNumber? n (first ++ second) = (hexNumber? n first).bind (hexNumber? · second) := by
  induction first generalizing n with
  | nil => rfl
  | cons c first ih =>
    rw [List.cons_append, hexNumber?, hexNumber?]
    cases hexValue? c with
    | none => rfl
    | some d => exact ih (16 * n + d)

/-- The digits of a number stand for as much of it as they are wide. -/
lemma hexNumber?_hexDigits (width n : Nat) :
    hexNumber? 0 (hexDigits width n) = some (n % 16 ^ width) := by
  induction width generalizing n with
  | zero => rw [Nat.pow_zero, Nat.mod_one, hexDigits, hexNumber?]
  | succ width ih =>
    have hlast : n % 16 < 16 := Nat.mod_lt n (by decide)
    rw [hexDigits, hexNumber?_append, ih, Option.bind_some, hexNumber?,
      hexValue?_digitChar _ hlast, Option.bind_some, hexNumber?, Nat.pow_succ,
      Nat.mul_comm (16 ^ width), Nat.mod_mul, Nat.add_comm]

/-! ## Groups -/

/-- Each group but the last one is followed by a hyphen. -/
lemma length_hyphenate {sizes : List Nat} {digits : List Char}
    (h : sizes.sum ≤ digits.length) :
    (hyphenate sizes digits).length = digits.length + sizes.length := by
  induction sizes generalizing digits with
  | nil => rfl
  | cons size sizes ih =>
    rw [List.sum_cons] at h
    have hrest : sizes.sum ≤ (digits.drop size).length := by
      rw [List.length_drop]
      omega
    rw [hyphenate, List.length_append, List.length_cons, ih hrest, List.length_take,
      List.length_drop, List.length_cons]
    omega

/-- Groups of digits are put together again. -/
lemma unhyphenate?_hyphenate {sizes : List Nat} {digits : List Char}
    (h : sizes.sum ≤ digits.length) :
    unhyphenate? sizes (hyphenate sizes digits) = some digits := by
  induction sizes generalizing digits with
  | nil => rfl
  | cons size sizes ih =>
    rw [List.sum_cons] at h
    have hgroup : (digits.take size).length = size := List.length_take_of_le (by omega)
    have hrest : sizes.sum ≤ (digits.drop size).length := by
      rw [List.length_drop]
      omega
    rw [hyphenate, unhyphenate?, List.drop_left' hgroup, List.take_left' hgroup]
    change (unhyphenate? sizes (hyphenate sizes (digits.drop size))).map (digits.take size ++ ·) = _
    rw [ih hrest, Option.map_some, List.take_append_drop]

/-! ## Texts -/

/-- An identity is read back from its text. -/
@[simp] lemma ofText?_text (id : RollId) : ofText? id.text = some id := by
  have hlength : (hexDigits 32 id.bits.toNat).length = 32 := length_hexDigits 32 id.bits.toNat
  have hgroups : groups.sum ≤ (hexDigits 32 id.bits.toNat).length := by
    rw [hlength]
    decide
  have hplain : ofDigits? (hyphenate groups (hexDigits 32 id.bits.toNat)) = none := by
    rw [ofDigits?, if_neg]
    rw [length_hyphenate hgroups, hlength]
    decide
  have hbits : id.bits.toNat % 16 ^ 32 = id.bits.toNat := Nat.mod_eq_of_lt id.bits.isLt
  have hdigits : ofDigits? (hexDigits 32 id.bits.toNat) = some id := by
    rw [ofDigits?, if_pos hlength, hexNumber?_hexDigits, hbits, Option.map_some,
      BitVec.ofNat_toNat, BitVec.setWidth_eq]
  rw [ofText?, text, String.toList_ofList, hplain, Option.none_or, ofHyphenated?,
    unhyphenate?_hyphenate hgroups, Option.bind_some, hdigits, Option.some_or]

end DiceNotation.RollId
