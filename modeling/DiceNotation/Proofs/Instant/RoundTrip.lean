import DiceNotation.Instant
import Mathlib.Algebra.Group.Nat.Defs
import Mathlib.Tactic.Common
/-!
# Instants read back

The text of an instant is read back to it (`Instant.ofText?_text`). Numbers are written with a fixed
number of digits, a long year excepted, and end where they are read to end
(`Instant.number?_digits`); each part of the text is read off by itself and leaves the rest.
-/

namespace DiceNotation.Instant

variable {rest : List Char}

/-! ## Digits -/

/-- There are as many digits as are asked for. -/
lemma length_decimals (width n : Nat) : (decimals width n).length = width := by
  induction width generalizing n with
  | zero => rfl
  | succ width ih => rw [decimals, List.length_append, ih, List.length_singleton]

/-- Digits are digits. -/
lemma isDigit_of_mem_decimals {width n : Nat} {c : Char} (h : c ∈ decimals width n) :
    c.isDigit = true := by
  induction width generalizing n with
  | zero => cases h
  | succ width ih =>
    rw [decimals, List.mem_append, List.mem_singleton] at h
    rcases h with h | rfl
    · exact ih h
    · rw [Nat.isDigit_digitChar, decide_eq_true_eq]
      exact Nat.mod_lt n (by decide)

/-- Where digits are asked for, a digit comes first. -/
lemma exists_decimals_eq_cons {width n : Nat} (h : 0 < width) :
    ∃ c cs, decimals width n = c :: cs ∧ c.isDigit = true := by
  have hlength : 0 < (decimals width n).length := by rwa [length_decimals]
  obtain ⟨c, cs, hcs⟩ := List.exists_cons_of_ne_nil (List.ne_nil_of_length_pos hlength)
  exact ⟨c, cs, hcs, isDigit_of_mem_decimals (hcs ▸ List.mem_cons_self)⟩

/-- The digits of a number stand for it, where they are wide enough. -/
lemma ofDigitChars_decimals {width n : Nat} (h : n < 10 ^ width) :
    Nat.ofDigitChars 10 (decimals width n) 0 = n := by
  induction width generalizing n with
  | zero =>
    rw [Nat.pow_zero, Nat.lt_one_iff] at h
    rw [decimals, Nat.ofDigitChars_nil, h]
  | succ width ih =>
    rw [Nat.pow_succ, Nat.mul_comm] at h
    have hfirst : n / 10 < 10 ^ width := Nat.div_lt_of_lt_mul h
    have hlast : n % 10 < 10 := Nat.mod_lt n (by decide)
    rw [decimals, Nat.ofDigitChars_append, ih hfirst,
      Nat.ofDigitChars_cons_digitChar_of_lt_ten hlast, Nat.ofDigitChars_nil, Nat.div_add_mod]

/-- A digit is no blank. -/
lemma isBlank_of_isDigit {c : Char} (h : c.isDigit = true) : Text.isBlank c = false := by
  have hrange : 48 ≤ c.toNat ∧ c.toNat ≤ 57 := Char.isDigit_iff_toNat.1 h
  by_contra hblank
  rw [Bool.not_eq_false] at hblank
  simp only [Text.isBlank, Bool.or_eq_true, Bool.and_eq_true, decide_eq_true_eq, beq_iff_eq]
    at hblank
  omega

/-! ## Numbers -/

/-- Blanks are skipped only where there are any. -/
lemma skipBlanks_cons {c : Char} (h : Text.isBlank c = false) :
    skipBlanks (c :: rest) = c :: rest :=
  List.dropWhile_cons_of_neg (Bool.eq_false_iff.1 h)

/-- A mark that is no blank is read. -/
lemma mark?_cons {c : Char} (h : Text.isBlank c = false) : mark? c (c :: rest) = some rest := by
  rw [mark?, skipBlanks_cons h]
  exact if_pos rfl

/-- A run of digits is read as a number, if it is as long as numbers may be, or ends by itself. -/
lemma number?_digits {most : Nat} {digits : List Char} (hne : digits ≠ [])
    (hdigits : ∀ c ∈ digits, c.isDigit = true) (hmost : digits.length ≤ most)
    (hend : digits.length = most ∨ ∀ c ∈ rest.head?, c.isDigit = false) :
    number? most (digits ++ rest) = some (Nat.ofDigitChars 10 digits 0, rest) := by
  have htake : ((digits ++ rest).take most).takeWhile Char.isDigit = digits := by
    rw [List.take_append, List.take_of_length_le hmost, List.takeWhile_append_of_pos hdigits]
    rcases hend with hlength | hrest
    · rw [hlength, Nat.sub_self, List.take_zero, List.takeWhile_nil, List.append_nil]
    · cases rest with
      | nil => rw [List.take_nil, List.takeWhile_nil, List.append_nil]
      | cons c rest =>
        have hc : ¬c.isDigit = true := Bool.eq_false_iff.1 (hrest c rfl)
        cases most - digits.length with
        | zero => rw [List.take_zero, List.takeWhile_nil, List.append_nil]
        | succ n => rw [List.take_succ_cons, List.takeWhile_cons_of_neg hc, List.append_nil]
  have hnonempty : ¬digits.isEmpty = true := fun h => hne (List.isEmpty_iff.1 h)
  unfold number?
  rw [htake]
  dsimp only
  rw [if_neg hnonempty, List.drop_left]

/-- A number is read from digits that are wide enough for it, if there are as many of them as
numbers may have, or if they end by themselves. -/
lemma number?_decimals {most width n : Nat} (hpos : 0 < width) (h : n < 10 ^ width)
    (hmost : width ≤ most) (hend : width = most ∨ ∀ c ∈ rest.head?, c.isDigit = false) :
    number? most (decimals width n ++ rest) = some (n, rest) := by
  have hlength : (decimals width n).length = width := length_decimals width n
  have hne : decimals width n ≠ [] := List.ne_nil_of_length_pos (by omega)
  have hdigits : ∀ c ∈ decimals width n, c.isDigit = true := fun c hc => isDigit_of_mem_decimals hc
  rw [← hlength] at hmost hend
  rw [number?_digits hne hdigits hmost hend, ofDigitChars_decimals h]

/-- A number of two digits is read, and there are no blanks to be skipped before it. -/
lemma number?_skipBlanks_two {n : Nat} (h : n < 100) :
    number? 2 (skipBlanks (decimals 2 n ++ rest)) = some (n, rest) := by
  obtain ⟨c, cs, hcs, hc⟩ := exists_decimals_eq_cons (n := n) (Nat.succ_pos 1)
  rw [hcs, List.cons_append, skipBlanks_cons (isBlank_of_isDigit hc), ← List.cons_append, ← hcs]
  exact number?_decimals (by decide) (by omega) (Nat.le_refl 2) (.inl rfl)

/-! ## Parts of an instant -/

/-- A year of four digits is read. -/
lemma year?_four {n : Nat} (h : n < 10000) :
    year? (decimals 4 n ++ rest) = some ((n : Int), rest) := by
  obtain ⟨c, cs, hcs, hc⟩ := exists_decimals_eq_cons (n := n) (Nat.succ_pos 3)
  have hfirst : ∀ sign more, sign.isDigit = false → c :: (cs ++ rest) ≠ sign :: more := by
    rintro sign more hsign heq
    rw [(List.cons.inj heq).1, hsign] at hc
    cases hc
  unfold year?
  rw [hcs, List.cons_append, skipBlanks_cons (isBlank_of_isDigit hc)]
  split
  · exact absurd ‹_› (hfirst _ _ (by decide))
  · exact absurd ‹_› (hfirst _ _ (by decide))
  · rw [← List.cons_append, ← hcs,
      number?_decimals (by decide) (by omega) (Nat.le_refl 4) (.inl rfl), Option.map_some]

/-- The digits of a number are read behind zeros. -/
lemma number?_padded (zeros n : Nat) (hrest : ∀ c ∈ rest.head?, c.isDigit = false) :
    number? (List.replicate zeros '0' ++ Nat.toDigits 10 n ++ rest).length
      (List.replicate zeros '0' ++ Nat.toDigits 10 n ++ rest) = some (n, rest) := by
  have hdigits : ∀ c ∈ List.replicate zeros '0' ++ Nat.toDigits 10 n, c.isDigit = true := by
    intro c hc
    rcases List.mem_append.1 hc with hc | hc
    · rw [List.eq_of_mem_replicate hc]
      decide
    · exact Nat.isDigit_of_mem_toDigits (by decide) (by decide) hc
  have hlength : (List.replicate zeros '0' ++ Nat.toDigits 10 n).length ≤
      (List.replicate zeros '0' ++ Nat.toDigits 10 n ++ rest).length :=
    (List.prefix_append _ rest).length_le
  rw [number?_digits (List.append_ne_nil_of_right_ne_nil _ Nat.toDigits_ne_nil) hdigits hlength
    (.inr hrest), Nat.ofDigitChars_append, Nat.ofDigitChars_replicate_zero, Nat.mul_zero,
    Nat.ofDigitChars_ten_toDigits]

/-- All digits after a sign belong to the year. -/
lemma year?_minus (cs : List Char) :
    year? ('-' :: cs) = (number? cs.length cs).map fun (n, more) => (-(n : Int), more) := by
  rw [year?, skipBlanks_cons (by decide)]
  rfl

/-- All digits after a sign belong to the year. -/
lemma year?_plus (cs : List Char) :
    year? ('+' :: cs) = (number? cs.length cs).map fun (n, more) => ((n : Int), more) := by
  rw [year?, skipBlanks_cons (by decide)]
  rfl

/-- A year is read, where no digit follows. -/
lemma year?_yearText (year : Int) (hrest : ∀ c ∈ rest.head?, c.isDigit = false) :
    year? (yearText year ++ rest) = some (year, rest) := by
  have hpadded := number?_padded (4 - (Nat.toDigits 10 year.natAbs).length) year.natAbs hrest
  by_cases hfour : 0 ≤ year ∧ year ≤ 9999
  · rw [yearText, if_pos hfour, year?_four (by omega), Int.toNat_of_nonneg hfour.1]
  · rw [yearText, if_neg hfour]
    by_cases hneg : year < 0
    · have habs : -(year.natAbs : Int) = year := by omega
      rw [if_pos hneg, List.cons_append, List.cons_append, year?_minus, hpadded, Option.map_some]
      dsimp only
      rw [habs]
    · have habs : (year.natAbs : Int) = year := by omega
      rw [if_neg hneg, List.cons_append, List.cons_append, year?_plus, hpadded, Option.map_some]
      dsimp only
      rw [habs]

/-- A date is read. -/
lemma date?_text {year : Int} {month day : Nat} (hmonth : month < 100) (hday : day < 100) :
    date? (yearText year ++ '-' :: (decimals 2 month ++ '-' :: (decimals 2 day ++ rest))) =
      some ((year, month, day), rest) := by
  have hdash : ∀ more, ∀ c ∈ ('-' :: more).head?, c.isDigit = false := by
    rintro more c ⟨⟩
    decide
  rw [date?, year?_yearText year (hdash _)]
  simp only [mark?_cons (c := '-') (by decide), number?_skipBlanks_two hmonth,
    number?_skipBlanks_two hday, Option.bind_eq_bind, Option.bind_some]

/-- A fraction of a second is read in nanoseconds, whatever number of digits it is written with. -/
lemma fraction?_decimals {width n : Nat} (hpos : 0 < width) (hwidth : width ≤ 9)
    (h : n < 10 ^ width) (hrest : ∀ c ∈ rest.head?, c.isDigit = false) :
    fraction? ('.' :: (decimals width n ++ rest)) = some (n * 10 ^ (9 - width), rest) := by
  have hdrop : rest.dropWhile Char.isDigit = rest := by
    cases rest with
    | nil => rfl
    | cons c rest => exact List.dropWhile_cons_of_neg (Bool.eq_false_iff.1 (hrest c rfl))
  have hcount : (decimals width n ++ rest).length - rest.length = width := by
    rw [List.length_append, length_decimals, Nat.add_sub_cancel]
  rw [fraction?, number?_decimals hpos h (by omega) (.inr hrest), Option.map_some]
  dsimp only
  rw [hcount, hdrop]
  rfl

/-- A fraction of a second is read before the letter that ends the text. -/
lemma fraction?_fractionText {n : Nat} (h : n < 1000000000) :
    fraction? (fractionText n ++ ['Z']) = some (n, ['Z']) := by
  have hend : ∀ c ∈ ['Z'].head?, c.isDigit = false := by
    rintro c ⟨⟩
    decide
  unfold fractionText
  split_ifs with hzero hmilli hmicro
  · rw [hzero]
    rfl
  · rw [List.cons_append, fraction?_decimals (by decide) (by decide) (by omega) hend]
    rw [show n / 1000000 * 10 ^ (9 - 3) = n by omega]
  · rw [List.cons_append, fraction?_decimals (by decide) (by decide) (by omega) hend]
    rw [show n / 1000 * 10 ^ (9 - 6) = n by omega]
  · rw [List.cons_append, fraction?_decimals (by decide) (by decide) (by omega) hend]
    rw [show n * 10 ^ (9 - 9) = n by omega]

/-! ## Texts -/

/-- The date and the time of day of an instant are those of an instant. -/
lemma of?_self (t : Instant) :
    of? (t.year, t.month, t.day) t.hour t.minute t.second t.nanosecond = some t := by
  rw [of?, dif_pos t.year_mem, dif_pos t.date_mem, dif_pos t.time_mem]

/-- Where clocks show universal time, they show the instant. -/
lemma shifted?_self (t : Instant) :
    shifted? (t.year, t.month, t.day) t.hour t.minute t.second t.nanosecond 0 = some t := by
  have htime := t.time_mem
  have hminutes : ((60 * (t.hour : Int) + t.minute - 0) % 1440).toNat = 60 * t.hour + t.minute := by
    omega
  have hhour : (60 * t.hour + t.minute) / 60 = t.hour := by omega
  have hminute : (60 * t.hour + t.minute) % 60 = t.minute := by omega
  have hafter : ¬(60 * (t.hour : Int) + t.minute - 0 < 0) := by omega
  have hbefore : ¬(1440 ≤ 60 * (t.hour : Int) + t.minute - 0) := by omega
  rw [shifted?, if_neg hafter, if_neg hbefore, hminutes, hhour, hminute, of?_self]

/-- An instant is read back from its text. -/
@[simp] lemma ofText?_text (t : Instant) : ofText? t.text = some t := by
  have hdays : Calendar.daysIn t.year t.month ≤ 31 := by
    unfold Calendar.daysIn
    split_ifs <;> decide
  have hmonth : t.month < 100 := by have := t.date_mem; omega
  have hday : t.day < 100 := by have := t.date_mem; omega
  have hhour : t.hour < 100 := by have := t.time_mem; omega
  have hminute : t.minute < 100 := by have := t.time_mem; omega
  have hsecond : t.second < 100 := by have := t.time_mem; omega
  have hoffset : offset? ['Z'] = some (0, []) := by decide
  rw [ofText?, text, String.toList_ofList]
  simp only [List.append_assoc, List.cons_append, date?_text hmonth hday, Option.bind_eq_bind,
    Option.bind_some, true_or, if_true, mark?_cons (c := ':') (by decide),
    number?_skipBlanks_two hhour, number?_skipBlanks_two hminute, number?_skipBlanks_two hsecond,
    fraction?_fractionText t.time_mem.2.2.2, hoffset, of?_self]
  exact shifted?_self t

end DiceNotation.Instant
