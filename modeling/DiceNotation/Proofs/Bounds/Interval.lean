import DiceNotation.Bounds
import DiceNotation.Proofs.Answers
import Mathlib
/-!
# Bounds as intervals

The bounds of an operation hold its exact result for all operands within their own bounds
(`Bounds.exact_mem_of_combine`).

For sums and differences this is the order of the integers. A product or a quotient goes only one
way as one of its operands grows, so over a box of operands it lies between its values at the four
corners of the box (`mem_Icc_of_corners`). Of a quotient this holds only while the divisor stays on
one side of zero: a divisor that may have either sign lies between its least bound and `-1`, or
between `1` and its greatest bound.
-/

namespace DiceNotation

open Set

/-! ## Corners -/

/-- The map goes one way on a set: up or down. -/
def OneWayOn (f : ℤ → ℤ) (s : Set ℤ) : Prop := MonotoneOn f s ∨ AntitoneOn f s

/-- A map that goes one way takes what lies between two integers between their images. -/
lemma OneWayOn.mem_uIcc {f : ℤ → ℤ} {a b x : ℤ} (h : OneWayOn f (Icc a b)) (hx : x ∈ Icc a b) :
    f x ∈ uIcc (f a) (f b) := by
  have hab : a ≤ b := le_trans hx.1 hx.2
  rw [← uIcc_of_le hab] at h hx
  rcases h with h | h
  · exact h.mapsTo_uIcc hx
  · exact h.mapsTo_uIcc hx

/-- Where an operation goes one way in either operand, its values over a box lie within every
interval that holds its values at the corners. -/
lemma mem_Icc_of_corners {f : ℤ → ℤ → ℤ} {a b c d low high x y : ℤ}
    (hleft : ∀ r, OneWayOn (f · r) (Icc a b)) (hright : ∀ l, OneWayOn (f l) (Icc c d))
    (hcorners : ∀ l ∈ [a, b], ∀ r ∈ [c, d], f l r ∈ Icc low high)
    (hx : x ∈ Icc a b) (hy : y ∈ Icc c d) : f x y ∈ Icc low high := by
  have hside : ∀ l ∈ [a, b], f l y ∈ Icc low high := by
    intro l hl
    have hc := hcorners l hl c (by simp)
    have hd := hcorners l hl d (by simp)
    exact uIcc_subset_Icc hc hd ((hright l).mem_uIcc hy)
  exact uIcc_subset_Icc (hside a (by simp)) (hside b (by simp)) ((hleft y).mem_uIcc hx)

/-! ## Products and quotients -/

/-- A product goes one way in its left operand. -/
lemma oneWayOn_mul_left (r : ℤ) (s : Set ℤ) : OneWayOn (· * r) s := by
  rcases le_total 0 r with hr | hr
  · exact .inl ((monotone_mul_right_of_nonneg hr).monotoneOn s)
  · exact .inr ((antitone_mul_right hr).antitoneOn s)

/-- A product goes one way in its right operand. -/
lemma oneWayOn_mul_right (l : ℤ) (s : Set ℤ) : OneWayOn (l * ·) s := by
  rcases le_total 0 l with hl | hl
  · exact .inl ((monotone_mul_left_of_nonneg hl).monotoneOn s)
  · exact .inr ((antitone_mul_left hl).antitoneOn s)

/-- A quotient goes one way in its dividend. -/
lemma oneWayOn_tdiv_left (r : ℤ) (s : Set ℤ) : OneWayOn (Int.tdiv · r) s := by
  rcases lt_trichotomy r 0 with hr | rfl | hr
  · refine .inr fun x _ y _ hxy => ?_
    have := Int.tdiv_le_tdiv (Int.neg_pos_of_neg hr) hxy
    simp only [Int.tdiv_neg] at this
    exact neg_le_neg_iff.1 this
  · exact .inl fun x _ y _ _ => by simp
  · exact .inl fun x _ y _ hxy => Int.tdiv_le_tdiv hr hxy

/-- A quotient of an integer that is not negative goes down as its positive divisor goes up. -/
lemma tdiv_le_tdiv_of_divisor_le {x r s : ℤ} (hx : 0 ≤ x) (hr : 0 < r) (hrs : r ≤ s) :
    x.tdiv s ≤ x.tdiv r := by
  have hs : 0 < s := lt_of_lt_of_le hr hrs
  have hq : 0 ≤ x.tdiv s := Int.tdiv_nonneg hx hs.le
  refine Int.le_tdiv_of_mul_le hr ?_
  calc x.tdiv s * r ≤ x.tdiv s * s := mul_le_mul_of_nonneg_left hrs hq
    _ = s * x.tdiv s := mul_comm _ _
    _ ≤ x := Int.mul_tdiv_self_le hx

/-- A quotient goes one way in its divisor, as long as that is positive. -/
lemma oneWayOn_tdiv_right_of_pos (l : ℤ) {s : Set ℤ} (hs : ∀ r ∈ s, 0 < r) :
    OneWayOn (Int.tdiv l) s := by
  rcases le_total 0 l with hl | hl
  · exact .inr fun r hr t _ hrt => tdiv_le_tdiv_of_divisor_le hl (hs r hr) hrt
  · refine .inl fun r hr t _ hrt => ?_
    have := tdiv_le_tdiv_of_divisor_le (Int.neg_nonneg_of_nonpos hl) (hs r hr) hrt
    simp only [Int.neg_tdiv] at this
    exact neg_le_neg_iff.1 this

/-- A quotient goes one way in its divisor, as long as that stays on one side of zero. -/
lemma oneWayOn_tdiv_right (l : ℤ) {c d : ℤ} (h : 0 < c ∨ d < 0) :
    OneWayOn (Int.tdiv l) (Icc c d) := by
  rcases h with hc | hd
  · exact oneWayOn_tdiv_right_of_pos l fun r hr => lt_of_lt_of_le hc hr.1
  · have hneg : ∀ r ∈ Icc (-d) (-c), 0 < r := fun r hr => by
      have := hr.1
      omega
    have hback : ∀ r ∈ Icc c d, -r ∈ Icc (-d) (-c) := fun r hr =>
      ⟨neg_le_neg hr.2, neg_le_neg hr.1⟩
    -- turning the divisor's sign turns the quotient's sign and the order of the divisors
    rcases oneWayOn_tdiv_right_of_pos l hneg with hup | hdown
    · refine .inl fun r hr t ht hrt => ?_
      have := hup (hback t ht) (hback r hr) (neg_le_neg hrt)
      simp only [Int.tdiv_neg] at this
      exact neg_le_neg_iff.1 this
    · refine .inr fun r hr t ht hrt => ?_
      have := hdown (hback t ht) (hback r hr) (neg_le_neg hrt)
      simp only [Int.tdiv_neg] at this
      exact neg_le_neg_iff.1 this

/-! ## Bounds -/

namespace Bounds

/-- The integers within the bounds. -/
def interval (b : Bounds) : Set ℤ := Icc b.min.val b.max.val

/-- Widened bounds hold what they held before. -/
lemma interval_subset_widen (b : Bounds) (a : Amount) : b.interval ⊆ (b.widen a).interval := by
  refine Icc_subset_Icc ?_ ?_
  · unfold widen lesser
    dsimp only
    split <;> omega
  · unfold widen greater
    dsimp only
    split <;> omega

/-- Widened bounds hold what they were widened by. -/
lemma mem_interval_widen (b : Bounds) (a : Amount) : a.val ∈ (b.widen a).interval := by
  constructor
  · unfold widen lesser
    dsimp only
    split <;> omega
  · unfold widen greater
    dsimp only
    split <;> omega

/-- Bounds that are widened again and again hold what they held and all they were widened by. -/
lemma mem_interval_foldl_widen (rest : List Amount) (b : Bounds) :
    b.interval ⊆ (rest.foldl widen b).interval ∧
      ∀ a ∈ rest, a.val ∈ (rest.foldl widen b).interval := by
  induction rest generalizing b with
  | nil => simp
  | cons first rest ih =>
    obtain ⟨hsubset, hmem⟩ := ih (b.widen first)
    refine ⟨(interval_subset_widen b first).trans hsubset, ?_⟩
    intro a ha
    rcases List.mem_cons.1 ha with rfl | ha
    · exact hsubset (mem_interval_widen b a)
    · exact hmem a ha

/-- The hull of amounts holds each of them. -/
lemma mem_interval_hull {a v : Amount} {rest : List Amount} (hv : v ∈ a :: rest) :
    v.val ∈ (hull a rest).interval := by
  obtain ⟨hsubset, hmem⟩ := mem_interval_foldl_widen rest ⟨a, a⟩
  rcases List.mem_cons.1 hv with rfl | hv
  · exact hsubset ⟨le_rfl, le_rfl⟩
  · exact hmem v hv

/-- The bounds of the results at the corners hold the exact result at every corner. -/
lemma exact_mem_of_corners {op : Operator} {l b : Bounds} {rights : List Amount}
    (h : corners op l rights = .ok b) {x r : Amount} (hx : x ∈ [l.min, l.max]) (hr : r ∈ rights) :
    (op = .div → r.val ≠ 0) ∧ op.exact x.val r.val ∈ b.interval := by
  obtain ⟨vs, hresults, hhull⟩ := bind_eq_ok.1 h
  have hpair : (x, r) ∈ [l.min, l.max].flatMap fun l => rights.map fun r => (l, r) :=
    List.mem_flatMap.2 ⟨x, hx, List.mem_map.2 ⟨r, hr, rfl⟩⟩
  obtain ⟨v, hv, happly⟩ := mem_of_mapM_eq_ok hresults (x, r) hpair
  obtain ⟨hzero, hexact⟩ := Operator.apply_eq_ok.1 happly
  cases vs with
  | nil => cases hv
  | cons first rest =>
    cases hhull
    refine ⟨hzero, ?_⟩
    rw [← hexact]
    exact mem_interval_hull hv

/-- Every divisor but zero lies between two of the divisors at which a quotient can be extreme, on
one side of zero. -/
lemma exists_divisors {r : Bounds} {y : ℤ} (hy : y ∈ r.interval) (hzero : y ≠ 0)
    (hmin : r.min.val ≠ 0) (hmax : r.max.val ≠ 0) :
    ∃ c ∈ divisors r, ∃ d ∈ divisors r, y ∈ Icc c.val d.val ∧ (0 < c.val ∨ d.val < 0) := by
  obtain ⟨hlow, hhigh⟩ := hy
  unfold divisors
  split
  · rcases lt_or_gt_of_ne hzero with hneg | hpos
    · refine ⟨r.min, by simp, .minusOne, by simp, ⟨hlow, ?_⟩, .inr (by decide)⟩
      exact Int.le_sub_one_of_lt hneg
    · refine ⟨.one, by simp, r.max, by simp, ⟨?_, hhigh⟩, .inl (by decide)⟩
      exact hpos
  · exact ⟨r.min, by simp, r.max, by simp, ⟨hlow, hhigh⟩, by omega⟩

/-- Where an operation goes one way in either operand, the bounds of its results at the corners hold
its exact results over a box with those corners. -/
lemma exact_mem_of_box {op : Operator} {l b : Bounds} {rights : List Amount}
    (h : corners op l rights = .ok b) {c d : Amount} (hc : c ∈ rights) (hd : d ∈ rights)
    (hleft : ∀ s, OneWayOn (op.exact · s) l.interval)
    (hright : ∀ m, OneWayOn (op.exact m) (Icc c.val d.val)) {x y : ℤ} (hx : x ∈ l.interval)
    (hy : y ∈ Icc c.val d.val) : op.exact x y ∈ b.interval := by
  have hcorner : ∀ m ∈ [l.min, l.max], ∀ s ∈ [c, d], op.exact m.val s.val ∈ b.interval := by
    intro m hm s hs
    have hs' : s ∈ rights := by
      rcases List.mem_pair.1 hs with rfl | rfl
      · exact hc
      · exact hd
    exact (exact_mem_of_corners h hm hs').2
  refine mem_Icc_of_corners hleft hright ?_ hx hy
  intro m hm s hs
  obtain ⟨left, hleft, rfl⟩ : ∃ a ∈ [l.min, l.max], a.val = m := by simpa [eq_comm] using hm
  obtain ⟨right, hright, rfl⟩ : ∃ a ∈ [c, d], a.val = s := by simpa [eq_comm] using hs
  exact hcorner left hleft right hright

/-- The bounds of a sum or a difference hold it. -/
lemma exact_mem_of_ends {op : Operator} {l b : Bounds} {r s : Amount} {x y : ℤ}
    (hmin : op.apply l.min r = .ok b.min) (hmax : op.apply l.max s = .ok b.max)
    (hlow : op.exact l.min.val r.val ≤ op.exact x y)
    (hhigh : op.exact x y ≤ op.exact l.max.val s.val) : op.exact x y ∈ b.interval := by
  rw [← (Operator.apply_eq_ok.1 hmin).2] at hlow
  rw [← (Operator.apply_eq_ok.1 hmax).2] at hhigh
  exact ⟨hlow, hhigh⟩

/-- The bounds of a sum or a difference are its results at two ends each. -/
lemma ends_of_bind {first second : Except EvalError Amount} {b : Bounds}
    (h : (do
      let min ← first
      let max ← second
      .ok ⟨min, max⟩ : Except EvalError Bounds) = .ok b) :
    first = .ok b.min ∧ second = .ok b.max := by
  obtain ⟨min, hmin, hrest⟩ := bind_eq_ok.1 h
  obtain ⟨max, hmax, hb⟩ := bind_eq_ok.1 hrest
  cases hb
  exact ⟨hmin, hmax⟩

/-- The bounds of an operation hold its exact result, whatever the operands within their own
bounds, as long as the divisor of a division is not zero. -/
theorem exact_mem_of_combine {op : Operator} {l r b : Bounds} (h : combine op l r = .ok b)
    {x y : ℤ} (hx : x ∈ l.interval) (hy : y ∈ r.interval) (hzero : op = .div → y ≠ 0) :
    op.exact x y ∈ b.interval := by
  cases op with
  | add =>
    obtain ⟨hmin, hmax⟩ := ends_of_bind h
    exact exact_mem_of_ends hmin hmax (add_le_add hx.1 hy.1) (add_le_add hx.2 hy.2)
  | sub =>
    obtain ⟨hmin, hmax⟩ := ends_of_bind h
    exact exact_mem_of_ends hmin hmax (sub_le_sub hx.1 hy.2) (sub_le_sub hx.2 hy.1)
  | mul =>
    have hcorners : corners .mul l [r.min, r.max] = .ok b := h
    exact exact_mem_of_box hcorners (List.mem_pair.2 (.inl rfl)) (List.mem_pair.2 (.inr rfl))
      (fun s => oneWayOn_mul_left s _) (fun m => oneWayOn_mul_right m _) hx hy
  | div =>
    have hcorners : corners .div l (divisors r) = .ok b := h
    have hends : ∀ s ∈ divisors r, s.val ≠ 0 := fun s hs =>
      (exact_mem_of_corners hcorners (List.mem_pair.2 (.inl rfl)) hs).1 rfl
    have hmin : r.min.val ≠ 0 := hends r.min (by unfold divisors; split <;> simp)
    have hmax : r.max.val ≠ 0 := hends r.max (by unfold divisors; split <;> simp)
    obtain ⟨c, hc, d, hd, hy', hside⟩ := exists_divisors hy (hzero rfl) hmin hmax
    exact exact_mem_of_box hcorners hc hd (fun s => oneWayOn_tdiv_left s _)
      (fun m => oneWayOn_tdiv_right m hside) hx hy'

end Bounds

end DiceNotation
