import DiceNotation.Proofs.Eval.Bracket
import Mathlib
/-!
# Outcomes reckoned with integers

The arithmetic of outcomes is that of the integers, as long as every result on the way is an amount.
A `Reckoning` has the total and the bounds of an outcome as integers of any size: those of a throw
are `Reckoning.ofThrow`, and those of an operation are `Reckoning.combine`. The steps on the way to
them are listed beside them, `Reckoning.throwSteps` and `Reckoning.combineSteps`.

An outcome is what is reckoned, and all steps are amounts (`Outcome.reckoning_of_ofThrow`,
`Outcome.reckoning_of_combine`). Where there is none, a step is no amount, or a divisor is zero
(`Outcome.combine_eq_error`). In a throw whose dice show faces of their kind, the greatest bound is
such a step (`Outcome.exists_ofThrow`).
-/

namespace DiceNotation

/-! ## Amounts -/

namespace Amount

/-- The integer is an amount. -/
def InRange (n : ℤ) : Prop := -0x8000000000000000 ≤ n ∧ n < 0x8000000000000000

lemma inRange_val (a : Amount) : InRange a.val := ⟨a.lower, a.upper⟩

lemma exists_of_inRange {n : ℤ} (h : InRange n) : ∃ a : Amount, a.val = n :=
  ⟨⟨n, h.1, h.2⟩, rfl⟩

end Amount

open Amount (InRange)

/-- An operation on amounts has no result where it divides by zero or where its exact result is no
amount. -/
lemma Operator.apply_eq_error {op : Operator} {l r : Amount} {e : EvalError}
    (h : op.apply l r = .error e) :
    (e = .overflow ∧ ¬InRange (op.exact l.val r.val)) ∨
      (e = .divisionByZero ∧ op = .div ∧ r.val = 0) := by
  unfold apply at h
  split at h
  · rename_i hzero
    cases h
    exact .inr ⟨rfl, hzero⟩
  · split at h
    · cases h
    · rename_i hnone
      cases h
      rw [Amount.ofInt?_eq_none] at hnone
      refine .inl ⟨rfl, ?_⟩
      intro hrange
      have := hrange.1
      have := hrange.2
      omega

/-! ## Bounds -/

/-- The bounds of a total, as integers. -/
structure Span where
  /-- The least total. -/
  low : ℤ
  /-- The greatest total. -/
  high : ℤ

namespace Span

/-- The results of an operation where its left operand is at its bounds. -/
def corners (f : ℤ → ℤ → ℤ) (l : Span) (rights : List ℤ) : List ℤ :=
  [l.low, l.high].flatMap fun x => rights.map (f x)

/-- The divisors at which a quotient can be extreme. -/
def divisors (r : Span) : List ℤ :=
  if r.low < 0 ∧ 0 < r.high then [r.low, -1, 1, r.high] else [r.low, r.high]

/-- The results from which the bounds of an operation are taken: the sums or differences of bounds,
or the products or quotients at the corners. -/
def ends : Operator → Span → Span → List ℤ
  | .add, l, r => [l.low + r.low, l.high + r.high]
  | .sub, l, r => [l.low - r.high, l.high - r.low]
  | .mul, l, r => corners (· * ·) l [r.low, r.high]
  | .div, l, r => corners Int.tdiv l r.divisors

/-- The least and the greatest of some integers. -/
def hull : List ℤ → Span
  | [] => ⟨0, 0⟩
  | a :: rest => ⟨rest.foldl min a, rest.foldl max a⟩

/-- The bounds of an operation. -/
def combine : Operator → Span → Span → Span
  | .add, l, r => ⟨l.low + r.low, l.high + r.high⟩
  | .sub, l, r => ⟨l.low - r.high, l.high - r.low⟩
  | .mul, l, r => hull (ends .mul l r)
  | .div, l, r => hull (ends .div l r)

end Span

namespace Bounds

/-- The bounds, as integers. -/
def span (b : Bounds) : Span := ⟨b.min.val, b.max.val⟩

lemma val_lesser (a b : Amount) : (lesser a b).val = Min.min a.val b.val := by
  unfold lesser
  split <;> omega

lemma val_greater (a b : Amount) : (greater a b).val = Max.max a.val b.val := by
  unfold greater
  split <;> omega

/-- Bounds that are widened again and again are the least and the greatest of all the amounts. -/
lemma span_foldl_widen (rest : List Amount) (b : Bounds) :
    (rest.foldl widen b).span =
      ⟨(rest.map Amount.val).foldl Min.min b.min.val,
        (rest.map Amount.val).foldl Max.max b.max.val⟩ := by
  induction rest generalizing b with
  | nil => rfl
  | cons a rest ih =>
    rw [List.foldl_cons, ih, widen, val_lesser, val_greater]
    rfl

lemma span_hull (a : Amount) (rest : List Amount) :
    (hull a rest).span = Span.hull ((a :: rest).map Amount.val) :=
  span_foldl_widen rest ⟨a, a⟩

/-- The bounds of a divisor are among the divisors at which a quotient can be extreme. -/
lemma mem_divisors (r : Bounds) : r.min ∈ divisors r ∧ r.max ∈ divisors r := by
  unfold divisors
  split <;> simp

/-- A divisor at which a quotient can be extreme is zero only where it is a bound. -/
lemma eq_zero_of_mem_divisors {r : Bounds} {s : Amount} (hs : s ∈ divisors r) (hzero : s.val = 0) :
    r.min.val = 0 ∨ r.max.val = 0 := by
  unfold divisors at hs
  split at hs
  · simp only [List.mem_cons, List.not_mem_nil, or_false] at hs
    rcases hs with rfl | rfl | rfl | rfl
    · exact .inl hzero
    · exact absurd hzero (by decide)
    · exact absurd hzero (by decide)
    · exact .inr hzero
  · rcases List.mem_pair.1 hs with rfl | rfl
    · exact .inl hzero
    · exact .inr hzero

/-- The divisors at which a quotient can be extreme are those of the exact bounds. -/
lemma map_val_divisors (r : Bounds) : (divisors r).map Amount.val = r.span.divisors := by
  unfold divisors Span.divisors span
  split <;> rfl

/-- Results at corners are the exact ones. -/
lemma map_val_results {op : Operator} {l : Bounds} {rights vs : List Amount}
    (h : results op [l.min, l.max] rights = .ok vs) :
    vs.map Amount.val = l.span.corners op.exact (rights.map Amount.val) := by
  have hexact : ∀ (pair : Amount × Amount) a, op.apply pair.1 pair.2 = .ok a →
      a.val = op.exact pair.1.val pair.2.val := by
    intro pair a happly
    exact (Operator.apply_eq_ok.1 happly).2
  rw [map_answers h hexact]
  simp only [Span.corners, span, List.flatMap_cons, List.flatMap_nil, List.append_nil,
    List.map_append, List.map_map]
  rfl

/-- The bounds of the results at corners are the least and the greatest of them, and all of them are
amounts. -/
lemma span_of_corners {op : Operator} {l b : Bounds} {r : Amount} {rights : List Amount}
    (h : corners op l rights = .ok b) (hr : r ∈ rights) :
    b.span = Span.hull (l.span.corners op.exact (rights.map Amount.val)) ∧
      ∀ v ∈ l.span.corners op.exact (rights.map Amount.val), InRange v := by
  obtain ⟨vs, hresults, hhull⟩ := bind_eq_ok.1 h
  have hvalues := map_val_results hresults
  rw [← hvalues]
  constructor
  · cases vs with
    | nil =>
      -- There is a corner at `r`.
      have hcorner : op.exact l.min.val r.val ∈ l.span.corners op.exact (rights.map Amount.val) :=
        List.mem_append_left _ (List.mem_map_of_mem (List.mem_map_of_mem hr))
      rw [← hvalues] at hcorner
      cases hcorner
    | cons a rest =>
      cases hhull
      exact span_hull a rest
  · intro v hv
    obtain ⟨a, -, rfl⟩ := List.mem_map.1 hv
    exact a.inRange_val

/-- The results at corners cannot be had where one of them is no amount, or where a divisor is zero.
-/
lemma corners_eq_error {op : Operator} {l : Bounds} {rights : List Amount} {e : EvalError}
    (h : corners op l rights = .error e) :
    (e = .overflow ∧ ∃ v ∈ l.span.corners op.exact (rights.map Amount.val), ¬InRange v) ∨
      (e = .divisionByZero ∧ op = .div ∧ ∃ r ∈ rights, r.val = 0) := by
  rcases bind_eq_error.1 h with hresults | ⟨vs, -, hhull⟩
  · obtain ⟨⟨x, y⟩, hpair, happly⟩ := exists_of_mapM_eq_error hresults
    obtain ⟨left, hleft, hmem⟩ := List.mem_flatMap.1 hpair
    obtain ⟨right, hright, hxy⟩ := List.mem_map.1 hmem
    cases hxy
    rcases Operator.apply_eq_error happly with ⟨he, hrange⟩ | ⟨he, hop, hzero⟩
    · refine .inl ⟨he, op.exact x.val y.val, List.mem_flatMap.2 ⟨x.val, ?_, ?_⟩, hrange⟩
      · exact List.mem_map_of_mem (f := Amount.val) hleft
      · exact List.mem_map_of_mem (List.mem_map_of_mem hright)
    · exact .inr ⟨he, hop, y, hright, hzero⟩
  · split at hhull <;> cases hhull

/-- Bounds that are two results of an operation are the exact ones. -/
lemma span_of_ends {op : Operator} {a b c d : Amount} {bounds : Bounds}
    (h : (do
      let min ← op.apply a b
      let max ← op.apply c d
      .ok ⟨min, max⟩ : Except EvalError Bounds) = .ok bounds) :
    bounds.span = ⟨op.exact a.val b.val, op.exact c.val d.val⟩ ∧
      ∀ v ∈ [op.exact a.val b.val, op.exact c.val d.val], InRange v := by
  obtain ⟨hmin, hmax⟩ := ends_of_bind h
  rw [← (Operator.apply_eq_ok.1 hmin).2, ← (Operator.apply_eq_ok.1 hmax).2]
  refine ⟨rfl, fun v hv => ?_⟩
  rcases List.mem_pair.1 hv with rfl | rfl
  · exact bounds.min.inRange_val
  · exact bounds.max.inRange_val

/-- Two results of an operation that does not divide cannot be had where one of them is no amount.
-/
lemma ends_eq_error {op : Operator} (hop : op ≠ .div) {a b c d : Amount} {e : EvalError}
    (h : (do
      let min ← op.apply a b
      let max ← op.apply c d
      .ok ⟨min, max⟩ : Except EvalError Bounds) = .error e) :
    e = .overflow ∧ ∃ v ∈ [op.exact a.val b.val, op.exact c.val d.val], ¬InRange v := by
  have hresult : ∀ {x y}, op.apply x y = .error e →
      e = .overflow ∧ ¬InRange (op.exact x.val y.val) := by
    intro x y happly
    rcases Operator.apply_eq_error happly with hrange | ⟨-, hdiv, -⟩
    · exact hrange
    · exact absurd hdiv hop
  rcases bind_eq_error.1 h with hmin | ⟨min, -, hrest⟩
  · obtain ⟨he, hrange⟩ := hresult hmin
    exact ⟨he, _, List.mem_cons_self, hrange⟩
  · rcases bind_eq_error.1 hrest with hmax | ⟨max, -, hok⟩
    · obtain ⟨he, hrange⟩ := hresult hmax
      exact ⟨he, _, List.mem_cons_of_mem _ List.mem_cons_self, hrange⟩
    · cases hok

/-- The bounds of an operation are the exact ones. All results from which they are taken are
amounts, and no bound of a divisor is zero. -/
lemma span_of_combine {op : Operator} {l r b : Bounds} (h : combine op l r = .ok b) :
    b.span = Span.combine op l.span r.span ∧ (∀ v ∈ Span.ends op l.span r.span, InRange v) ∧
      (op = .div → r.min.val ≠ 0 ∧ r.max.val ≠ 0) := by
  cases op with
  | add =>
    obtain ⟨hspan, hrange⟩ := span_of_ends h
    exact ⟨hspan, hrange, fun hdiv => by cases hdiv⟩
  | sub =>
    obtain ⟨hspan, hrange⟩ := span_of_ends h
    exact ⟨hspan, hrange, fun hdiv => by cases hdiv⟩
  | mul =>
    have hcorners : corners .mul l [r.min, r.max] = .ok b := h
    obtain ⟨hspan, hrange⟩ := span_of_corners hcorners List.mem_cons_self
    exact ⟨hspan, hrange, fun hdiv => by cases hdiv⟩
  | div =>
    have hcorners : corners .div l (divisors r) = .ok b := h
    have hends : ∀ s ∈ divisors r, s.val ≠ 0 := fun s hs =>
      (exact_mem_of_corners hcorners (List.mem_pair.2 (.inl rfl)) hs).1 rfl
    obtain ⟨hmin, hmax⟩ := mem_divisors r
    obtain ⟨hspan, hrange⟩ := span_of_corners hcorners hmin
    rw [map_val_divisors] at hspan hrange
    exact ⟨hspan, hrange, fun _ => ⟨hends _ hmin, hends _ hmax⟩⟩

/-- The bounds of an operation cannot be had where one of the results from which they are taken is
no amount, or where a bound of a divisor is zero. -/
lemma combine_eq_error {op : Operator} {l r : Bounds} {e : EvalError}
    (h : combine op l r = .error e) :
    (e = .overflow ∧ ∃ v ∈ Span.ends op l.span r.span, ¬InRange v) ∨
      (e = .divisionByZero ∧ op = .div ∧ (r.min.val = 0 ∨ r.max.val = 0)) := by
  cases op with
  | add => exact .inl (ends_eq_error (by decide) h)
  | sub => exact .inl (ends_eq_error (by decide) h)
  | mul =>
    have hcorners : corners .mul l [r.min, r.max] = .error e := h
    rcases corners_eq_error hcorners with hrange | ⟨-, hdiv, -⟩
    · exact .inl hrange
    · cases hdiv
  | div =>
    have hcorners : corners .div l (divisors r) = .error e := h
    rcases corners_eq_error hcorners with hrange | ⟨he, hdiv, s, hs, hzero⟩
    · rw [map_val_divisors] at hrange
      exact .inl hrange
    · exact .inr ⟨he, hdiv, eq_zero_of_mem_divisors hs hzero⟩

end Bounds

/-! ## Reckonings -/

/-- The total and the bounds of an outcome, as integers of any size. -/
structure Reckoning extends Span where
  /-- The value of the expression. -/
  total : ℤ

namespace Reckoning

/-- The reckoning of a number. -/
def constant (n : ℤ) : Reckoning := ⟨⟨n, n⟩, n⟩

/-- The reckoning of a throw: the sum of the dice that count, and as many times the lowest and the
highest face. -/
def ofThrow (d : Dice) (raw : List Die) : Reckoning :=
  let kept := d.selection.select d.selected.toNat raw
  { total := (kept.map fun die => die.value.val).sum
    low := kept.length * d.sides.lowest.val
    high := kept.length * d.sides.highest.val }

/-- All that is reckoned for a throw: the sums on the way to the total, the number of dice that
count, and the bounds. -/
def throwSteps (d : Dice) (raw : List Die) : List ℤ :=
  let kept := d.selection.select d.selected.toNat raw
  (kept.inits.map fun part => (part.map fun die => die.value.val).sum) ++
    [(kept.length : ℤ), (ofThrow d raw).low, (ofThrow d raw).high]

/-- The reckoning of an operation. -/
def combine (op : Operator) (l r : Reckoning) : Reckoning :=
  { Span.combine op l.toSpan r.toSpan with total := op.exact l.total r.total }

/-- All that is reckoned for an operation: the total, and the results from which the bounds are
taken. -/
def combineSteps (op : Operator) (l r : Reckoning) : List ℤ :=
  op.exact l.total r.total :: Span.ends op l.toSpan r.toSpan

/-- A divisor by which a quotient or one of its bounds cannot be had. -/
def Vanishes (r : Reckoning) : Prop := r.total = 0 ∨ r.low = 0 ∨ r.high = 0

end Reckoning

namespace Outcome

/-- The total and the bounds of the outcome, as integers. -/
def reckoning (o : Outcome) : Reckoning := ⟨o.bounds.span, o.total.val⟩

/-! ### Operations -/

/-- An operation has come to what is reckoned. All that is reckoned are amounts, and no divisor
vanishes. -/
lemma reckoning_of_combine {op : Operator} {l r o : Outcome} (h : combine op l r = .ok o) :
    o.reckoning = .combine op l.reckoning r.reckoning ∧
      (∀ v ∈ Reckoning.combineSteps op l.reckoning r.reckoning, InRange v) ∧
      (op = .div → ¬r.reckoning.Vanishes) := by
  obtain ⟨htotal, hbounds, -⟩ := combine_eq_ok.1 h
  obtain ⟨hzero, hexact⟩ := Operator.apply_eq_ok.1 htotal
  obtain ⟨hspan, hrange, hdivisors⟩ := Bounds.span_of_combine hbounds
  refine ⟨?_, List.forall_mem_cons.2 ⟨?_, hrange⟩, fun hop => ?_⟩
  · rw [reckoning, hspan, hexact]
    rfl
  · exact hexact ▸ o.total.inRange_val
  · rintro (htotal | hlow | hhigh)
    · exact hzero hop htotal
    · exact (hdivisors hop).1 hlow
    · exact (hdivisors hop).2 hhigh

/-- An operation comes to nothing where something that is reckoned is no amount, or where a divisor
vanishes. -/
lemma combine_eq_error {op : Operator} {l r : Outcome} {e : EvalError}
    (h : combine op l r = .error e) :
    (e = .overflow ∧ ∃ v ∈ Reckoning.combineSteps op l.reckoning r.reckoning, ¬InRange v) ∨
      (e = .divisionByZero ∧ op = .div ∧ r.reckoning.Vanishes) := by
  rcases bind_eq_error.1 h with htotal | ⟨total, -, hrest⟩
  · rcases Operator.apply_eq_error htotal with ⟨he, hrange⟩ | ⟨he, hop, hzero⟩
    · exact .inl ⟨he, _, List.mem_cons_self, hrange⟩
    · exact .inr ⟨he, hop, .inl hzero⟩
  · rcases bind_eq_error.1 hrest with hbounds | ⟨bounds, -, hok⟩
    · rcases Bounds.combine_eq_error hbounds with ⟨he, v, hv, hrange⟩ | ⟨he, hop, hzero⟩
      · exact .inl ⟨he, v, List.mem_cons_of_mem _ hv, hrange⟩
      · exact .inr ⟨he, hop, .inr hzero⟩
    · cases hok

/-! ### Throws -/

/-- All sums on the way to a sum of dice are amounts. -/
lemma inRange_of_sum? {start total : Amount} {dice part : List Die}
    (h : sum? start dice = some total) (hpart : part <+: dice) :
    InRange (start.val + (part.map fun die => die.value.val).sum) := by
  induction dice generalizing start part with
  | nil =>
    rw [List.prefix_nil.1 hpart, List.map_nil, List.sum_nil, add_zero]
    exact start.inRange_val
  | cons die dice ih =>
    rw [sum?, Option.bind_eq_some_iff] at h
    obtain ⟨next, hnext, hrest⟩ := h
    rw [Amount.ofInt?_eq_some] at hnext
    cases part with
    | nil =>
      rw [List.map_nil, List.sum_nil, add_zero]
      exact start.inRange_val
    | cons first part =>
      obtain ⟨rfl, htail⟩ := List.cons_prefix_cons.1 hpart
      rw [List.map_cons, List.sum_cons, ← add_assoc, ← hnext]
      exact ih hrest htail

/-- A throw has come to what is reckoned, and all that is reckoned are amounts. -/
lemma reckoning_of_ofThrow {d : Dice} {raw : List Die} {o : Outcome} (h : ofThrow d raw = .ok o) :
    o.reckoning = .ofThrow d raw ∧ ∀ v ∈ Reckoning.throwSteps d raw, InRange v := by
  obtain ⟨-, hkept, hsum, hmin, hmax, -⟩ := ofThrow_eq_ok.1 h
  rw [hkept] at hsum hmin hmax
  have hzero : Amount.zero.val = 0 := rfl
  have htotal := sum?_eq_some hsum
  rw [hzero, zero_add] at htotal
  constructor
  · rw [reckoning, Reckoning.ofThrow, ← hmin, ← hmax, ← htotal]
    rfl
  · intro v hv
    have hlow : InRange (Reckoning.ofThrow d raw).low := hmin.subst o.minimum.inRange_val
    have hhigh : InRange (Reckoning.ofThrow d raw).high := hmax.subst o.maximum.inRange_val
    rcases List.mem_append.1 hv with hv | hv
    · obtain ⟨part, hpart, rfl⟩ := List.mem_map.1 hv
      have hrange := inRange_of_sum? hsum ((List.mem_inits _ _).1 hpart)
      rwa [hzero, zero_add] at hrange
    · simp only [List.mem_cons, List.not_mem_nil, or_false] at hv
      rcases hv with rfl | rfl | rfl
      · have hcount := Int.natCast_nonneg (d.selection.select d.selected.toNat raw).length
        have hle := le_mul_of_one_le_right hcount d.sides.one_le_highest
        exact ⟨by omega, hle.trans_lt hhigh.2⟩
      · exact hlow
      · exact hhigh

/-- Dice that show faces of a kind can be added up, if as many dice with their lowest or with their
highest face up can. -/
lemma exists_sum? {sides : Sides} {start : Amount} {dice : List Die}
    (hshows : ∀ die ∈ dice, die.Shows sides)
    (hlow : -0x8000000000000000 ≤ start.val + dice.length * min 0 sides.lowest.val)
    (hhigh : start.val + dice.length * sides.highest.val < 0x8000000000000000) :
    ∃ total, sum? start dice = some total := by
  induction dice generalizing start with
  | nil => exact ⟨start, rfl⟩
  | cons die rest ih =>
    obtain ⟨hle, hge⟩ := hshows die List.mem_cons_self
    have hface := sides.one_le_highest
    have hneg : (rest.length : ℤ) * min 0 sides.lowest.val ≤ 0 :=
      mul_nonpos_of_nonneg_of_nonpos (Int.natCast_nonneg _) (min_le_left _ _)
    have hpos : 0 ≤ (rest.length : ℤ) * sides.highest.val :=
      mul_nonneg (Int.natCast_nonneg _) (by omega)
    have hmin : min 0 sides.lowest.val ≤ sides.lowest.val := min_le_right _ _
    rw [List.length_cons, Nat.cast_succ, add_one_mul] at hlow hhigh
    obtain ⟨next, hnext⟩ : ∃ next : Amount, next.val = start.val + die.value.val :=
      ⟨⟨start.val + die.value.val, by omega, by omega⟩, rfl⟩
    obtain ⟨total, htotal⟩ : ∃ total, sum? next rest = some total := by
      refine ih (fun d hd => hshows d (List.mem_cons_of_mem die hd)) ?_ ?_
      · omega
      · omega
    exact ⟨total, by rw [sum?, Amount.ofInt?_eq_some.2 hnext, Option.bind_some, htotal]⟩

/-- A throw whose dice show faces of their kind has an outcome, if its greatest bound is an amount.
-/
lemma exists_ofThrow {d : Dice} {raw : List Die} (hshows : ∀ die ∈ raw, die.Shows d.sides)
    (hrange : InRange (Reckoning.ofThrow d raw).high) : ∃ o, ofThrow d raw = .ok o := by
  let kept := d.selection.select d.selected.toNat raw
  have hmember : ∀ die ∈ kept, die.Shows d.sides := fun die hdie =>
    hshows die (Selection.mem_of_mem_select hdie)
  have hcount : 0 ≤ (kept.length : ℤ) := Int.natCast_nonneg _
  have hhigh : kept.length * d.sides.highest.val < 0x8000000000000000 := hrange.2
  -- As the highest face is not below one, the dice can be counted, and no face is below minus one.
  have hlength : (kept.length : ℤ) ≤ kept.length * d.sides.highest.val :=
    le_mul_of_one_le_right hcount d.sides.one_le_highest
  have hlow : kept.length * -1 ≤ kept.length * d.sides.lowest.val :=
    mul_le_mul_of_nonneg_left d.sides.neg_one_le_lowest hcount
  have hzero : kept.length * -1 ≤ kept.length * min 0 d.sides.lowest.val :=
    mul_le_mul_of_nonneg_left (le_min (by decide) d.sides.neg_one_le_lowest) hcount
  have hle : kept.length * d.sides.lowest.val ≤ kept.length * d.sides.highest.val :=
    mul_le_mul_of_nonneg_left d.sides.lowest_le_highest hcount
  obtain ⟨minimum, hmin⟩ : ∃ a : Amount, a.val = kept.length * d.sides.lowest.val :=
    Amount.exists_of_inRange ⟨by omega, by omega⟩
  obtain ⟨maximum, hmax⟩ := Amount.exists_of_inRange hrange
  obtain ⟨total, htotal⟩ : ∃ total, sum? .zero kept = some total := by
    refine exists_sum? hmember ?_ ?_
    · change _ ≤ 0 + _
      omega
    · change 0 + _ < _
      omega
  let counted := if d.selection = .all then d.count.toFloat else kept.length.toUInt64.toFloat
  exact ⟨⟨total, minimum, maximum, counted * d.sides.average, raw, kept⟩,
    ofThrow_eq_ok.2 ⟨rfl, rfl, htotal, hmin, hmax, rfl⟩⟩

end Outcome

end DiceNotation
