import DiceNotation.Proofs.Eval.Independence
import DiceNotation.Proofs.Eval.Replay
import Mathlib
/-!
# Bounds that are attained

The bounds of an outcome are the least and the greatest total that the expression can have with
honest dice under the same limit (`bounds_attained`), if no die can explode and no divisor can have
either sign.

The bounds of an operation are its results at corners of the bounds of its operands
(`Bounds.attains_of_combine`). A throw attains its bounds where all of its dice show the same face.
As the operands of an operation throw dice of their own, each of them can be brought to the end of
its bounds that the corner asks for (`Expr.Reaches.binary`).
-/

namespace DiceNotation

/-! ## Corners -/

namespace Bounds

/-- Widened bounds end where they did before or at the amounts that they were widened by. -/
lemma ends_foldl_widen (rest : List Amount) (b : Bounds) :
    (rest.foldl widen b).min ∈ b.min :: rest ∧ (rest.foldl widen b).max ∈ b.max :: rest := by
  induction rest generalizing b with
  | nil => simp
  | cons first rest ih =>
    obtain ⟨hmin, hmax⟩ := ih (b.widen first)
    have hlesser : (b.widen first).min = b.min ∨ (b.widen first).min = first := by
      unfold widen lesser
      dsimp only
      split <;> simp
    have hgreater : (b.widen first).max = b.max ∨ (b.widen first).max = first := by
      unfold widen greater
      dsimp only
      split <;> simp
    rw [List.foldl_cons]
    simp only [List.mem_cons] at hmin hmax ⊢
    constructor
    · rcases hmin with hmin | hmin
      · rw [hmin]
        exact hlesser.imp_right .inl
      · exact .inr (.inr hmin)
    · rcases hmax with hmax | hmax
      · rw [hmax]
        exact hgreater.imp_right .inl
      · exact .inr (.inr hmax)

/-- The operation has this result at some corner of the bounds of its operands. -/
def Attains (op : Operator) (l r : Bounds) (a : Amount) : Prop :=
  ∃ x ∈ [l.min, l.max], ∃ y ∈ [r.min, r.max], op.apply x y = .ok a

/-- The bounds of the results at the corners are two of these results. -/
lemma attains_of_corners {op : Operator} {l r b : Bounds}
    (h : corners op l [r.min, r.max] = .ok b) : Attains op l r b.min ∧ Attains op l r b.max := by
  obtain ⟨answers, hresults, hhull⟩ := bind_eq_ok.1 h
  have hcorner : ∀ a ∈ answers, Attains op l r a := by
    intro a ha
    obtain ⟨⟨x, y⟩, hpair, happly⟩ := exists_of_mem_answers hresults a ha
    obtain ⟨left, hx, hright⟩ := List.mem_flatMap.1 hpair
    obtain ⟨right, hy, hxy⟩ := List.mem_map.1 hright
    cases hxy
    exact ⟨_, hx, _, hy, happly⟩
  cases answers with
  | nil =>
    have hfirst : (l.min, r.min) ∈
        [l.min, l.max].flatMap fun l => [r.min, r.max].map fun r => (l, r) := by
      simp
    obtain ⟨a, ha, -⟩ := mem_of_mapM_eq_ok hresults _ hfirst
    cases ha
  | cons first rest =>
    cases hhull
    obtain ⟨hmin, hmax⟩ := ends_foldl_widen rest ⟨first, first⟩
    exact ⟨hcorner _ hmin, hcorner _ hmax⟩

/-- The bounds of an operation are results at corners, if the divisor of a division keeps to one
side of zero. -/
theorem attains_of_combine {op : Operator} {l r b : Bounds} (h : combine op l r = .ok b)
    (hside : op = .div → ¬(r.min.val < 0 ∧ 0 < r.max.val)) :
    Attains op l r b.min ∧ Attains op l r b.max := by
  have hl : l.min ∈ [l.min, l.max] ∧ l.max ∈ [l.min, l.max] := by simp
  have hr : r.min ∈ [r.min, r.max] ∧ r.max ∈ [r.min, r.max] := by simp
  cases op with
  | add =>
    obtain ⟨hmin, hmax⟩ := ends_of_bind h
    exact ⟨⟨_, hl.1, _, hr.1, hmin⟩, ⟨_, hl.2, _, hr.2, hmax⟩⟩
  | sub =>
    obtain ⟨hmin, hmax⟩ := ends_of_bind h
    exact ⟨⟨_, hl.1, _, hr.2, hmin⟩, ⟨_, hl.2, _, hr.1, hmax⟩⟩
  | mul =>
    have hcorners : corners .mul l [r.min, r.max] = .ok b := h
    exact attains_of_corners hcorners
  | div =>
    have hdivisors : divisors r = [r.min, r.max] := if_neg (hside rfl)
    have hcorners : corners .div l (divisors r) = .ok b := h
    rw [hdivisors] at hcorners
    exact attains_of_corners hcorners

end Bounds

/-! ## Totals -/

namespace Expr

/-- No divisor can have either sign: none has bounds around zero. -/
def OneSided : Expr → Prop
  | .number _ => True
  | .dice _ => True
  | .binary left op right => left.OneSided ∧ right.OneSided ∧
      (op = .div → ∀ b, right.bounds = .ok b → ¬(b.min.val < 0 ∧ 0 < b.max.val))

/-- Some proper dice give the expression this total. -/
def Reaches (e : Expr) (a : Amount) : Prop :=
  ∃ trace o, (∀ draw ∈ trace, draw.2.Legal draw.1) ∧ Gives e trace (.ok o) ∧ o.total = a

/-- The totals of the expression with honest dice. -/
def totals (e : Expr) (limit : Option Nat) : Set ℤ :=
  {n | ∃ (σ : Type) (source : Source σ) (state next : σ) (o : Outcome), source.Honest state ∧
    e.evaluate source limit state = (.ok o, next) ∧ o.total.val = n}

variable {e : Expr} {b : Bounds} {limit : Option Nat}

/-- A throw in which all dice show the same face. -/
lemma reaches_dice {d : Dice} {face a : Amount} (hd : d.explodes = false)
    (hface : (Die.of d.sides face).Legal d.sides) (hb : d.bounds = .ok b)
    (ha : a.val = d.kept * face.val) : (dice d).Reaches a := by
  let raw := List.replicate d.count.toNat (Die.of d.sides face)
  have hraw : ∀ die ∈ raw, die = Die.of d.sides face := fun die hdie =>
    List.eq_of_mem_replicate hdie
  have hlength : raw.length = d.count.toNat := List.length_replicate
  have hlegal : ∀ die ∈ raw, die.Legal d.sides := fun die hdie => (hraw die hdie) ▸ hface
  have hthrown : Thrown d.sides d.explodes d.count.toNat raw := by
    rw [hd]
    exact thrown_iff_length.2 hlength
  obtain ⟨o, ho⟩ := Outcome.exists_of_bounds hb hlength hlegal
  obtain ⟨-, hkept, hsum, -⟩ := Outcome.ofThrow_eq_ok.1 ho
  refine ⟨Trace.ofDice d.sides raw, o, ?_, ho ▸ .dice hthrown, ?_⟩
  · rintro ⟨sides, die⟩ hdraw
    obtain ⟨rfl, hdie⟩ := Trace.mem_ofDice.1 hdraw
    exact hlegal die hdie
  · have hsame : ∀ v ∈ o.kept.map fun die => die.value.val, v = face.val := by
      intro v hv
      obtain ⟨die, hdie, rfl⟩ := List.mem_map.1 hv
      rw [hkept] at hdie
      rw [hraw die (Selection.mem_of_mem_select hdie), Die.value_of]
    have hcount : o.kept.length = d.kept := by
      rw [hkept, Selection.length_select, hlength, Dice.kept]
    rw [Amount.ext_iff, Outcome.sum?_eq_some hsum, List.sum_eq_card_nsmul _ _ hsame,
      List.length_map, hcount, ha, nsmul_eq_mul]
    exact zero_add _

/-- The dice of the operands are thrown one after the other. -/
lemma Reaches.binary {left right : Expr} {op : Operator} {x y a : Amount} {l r : Bounds}
    (he : (Expr.binary left op right).NeverExplodes) (hl : left.Reaches x) (hr : right.Reaches y)
    (hlb : left.bounds = .ok l) (hrb : right.bounds = .ok r)
    (hb : Bounds.combine op l r = .ok b) (ha : op.apply x y = .ok a) :
    (Expr.binary left op right).Reaches a := by
  obtain ⟨first, lo, hfirst, hleft, rfl⟩ := hl
  obtain ⟨second, ro, hsecond, hright, rfl⟩ := hr
  obtain rfl : l = lo.bounds := (hleft.fits he.1).bounds_of_eq_ok hlb
  obtain rfl : r = ro.bounds := (hright.fits he.2).bounds_of_eq_ok hrb
  let o : Outcome := ⟨a, b.min, b.max, op.applyFloat lo.average ro.average, lo.raw ++ ro.raw,
    lo.kept ++ ro.kept⟩
  have ho : Outcome.combine op lo ro = .ok o := Outcome.combine_eq_ok.2 ⟨ha, hb, rfl, rfl, rfl⟩
  refine ⟨first ++ second, o, ?_, ho ▸ .binary hleft hright, rfl⟩
  intro draw hdraw
  rcases List.mem_append.1 hdraw with hdraw | hdraw
  · exact hfirst draw hdraw
  · exact hsecond draw hdraw

/-- Proper dice bring an expression to either of its bounds. -/
lemma reaches_bounds (he : e.NeverExplodes) (hs : e.OneSided) (hb : e.bounds = .ok b) :
    e.Reaches b.min ∧ e.Reaches b.max := by
  induction e generalizing b with
  | number value =>
    cases hb
    have hvalue : (number value).Reaches value := ⟨[], _, by simp, .number value, rfl⟩
    exact ⟨hvalue, hvalue⟩
  | dice d =>
    have hb : d.bounds = .ok b := hb
    obtain ⟨hmin, hmax⟩ := Dice.bounds_eq_ok.1 hb
    have hle := d.sides.lowest_le_highest
    exact ⟨reaches_dice he ⟨le_rfl, hle, rfl⟩ hb hmin, reaches_dice he ⟨hle, le_rfl, rfl⟩ hb hmax⟩
  | binary left op right ihl ihr =>
    obtain ⟨l, r, hl, hr, hcombine⟩ := bounds_binary_eq_ok.1 hb
    have hleft := ihl he.1 hs.1 hl
    have hright := ihr he.2 hs.2.1 hr
    have hends : ∀ a, Bounds.Attains op l r a → (binary left op right).Reaches a := by
      rintro a ⟨x, hx, y, hy, ha⟩
      have hx : left.Reaches x := by
        rcases List.mem_pair.1 hx with rfl | rfl
        · exact hleft.1
        · exact hleft.2
      have hy : right.Reaches y := by
        rcases List.mem_pair.1 hy with rfl | rfl
        · exact hright.1
        · exact hright.2
      exact hx.binary he hy hl hr hcombine ha
    obtain ⟨hmin, hmax⟩ := Bounds.attains_of_combine hcombine fun hop => hs.2.2 hop r hr
    exact ⟨hends _ hmin, hends _ hmax⟩

/-- Recorded dice are an honest source of the total that they give. -/
lemma Reaches.mem_totals {a : Amount} (h : e.Reaches a) (he : e.NeverExplodes)
    (ha : Affords limit e.kinds.length) : a.val ∈ e.totals limit := by
  obtain ⟨trace, o, hlegal, hgives, rfl⟩ := h
  have hlabel : ∀ draw ∈ trace, draw.2.Bears draw.1 := fun draw hdraw => (hlegal draw hdraw).bears
  have hdice : ∀ die ∈ trace.dice, ∃ sides, die.Legal sides := by
    intro die hdie
    obtain ⟨draw, hdraw, rfl⟩ := List.mem_map.1 hdie
    exact ⟨draw.1, hlegal draw hdraw⟩
  have honest := Replay.honest_source [] hdice (Source.honest_highFirst false)
  have hnone : ∀ p ∈ ([] : List Nat), trace.length ≤ p := by simp
  have hdeals := Replay.deals_source hlabel hnone Source.highFirst false
  have hlength : trace.length = e.kinds.length := by
    rw [← hgives.kinds_eq he, Trace.length_kinds]
  exact ⟨_, _, _, _, o, honest, evaluate_of_gives hgives hdeals (hlength ▸ ha), rfl⟩

end Expr

/-- If no die can explode and no divisor can have either sign, the bounds of an outcome are the
least and the greatest total that there is with honest dice under the same limit. -/
theorem bounds_attained {σ : Type} {source : Source σ} {state next : σ} {e : Expr}
    {limit : Option Nat} {o : Outcome} (he : e.NeverExplodes) (hs : e.OneSided)
    (h : e.evaluate source limit state = (.ok o, next)) :
    IsLeast (e.totals limit) o.minimum.val ∧ IsGreatest (e.totals limit) o.maximum.val := by
  obtain ⟨hfits, -, ha⟩ := Expr.draws_of_evaluate he h
  obtain ⟨hmin, hmax⟩ := Expr.reaches_bounds he hs hfits.bounds_eq
  have hbracket : ∀ n ∈ e.totals limit, o.minimum.val ≤ n ∧ n ≤ o.maximum.val := by
    rintro n ⟨τ, source', state', next', o', honest', h', rfl⟩
    obtain ⟨hfits', -, -⟩ := Expr.draws_of_evaluate he h'
    have hbounds : o'.bounds = o.bounds := hfits.bounds_of_eq_ok hfits'.bounds_eq
    have hbracketed := (Expr.bracketed_of_evaluate honest' h').1
    have hmin' : o'.minimum = o.minimum := congrArg Bounds.min hbounds
    have hmax' : o'.maximum = o.maximum := congrArg Bounds.max hbounds
    rw [← hmin', ← hmax']
    exact hbracketed
  exact ⟨⟨hmin.mem_totals he ha, fun n hn => (hbracket n hn).1⟩,
    ⟨hmax.mem_totals he ha, fun n hn => (hbracket n hn).2⟩⟩

/-- A fate die less three, which is always negative. -/
def negativeDivisor : Expr :=
  .binary (.dice (.plain 1 .fate)) .sub (.number (.ofUInt32 3))

/-- A product that can have either sign. -/
def signedProduct : Expr :=
  .binary (.binary (.dice (.plain 1 (.ofNumber 4))) .sub (.number (.ofUInt32 2))) .mul
    (.dice (.plain 2 (.ofNumber 6)))

/-- Ten less a quotient of these two. -/
def quotientOfProduct : Expr :=
  .binary (.number (.ofUInt32 10)) .sub (.binary signedProduct .div negativeDivisor)

/-- The least total takes a one, the greatest one a four, and both take twelve pips and a fate die
with its greatest face. -/
theorem bounds_attained_of_quotient :
    quotientOfProduct.NeverExplodes ∧ quotientOfProduct.OneSided ∧
      IsLeast (quotientOfProduct.totals (some 4)) 4 ∧
      IsGreatest (quotientOfProduct.totals (some 4)) 22 := by
  have he : quotientOfProduct.NeverExplodes :=
    ⟨trivial, ⟨⟨rfl, trivial⟩, rfl⟩, rfl, trivial⟩
  have hnegative : (match negativeDivisor.bounds with
      | .ok b => b.max.val < 0
      | .error _ => false) = true := by
    decide +kernel
  have hdivisor : ∀ b, negativeDivisor.bounds = .ok b → ¬(b.min.val < 0 ∧ 0 < b.max.val) := by
    intro b hb
    rw [hb] at hnegative
    have hmax : b.max.val < 0 := of_decide_eq_true hnegative
    omega
  have hsub : Operator.sub ≠ .div := by decide
  have hmul : Operator.mul ≠ .div := by decide
  have hproduct : signedProduct.OneSided :=
    ⟨⟨trivial, trivial, fun h => absurd h hsub⟩, trivial, fun h => absurd h hmul⟩
  have hnegative' : negativeDivisor.OneSided := ⟨trivial, trivial, fun h => absurd h hsub⟩
  have hs : quotientOfProduct.OneSided :=
    ⟨trivial, ⟨hproduct, hnegative', fun _ => hdivisor⟩, fun h => absurd h hsub⟩
  have hrun : (quotientOfProduct.succeeds Source.highFirst (some 4) false fun o _ =>
      o.minimum.val = 4 ∧ o.maximum.val = 22) = true := by
    decide +kernel
  obtain ⟨o, next, heval, htest⟩ := Expr.exists_of_succeeds hrun
  obtain ⟨hmin, hmax⟩ := of_decide_eq_true htest
  rw [← hmin, ← hmax]
  exact ⟨he, hs, bounds_attained he hs heval⟩

end DiceNotation
