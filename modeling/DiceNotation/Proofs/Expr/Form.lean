import DiceNotation.Proofs.Eval.Trace
import Mathlib.Tactic.Common
/-!
# What an expression fixes

Where no die can explode (`Expr.NeverExplodes`), the expression alone fixes which dice are thrown
(`Expr.kinds`), how many of them count (`Expr.kept`), the average (`Expr.average`) and the bounds
(`Expr.bounds`). An evaluation asks its source for these kinds of dice one after the other, until it
fails or has asked for all of them (`Expr.Gives.kinds_isPrefix`), and every outcome has just this
average and these bounds, and as many kept dice (`Expr.Gives.fits`), whatever the dice show.
-/

namespace DiceNotation

/-! ## Selections -/

namespace Selection

/-- How many of `thrown` dice count, when `n` dice are to be kept or dropped. -/
def size (n thrown : Nat) : Selection → Nat
  | .all => thrown
  | .keepHighest | .keepLowest => min n thrown
  | .dropHighest | .dropLowest => thrown - n

/-- No die is lost when dice are put back in order. -/
lemma length_inOrder (placed : List Placed) : (inOrder placed).length = placed.length := by
  rw [inOrder, List.length_map, List.length_mergeSort]

/-- How many dice count depends on how many were thrown only. -/
lemma length_select (selection : Selection) (n : Nat) (dice : List Die) :
    (selection.select n dice).length = selection.size n dice.length := by
  have hranked : ∀ le : Placed → Placed → Bool,
      (dice.zipIdx.mergeSort le).length = dice.length := by
    intro le
    rw [List.length_mergeSort, List.length_zipIdx]
  cases selection with
  | all => rfl
  | keepHighest | keepLowest =>
    rw [select, length_inOrder, List.length_take]
    exact congrArg _ (hranked _)
  | dropHighest | dropLowest =>
    rw [select, length_inOrder, List.length_drop]
    exact congrArg (· - n) (hranked _)

end Selection

/-! ## Throws -/

namespace Trace

lemma kinds_append (first second : Trace) :
    (first ++ second).kinds = first.kinds ++ second.kinds :=
  List.map_append

/-- Dice of one kind are asked for one by one. -/
lemma kinds_ofDice (sides : Sides) (dice : List Die) :
    (ofDice sides dice).kinds = List.replicate dice.length sides := by
  rw [kinds, ofDice, List.map_map]
  exact List.map_const'

end Trace

/-- Where dice do not explode, every die is final. -/
lemma thrown_iff_length {sides : Sides} {n : Nat} {dice : List Die} :
    Thrown sides false n dice ↔ dice.length = n := by
  have hfinal : ∀ die : Die, ¬(false = true ∧ die.value = sides.highest) := by
    rintro die ⟨⟨⟩, -⟩
  constructor
  · intro h
    induction h with
    | none => rfl
    | exploding hd rest ih => exact absurd hd (hfinal _)
    | final hd rest ih => exact congrArg Nat.succ ih
  · rintro rfl
    induction dice with
    | nil => exact .none
    | cons die dice ih => exact .final (hfinal die) ih

namespace Dice

/-- How many dice of the throw count. -/
def kept (d : Dice) : Nat := d.selection.size d.selected.toNat d.count.toNat

/-- The average of the throw. -/
def average (d : Dice) : Float :=
  (if d.selection = .all then d.count.toFloat else d.kept.toUInt64.toFloat) * d.sides.average

/-- The bounds of the throw, if they are amounts. -/
def bounds (d : Dice) : Except EvalError Bounds :=
  match Amount.ofInt? (d.kept * d.sides.lowest.val),
      Amount.ofInt? (d.kept * d.sides.highest.val) with
  | some min, some max => .ok ⟨min, max⟩
  | _, _ => .error .overflow

/-- As many dice as count all show their lowest or all show their highest face at the bounds. -/
lemma bounds_eq_ok {d : Dice} {b : Bounds} :
    d.bounds = .ok b ↔
      b.min.val = d.kept * d.sides.lowest.val ∧ b.max.val = d.kept * d.sides.highest.val := by
  unfold bounds
  split
  · rename_i min max hmin hmax
    rw [Amount.ofInt?_eq_some] at hmin hmax
    obtain ⟨min', max'⟩ := b
    simp [← hmin, ← hmax, ← Amount.ext_iff, eq_comm]
  · rename_i hnone
    simp only [reduceCtorEq, false_iff, not_and]
    intro hmin hmax
    exact hnone b.min b.max (Amount.ofInt?_eq_some.2 hmin) (Amount.ofInt?_eq_some.2 hmax)

end Dice

/-! ## Expressions -/

namespace Expr

/-- No throw of the expression explodes. -/
def NeverExplodes : Expr → Prop
  | .number _ => True
  | .dice d => d.explodes = false
  | .binary left _ right => left.NeverExplodes ∧ right.NeverExplodes

/-- The kinds of dice that are asked for, in the order of the throws. -/
def kinds : Expr → List Sides
  | .number _ => []
  | .dice d => List.replicate d.count.toNat d.sides
  | .binary left _ right => left.kinds ++ right.kinds

/-- How many dice count. -/
def kept : Expr → Nat
  | .number _ => 0
  | .dice d => d.kept
  | .binary left _ right => left.kept + right.kept

/-- The average, with floating-point arithmetic on those of the throws. -/
def average : Expr → Float
  | .number value => value.toFloat
  | .dice d => d.average
  | .binary left op right => op.applyFloat left.average right.average

/-- The bounds, if all bounds on the way are amounts and none of a divisor is zero. -/
def bounds : Expr → Except EvalError Bounds
  | .number value => .ok ⟨value, value⟩
  | .dice d => d.bounds
  | .binary left op right => do
    let l ← left.bounds
    let r ← right.bounds
    Bounds.combine op l r

/-- The outcome has what the expression fixes. -/
structure Fits (e : Expr) (o : Outcome) : Prop where
  /-- The bounds are those of the expression. -/
  bounds_eq : e.bounds = .ok o.bounds
  /-- The average is that of the expression. -/
  average_eq : o.average = e.average
  /-- As many dice are kept as the expression keeps. -/
  length_kept : o.kept.length = e.kept

variable {e : Expr} {trace : Trace} {o : Outcome} {answer : Except EvalError Outcome}

/-- The expression has no bounds but those of its outcomes. -/
lemma Fits.bounds_of_eq_ok (h : e.Fits o) {b : Bounds} (hb : e.bounds = .ok b) : b = o.bounds :=
  Except.ok.inj (hb.symm.trans h.bounds_eq)

/-- Every outcome has what the expression fixes. -/
lemma Gives.fits (h : Gives e trace (.ok o)) (he : e.NeverExplodes) : e.Fits o := by
  induction h using Gives.ok_induction with
  | number value => exact ⟨rfl, rfl, rfl⟩
  | dice d raw o ht ho =>
    obtain ⟨-, hkept, -, hmin, hmax, haverage⟩ := Outcome.ofThrow_eq_ok.1 ho
    have hexplodes : d.explodes = false := he
    rw [hexplodes] at ht
    have hlength : o.kept.length = d.kept := by
      rw [hkept, Selection.length_select, thrown_iff_length.1 ht, Dice.kept]
    rw [hlength] at hmin hmax haverage
    exact ⟨Dice.bounds_eq_ok.2 ⟨hmin, hmax⟩, haverage, hlength⟩
  | binary left op right first second l r o hl hr ho ihl ihr =>
    obtain ⟨-, hbounds, haverage, -, hkept⟩ := Outcome.combine_eq_ok.1 ho
    have hleft := ihl he.1
    have hright := ihr he.2
    refine ⟨?_, ?_, ?_⟩
    · exact bind_eq_ok.2 ⟨_, hleft.bounds_eq, bind_eq_ok.2 ⟨_, hright.bounds_eq, hbounds⟩⟩
    · rw [haverage, hleft.average_eq, hright.average_eq, average]
    · rw [hkept, List.length_append, hleft.length_kept, hright.length_kept, kept]

/-- For an outcome all the kinds of dice are asked for. -/
lemma Gives.kinds_eq (h : Gives e trace (.ok o)) (he : e.NeverExplodes) :
    trace.kinds = e.kinds := by
  induction h using Gives.ok_induction with
  | number value => rfl
  | dice d raw o ht ho =>
    have hexplodes : d.explodes = false := he
    rw [hexplodes, thrown_iff_length] at ht
    rw [Trace.kinds_ofDice, ht, kinds]
  | binary left op right first second l r o hl hr ho ihl ihr =>
    rw [Trace.kinds_append, ihl he.1, ihr he.2, kinds]

/-- An evaluation asks for the kinds of dice of the expression, one after the other, as long as it
does not fail. -/
lemma Gives.kinds_isPrefix (h : Gives e trace answer) (he : e.NeverExplodes) :
    trace.kinds <+: e.kinds := by
  induction h with
  | number value => exact List.prefix_rfl
  | @dice d raw ht =>
    have hexplodes : d.explodes = false := he
    rw [hexplodes, thrown_iff_length] at ht
    have hkinds : (Trace.ofDice d.sides raw).kinds = (Expr.dice d).kinds := by
      rw [Trace.kinds_ofDice, ht, kinds]
    exact hkinds ▸ List.prefix_rfl
  | left hl ihl => exact (ihl he.1).trans (List.prefix_append _ _)
  | right hl hr ihl ihr =>
    rw [Trace.kinds_append, hl.kinds_eq he.1, kinds]
    exact (List.prefix_append_right_inj _).2 (ihr he.2)
  | @binary left right op first second l r hl hr ihl ihr =>
    have hkinds : (first ++ second).kinds = (Expr.binary left op right).kinds := by
      rw [Trace.kinds_append, hl.kinds_eq he.1, hr.kinds_eq he.2, kinds]
    exact hkinds ▸ List.prefix_rfl

/-- Every source deals some trace of the expression. -/
lemma exists_gives {σ : Type} (he : e.NeverExplodes) (source : Source σ) (state : σ) :
    ∃ trace answer next, Gives e trace answer ∧ source.Deals state trace next := by
  induction e generalizing state with
  | number value => exact ⟨[], _, state, .number value, Source.deals_nil.2 rfl⟩
  | dice d =>
    have hexplodes : d.explodes = false := he
    let raw := (source.draws state (List.replicate d.count.toNat d.sides)).1
    have hlength : raw.length = d.count.toNat := by
      rw [Source.length_draws, List.length_replicate]
    have hthrown : Thrown d.sides d.explodes d.count.toNat raw := by
      rw [hexplodes]
      exact thrown_iff_length.2 hlength
    refine ⟨_, _, (source.draws state (List.replicate d.count.toNat d.sides)).2, .dice hthrown, ?_⟩
    rw [Source.Deals, Trace.kinds_ofDice, Trace.dice_ofDice, hlength]
  | binary left op right ihl ihr =>
    obtain ⟨first, l, middle, hleft, hfirst⟩ := ihl he.1 state
    cases l with
    | error err => exact ⟨first, _, middle, .left hleft, hfirst⟩
    | ok l =>
      obtain ⟨second, r, next, hright, hsecond⟩ := ihr he.2 middle
      have hdeals := Source.deals_append.2 ⟨middle, hfirst, hsecond⟩
      cases r with
      | error err => exact ⟨_, _, next, .right hleft hright, hdeals⟩
      | ok r => exact ⟨_, _, next, .binary hleft hright, hdeals⟩

variable {σ : Type} {source : Source σ} {state next : σ} {limit : Option Nat}

/-- For an outcome the source is asked for the kinds of dice of the expression, and the outcome has
what the expression fixes. -/
lemma draws_of_evaluate (he : e.NeverExplodes)
    (h : e.evaluate source limit state = (.ok o, next)) :
    e.Fits o ∧ source.draws state e.kinds = (o.raw, next) ∧ Affords limit e.kinds.length := by
  obtain ⟨trace, hgives, hdeals, ha⟩ := evaluate_eq_ok.1 h
  have hkinds := hgives.kinds_eq he
  have hlength : e.kinds.length = trace.length := by rw [← hkinds, Trace.length_kinds]
  refine ⟨hgives.fits he, ?_, ?_⟩
  · rw [← hkinds, hgives.raw_eq]
    exact hdeals
  · rw [hlength]
    exact ha

/-- Labelled dice of an outcome have the labels of the kinds of dice of the expression. -/
lemma labels_of_evaluate (he : e.NeverExplodes) (labelled : source.Labelled state)
    (h : e.evaluate source limit state = (.ok o, next)) :
    o.raw.map Die.label = e.kinds.map Sides.label := by
  obtain ⟨-, hdraws, -⟩ := draws_of_evaluate he h
  rw [← Source.map_label_draws labelled, hdraws]

end Expr

end DiceNotation
