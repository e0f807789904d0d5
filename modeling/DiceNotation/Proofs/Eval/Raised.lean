import DiceNotation.Proofs.Eval.Bracket
import DiceNotation.Proofs.Selection.Ranking
import DiceNotation.Source.Scripted
import Mathlib
/-!
# Higher dice

Where no die of a throw shows less than before, the total is not lower
(`Dice.total_le_of_draws_le`), although quite other dice may be kept. For the dice that are kept now
are worth at least as much as those at the places of the dice that were kept before, and these have
become no worse (`Selection.gain_select_le`). Where dice are dropped it is the other way round:
those that were left before are worth no more than those at the places of the dice that are left
now.
-/

namespace DiceNotation

/-! ## Selections -/

/-- Members that are chosen from a list have counterparts in a list to which it is related. -/
lemma exists_sublist_of_forall₂ {α β : Type} {r : α → β → Prop} {xs part : List α} {ys : List β}
    (h : List.Forall₂ r xs ys) (hpart : part.Sublist xs) :
    ∃ counterpart, counterpart.Sublist ys ∧ List.Forall₂ r part counterpart := by
  induction hpart generalizing ys with
  | slnil => exact ⟨[], List.nil_sublist ys, .nil⟩
  | cons x hpart ih =>
    cases h with
    | cons hxy hrest =>
      obtain ⟨counterpart, hsublist, hrelated⟩ := ih hrest
      exact ⟨counterpart, hsublist.cons _, hrelated⟩
  | cons_cons x hpart ih =>
    cases h with
    | cons hxy hrest =>
      obtain ⟨counterpart, hsublist, hrelated⟩ := ih hrest
      exact ⟨_, hsublist.cons_cons _, .cons hxy hrelated⟩

namespace Selection

variable {highest : Bool} {dice dice' : List Die}

/-- Dice that are worth more one by one are worth more together. -/
lemma gain_le_gain (h : List.Forall₂ (fun a b => worth highest a ≤ worth highest b) dice dice') :
    gain highest dice ≤ gain highest dice' := by
  refine List.Forall₂.sum_le_sum ?_
  rw [List.forall₂_map_left_iff, List.forall₂_map_right_iff]
  exact h

/-- Where no die becomes worse, the selected dice are worth no less. -/
lemma gain_select_le (keep : Bool) (n : Nat)
    (h : List.Forall₂ (fun a b => worth highest a ≤ worth highest b) dice dice') :
    gain highest ((of keep highest).select n dice) ≤
      gain highest ((of keep highest).select n dice') := by
  have hsize : ((of keep highest).select n dice).length =
      ((of keep highest).select n dice').length := by
    rw [length_select, length_select, h.length_eq]
  cases keep with
  | true =>
    obtain ⟨chosen, hchosen, hworth⟩ := exists_sublist_of_forall₂ h (select_sublist _ n dice)
    calc gain highest ((of true highest).select n dice)
        ≤ gain highest chosen := gain_le_gain hworth
      _ ≤ gain highest ((of true highest).select n dice') :=
        gain_le_gain_keep highest hchosen.subperm (hworth.length_eq.symm.trans hsize)
  | false =>
    obtain ⟨chosen, hchosen, hworth⟩ := exists_sublist_of_forall₂ h.flip (select_sublist _ n dice')
    calc gain highest ((of false highest).select n dice)
        ≤ gain highest chosen :=
          gain_drop_le_gain highest hchosen.subperm (hworth.length_eq.symm.trans hsize.symm)
      _ ≤ gain highest ((of false highest).select n dice') := gain_le_gain hworth.flip

/-- Where no die shows less, the selected dice do not show less together. -/
theorem sum_select_le (selection : Selection) (n : Nat)
    (h : List.Forall₂ (fun a b => a.value.val ≤ b.value.val) dice dice') :
    ((selection.select n dice).map fun die => die.value.val).sum ≤
      ((selection.select n dice').map fun die => die.value.val).sum := by
  have hall : gain true dice ≤ gain true dice' := gain_le_gain h
  have hhighest (keep : Bool) :
      gain true ((of keep true).select n dice) ≤ gain true ((of keep true).select n dice') :=
    gain_select_le keep n h
  -- To be worth more where the lowest dice are wanted is to show less.
  have hlowest (keep : Bool) :
      gain false ((of keep false).select n dice') ≤ gain false ((of keep false).select n dice) :=
    gain_select_le keep n (h.flip.imp fun a b hab => Int.neg_le_neg hab)
  cases selection with
  | all => exact hall
  | keepHighest => simpa [gain_eq, of] using hhighest true
  | keepLowest => simpa [gain_eq, of] using hlowest true
  | dropHighest => simpa [gain_eq, of] using hhighest false
  | dropLowest => simpa [gain_eq, of] using hlowest false

end Selection

/-! ## Throws -/

namespace Dice

variable {σ τ : Type} {source : Source σ} {source' : Source τ} {limit limit' : Option Nat}
  {state next : σ} {state' next' : τ} {d : Dice} {o o' : Outcome}

/-- The total of a throw is what its selected dice show together. -/
lemma total_of_evaluate (h : (Expr.dice d).evaluate source limit state = (.ok o, next)) :
    o.total.val =
      ((d.selection.select d.selected.toNat o.raw).map fun die => die.value.val).sum := by
  obtain ⟨trace, hgives, -, -⟩ := Expr.evaluate_eq_ok.1 h
  generalize hanswer : Except.ok o = answer at hgives
  cases hgives with
  | dice hthrown =>
    obtain ⟨hraw, hkept, hsum, -⟩ := Outcome.ofThrow_eq_ok.1 hanswer.symm
    rw [Outcome.sum?_eq_some hsum, hkept, hraw]
    exact Int.zero_add _

/-- Where no die explodes, the dice of a throw are those that its source draws for its count. -/
lemma draws_of_evaluate (hd : d.explodes = false)
    (h : (Expr.dice d).evaluate source limit state = (.ok o, next)) :
    (source.draws state (List.replicate d.count.toNat d.sides)).1 = o.raw := by
  have he : (Expr.dice d).NeverExplodes := hd
  exact congrArg Prod.fst (Expr.draws_of_evaluate he h).2.1

/-- Where no die explodes, and each die that is drawn for a throw shows at most what the die shows
that is drawn in its place another time, the total is at most what it is then. -/
theorem total_le_of_draws_le (hd : d.explodes = false)
    (h : (Expr.dice d).evaluate source limit state = (.ok o, next))
    (h' : (Expr.dice d).evaluate source' limit' state' = (.ok o', next'))
    (hle : List.Forall₂ (fun a b => a.value.val ≤ b.value.val)
      (source.draws state (List.replicate d.count.toNat d.sides)).1
      (source'.draws state' (List.replicate d.count.toNat d.sides)).1) :
    o.total.val ≤ o'.total.val := by
  rw [draws_of_evaluate hd h, draws_of_evaluate hd h'] at hle
  rw [total_of_evaluate h, total_of_evaluate h']
  exact Selection.sum_select_le _ _ hle

/-- A throw of dice that do not explode comes to what its draws come to. -/
lemma evaluate_of_draws (hd : d.explodes = false) {raw : List Die}
    (hdraws : source.draws state (List.replicate d.count.toNat d.sides) = (raw, next))
    (ho : Outcome.ofThrow d raw = .ok o) (ha : Affords limit d.count.toNat) :
    (Expr.dice d).evaluate source limit state = (.ok o, next) := by
  have hlength : raw.length = d.count.toNat := by
    have hdrawn := source.length_draws state (List.replicate d.count.toNat d.sides)
    rw [hdraws, List.length_replicate] at hdrawn
    exact hdrawn
  have hgives : Expr.Gives (.dice d) (Trace.ofDice d.sides raw) (.ok o) :=
    ho ▸ .dice (hd ▸ thrown_iff_length.2 hlength)
  refine Expr.evaluate_of_gives hgives ?_ ?_
  · rw [Source.Deals, Trace.kinds_ofDice, Trace.dice_ofDice, hlength]
    exact hdraws
  · rw [Trace.length_ofDice, hlength]
    exact ha

/-- Three dice of which the lowest is dropped. -/
def bestTwo : Dice := ⟨3, .ofNumber 6, false, .dropLowest, 1⟩

/-- Three dice the first of which shows `n`. -/
def firstShows (n : UInt32) : List Die :=
  [.of (.ofNumber 6) (.ofUInt32 n), .of (.ofNumber 6) (.ofUInt32 5),
    .of (.ofNumber 6) (.ofUInt32 5)]

/-- When the first die shows six instead of one, it is another die that is dropped. -/
theorem total_le_of_draws_le_of_dropped :
    ∃ o o' : Outcome,
      (Expr.dice bestTwo).evaluate Scripted.source (some 3) ((firstShows 1).map .die) =
        (.ok o, []) ∧
      (Expr.dice bestTwo).evaluate Scripted.source none ((firstShows 6).map .die) = (.ok o', []) ∧
      o.kept.map Die.text = ["5", "5"] ∧ o'.kept.map Die.text = ["6", "5"] ∧
      o.total.val ≤ o'.total.val := by
  -- Sorting does not evaluate by definition, so the outcomes are given by their parts.
  have hkept : bestTwo.selection.select bestTwo.selected.toNat (firstShows 1) =
      (firstShows 1).tail := by
    cbv
  have hkept' : bestTwo.selection.select bestTwo.selected.toNat (firstShows 6) =
      (firstShows 6).take 2 := by
    cbv
  obtain ⟨o, ho, htexts⟩ : ∃ o, Outcome.ofThrow bestTwo (firstShows 1) = .ok o ∧
      o.kept.map Die.text = ["5", "5"] :=
    ⟨⟨.ofUInt32 10, .ofUInt32 2, .ofUInt32 12,
        (2 : Nat).toUInt64.toFloat * bestTwo.sides.average, _, _⟩,
      Outcome.ofThrow_eq_ok.2 ⟨rfl, hkept.symm, rfl, rfl, rfl, rfl⟩, by decide⟩
  obtain ⟨o', ho', htexts'⟩ : ∃ o, Outcome.ofThrow bestTwo (firstShows 6) = .ok o ∧
      o.kept.map Die.text = ["6", "5"] :=
    ⟨⟨.ofUInt32 11, .ofUInt32 2, .ofUInt32 12,
        (2 : Nat).toUInt64.toFloat * bestTwo.sides.average, _, _⟩,
      Outcome.ofThrow_eq_ok.2 ⟨rfl, hkept'.symm, rfl, rfl, rfl, rfl⟩, by decide⟩
  have heval : (Expr.dice bestTwo).evaluate Scripted.source (some 3) ((firstShows 1).map .die) =
      (.ok o, []) :=
    evaluate_of_draws rfl rfl ho (affords_iff.2 (by decide))
  have heval' : (Expr.dice bestTwo).evaluate Scripted.source none ((firstShows 6).map .die) =
      (.ok o', []) :=
    evaluate_of_draws rfl rfl ho' (affords_iff.2 (by decide))
  refine ⟨o, o', heval, heval', htexts, htexts', ?_⟩
  refine total_le_of_draws_le rfl heval heval' ?_
  exact .cons (by decide) (.cons (by decide) (.cons (by decide) .nil))

end Dice

end DiceNotation
