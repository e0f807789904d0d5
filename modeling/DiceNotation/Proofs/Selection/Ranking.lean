import DiceNotation.Proofs.Expr.Form
import DiceNotation.Proofs.Selection.Order
import Mathlib
/-!
# Which dice are selected

A selection goes by a ranking of the dice: the best ones come first, which are the highest or the
lowest, and of equally good dice the one thrown earlier (`Selection.pairwise_better_ranked`). To
keep `n` dice is to take the first `n` of the ranking, and to drop `n` dice is to leave just those
and take the others, so that the two split a throw (`Selection.exists_taken_left`).

What the best `n` dice are worth together is the most that `n` dice of the throw are worth
(`Selection.gain_le_gain_keep`). What dice are worth along the ranking does not depend on the order
of the throw, and so neither does what the selected dice show (`Selection.map_value_perm_of_perm`).
-/

namespace DiceNotation

/-! ## Sums of sorted numbers -/

/-- Of a falling list, the numbers at the front have the greatest sum. -/
lemma sum_le_sum_take_of_sublist {ns part : List Int} (hns : ns.Pairwise (· ≥ ·))
    (hpart : part.Sublist ns) : part.sum ≤ (ns.take part.length).sum := by
  induction hpart with
  | slnil => simp
  | @cons part ns n hpart ih =>
    obtain ⟨hn, hns⟩ := List.pairwise_cons.1 hns
    cases part with
    | nil => simp
    | cons m rest =>
      -- The last number that is taken makes way for `n`.
      have hlast : (ns.take (rest.length + 1)).sum ≤ n + (ns.take rest.length).sum := by
        rw [List.take_add_one, List.sum_append]
        cases hnext : ns[rest.length]? with
        | none =>
          have hshort : (m :: rest).length ≤ ns.length := hpart.length_le
          have hnone := List.getElem?_eq_none_iff.1 hnext
          rw [List.length_cons] at hshort
          omega
        | some k =>
          have hk : n ≥ k := hn k (List.mem_of_getElem? hnext)
          simpa [add_comm] using hk
      calc (m :: rest).sum ≤ (ns.take (rest.length + 1)).sum := ih hns
        _ ≤ n + (ns.take rest.length).sum := hlast
        _ = ((n :: ns).take (rest.length + 1)).sum := by rw [List.take_succ_cons, List.sum_cons]
  | @cons_cons part ns n hpart ih =>
    rw [List.length_cons, List.take_succ_cons, List.sum_cons, List.sum_cons]
    exact Int.add_le_add_left (ih (List.pairwise_cons.1 hns).2) n

namespace Selection

/-! ## The ranking -/

/-- What a die is worth where the highest dice are wanted, or where the lowest are. -/
def worth (highest : Bool) (die : Die) : Int :=
  if highest then die.value.val else -die.value.val

/-- The dice of a throw, the best one first. -/
def ranked (highest : Bool) (dice : List Die) : List Placed :=
  if highest then descending dice else ascending dice

/-- The first die is better than the second one: it is worth more, or as much and was thrown
earlier. -/
def Better (highest : Bool) (a b : Placed) : Prop :=
  worth highest b.1 < worth highest a.1 ∨ worth highest a.1 = worth highest b.1 ∧ a.2 < b.2

variable {highest : Bool} {dice : List Die}

/-- The dice are ranked by their worth. -/
lemma ranked_eq (highest : Bool) (dice : List Die) :
    ranked highest dice =
      dice.zipIdx.mergeSort fun a b => worth highest b.1 ≤ worth highest a.1 := by
  cases highest with
  | true => rfl
  | false => simp [ranked, ascending, worth]

lemma worthLE_trans (a b c : Placed) (hab : decide (worth highest b.1 ≤ worth highest a.1) = true)
    (hbc : decide (worth highest c.1 ≤ worth highest b.1) = true) :
    decide (worth highest c.1 ≤ worth highest a.1) = true := by
  simp only [decide_eq_true_eq] at hab hbc ⊢
  exact Int.le_trans hbc hab

lemma worthLE_total (a b : Placed) :
    (decide (worth highest b.1 ≤ worth highest a.1) ||
      decide (worth highest a.1 ≤ worth highest b.1)) = true := by
  simpa using Int.le_total (worth highest b.1) (worth highest a.1)

/-- Every die has its place in the ranking. -/
lemma ranked_perm (highest : Bool) (dice : List Die) :
    (ranked highest dice).Perm dice.zipIdx := by
  rw [ranked_eq]
  exact List.mergeSort_perm _ _

/-- Dice that are worth the same are ranked in the order of the throw. -/
lemma filter_worth_ranked (highest : Bool) (dice : List Die) (w : Int) :
    ((ranked highest dice).filter fun p => worth highest p.1 = w) =
      dice.zipIdx.filter fun p => worth highest p.1 = w := by
  have hsublist : (dice.zipIdx.filter fun p => worth highest p.1 = w).Sublist
      (ranked highest dice) := by
    rw [ranked_eq]
    refine List.sublist_mergeSort worthLE_trans worthLE_total ?_ List.filter_sublist
    refine List.pairwise_of_forall_mem_list fun a ha b hb => ?_
    have ha' : worth highest a.1 = w := by simpa using (List.mem_filter.1 ha).2
    have hb' : worth highest b.1 = w := by simpa using (List.mem_filter.1 hb).2
    simp [ha', hb']
  have hfiltered := hsublist.filter fun p => worth highest p.1 = w
  rw [List.filter_filter] at hfiltered
  simp only [Bool.and_self] at hfiltered
  exact (hfiltered.eq_of_length
    ((ranked_perm highest dice).filter _).length_eq.symm).symm

/-- A better die is ranked before the other one. -/
lemma pairwise_better_ranked (highest : Bool) (dice : List Die) :
    (ranked highest dice).Pairwise (Better highest) := by
  have hsorted : (ranked highest dice).Pairwise fun a b =>
      worth highest b.1 ≤ worth highest a.1 := by
    rw [ranked_eq]
    simpa using List.pairwise_mergeSort worthLE_trans worthLE_total dice.zipIdx
  refine List.pairwise_iff_forall_sublist.2 fun {a b} hab => ?_
  have hle := List.pairwise_iff_forall_sublist.1 hsorted hab
  rcases Int.lt_or_eq_of_le hle with hlt | heq
  · exact .inl hlt
  · refine .inr ⟨heq.symm, ?_⟩
    have hsame := hab.filter fun p => worth highest p.1 = worth highest a.1
    rw [filter_worth_ranked] at hsame
    simp only [heq, decide_true, List.filter_cons_of_pos, List.filter_nil] at hsame
    exact List.pairwise_iff_forall_sublist.1 (pairwise_before_zipIdx dice)
      (hsame.trans List.filter_sublist)

/-- What the dice are worth, from the best one to the last. -/
def worths (highest : Bool) (dice : List Die) : List Int :=
  (ranked highest dice).map fun p => worth highest p.1

/-- What the dice are worth falls along the ranking. -/
lemma pairwise_worths (highest : Bool) (dice : List Die) :
    (worths highest dice).Pairwise (· ≥ ·) := by
  refine List.pairwise_map.2 ((pairwise_better_ranked highest dice).imp ?_)
  rintro a b (hlt | ⟨heq, -⟩)
  · exact Int.le_of_lt hlt
  · exact Int.le_of_eq heq.symm

/-- The dice of the ranking are those of the throw. -/
lemma map_fst_ranked_perm (highest : Bool) (dice : List Die) :
    ((ranked highest dice).map Prod.fst).Perm dice := by
  have hperm := (ranked_perm highest dice).map Prod.fst
  rwa [List.zipIdx_map_fst] at hperm

lemma worths_perm (highest : Bool) (dice : List Die) :
    (worths highest dice).Perm (dice.map (worth highest)) := by
  have hperm := (map_fst_ranked_perm highest dice).map (worth highest)
  rwa [List.map_map] at hperm

/-- In whatever order dice are thrown, they are worth the same along the ranking. -/
lemma worths_eq_of_perm {dice' : List Die} (h : dice'.Perm dice) :
    worths highest dice' = worths highest dice := by
  refine List.Perm.eq_of_pairwise' (pairwise_worths highest dice') (pairwise_worths highest dice) ?_
  exact (worths_perm highest dice').trans ((h.map _).trans (worths_perm highest dice).symm)

/-! ## What is taken and what is left -/

/-- The part of a ranking that a selection keeps: the first `n`, or the others. -/
def cut {α : Type} (keep : Bool) (n : Nat) (ranking : List α) : List α :=
  if keep then ranking.take n else ranking.drop n

lemma map_cut {α β : Type} (f : α → β) (keep : Bool) (n : Nat) (ranking : List α) :
    (cut keep n ranking).map f = cut keep n (ranking.map f) := by
  cases keep with
  | true => exact List.map_take
  | false => exact List.map_drop

/-- A selection keeps a part of the ranking, put back into the order of the throw. -/
lemma select_of (keep highest : Bool) (n : Nat) (dice : List Die) :
    (of keep highest).select n dice = inOrder (cut keep n (ranked highest dice)) := by
  cases keep <;> cases highest <;> rfl

/-- Putting dice back in order changes their order at most. -/
lemma inOrder_perm (placed : List Placed) : (inOrder placed).Perm (placed.map Prod.fst) :=
  (List.mergeSort_perm placed _).map Prod.fst

/-- What the selected dice are worth is the part of the ranking that is kept. -/
lemma map_worth_select_perm (keep highest : Bool) (n : Nat) (dice : List Die) :
    (((of keep highest).select n dice).map (worth highest)).Perm
      (cut keep n (worths highest dice)) := by
  rw [select_of, worths, ← map_cut]
  have hperm := (inOrder_perm (cut keep n (ranked highest dice))).map (worth highest)
  rwa [List.map_map] at hperm

/-- The worth of a die tells what it shows. -/
lemma map_value_eq (highest : Bool) (dice : List Die) :
    (dice.map fun die => die.value.val) =
      (dice.map (worth highest)).map fun w => if highest then w else -w := by
  rw [List.map_map]
  refine List.map_congr_left fun die _ => ?_
  cases highest <;> simp [worth]

/-- What the selected dice show does not depend on the order of the throw. -/
lemma map_value_select_perm {dice' : List Die} (h : dice'.Perm dice) (keep highest : Bool)
    (n : Nat) :
    (((of keep highest).select n dice').map fun die => die.value.val).Perm
      (((of keep highest).select n dice).map fun die => die.value.val) := by
  rw [map_value_eq highest, map_value_eq highest]
  refine List.Perm.map _ ((map_worth_select_perm keep highest n dice').trans ?_)
  rw [worths_eq_of_perm h]
  exact (map_worth_select_perm keep highest n dice).symm

/-- The dice that are kept and those that are left when as many are dropped are all of the throw. -/
lemma keep_append_drop_perm (highest : Bool) (n : Nat) (dice : List Die) :
    ((of true highest).select n dice ++ (of false highest).select n dice).Perm dice := by
  have hsplit : cut true n (ranked highest dice) ++ cut false n (ranked highest dice) =
      ranked highest dice := List.take_append_drop n _
  rw [select_of, select_of]
  refine ((inOrder_perm _).append (inOrder_perm _)).trans ?_
  rw [← List.map_append, hsplit]
  exact map_fst_ranked_perm highest dice

/-! ## What the selected dice are worth -/

/-- What dice are worth together. -/
def gain (highest : Bool) (dice : List Die) : Int := (dice.map (worth highest)).sum

lemma gain_eq (highest : Bool) (dice : List Die) :
    gain highest dice =
      if highest then (dice.map fun die => die.value.val).sum
      else -(dice.map fun die => die.value.val).sum := by
  cases highest with
  | true => rfl
  | false =>
    induction dice with
    | nil => rfl
    | cons die rest ih =>
      simp only [gain, worth, Bool.false_eq_true, if_false, List.map_cons, List.sum_cons] at ih ⊢
      rw [ih, Int.neg_add]

lemma gain_append (highest : Bool) (first second : List Die) :
    gain highest (first ++ second) = gain highest first + gain highest second := by
  rw [gain, List.map_append, List.sum_append]
  rfl

lemma gain_of_perm {dice' : List Die} (h : dice'.Perm dice) :
    gain highest dice' = gain highest dice :=
  (h.map _).sum_eq

/-- No dice of a throw are worth more than as many dice that are kept. -/
lemma gain_le_gain_keep (highest : Bool) {n : Nat} {chosen : List Die}
    (hchosen : chosen.Subperm dice)
    (hlength : chosen.length = ((of true highest).select n dice).length) :
    gain highest chosen ≤ gain highest ((of true highest).select n dice) := by
  obtain ⟨part, hpart, hsublist⟩ := hchosen
  obtain ⟨ws, hws, hworths⟩ :=
    (hsublist.map (worth highest)).subperm.trans (worths_perm highest dice).symm.subperm
  have hkept := map_worth_select_perm true highest n dice
  have hn : ws.length = min n (worths highest dice).length := by
    calc ws.length = chosen.length := by rw [hws.length_eq, List.length_map, hpart.length_eq]
      _ = ((worths highest dice).take n).length := by
        rw [hlength, ← List.length_map (worth highest)]
        exact hkept.length_eq
      _ = min n (worths highest dice).length := List.length_take
  calc gain highest chosen = ws.sum := (gain_of_perm hpart).symm.trans hws.sum_eq.symm
    _ ≤ ((worths highest dice).take ws.length).sum :=
      sum_le_sum_take_of_sublist (pairwise_worths highest dice) hworths
    _ = gain highest ((of true highest).select n dice) := by
      rw [hn, ← List.take_eq_take_min]
      exact hkept.sum_eq.symm

/-- No dice of a throw are worth less than as many dice that are left when others are dropped. -/
lemma gain_drop_le_gain (highest : Bool) {n : Nat} {chosen : List Die}
    (hchosen : chosen.Subperm dice)
    (hlength : chosen.length = ((of false highest).select n dice).length) :
    gain highest ((of false highest).select n dice) ≤ gain highest chosen := by
  obtain ⟨part, hpart, hsublist⟩ := hchosen
  obtain ⟨rest, hrest⟩ := hsublist.exists_perm_append
  -- The dice that are not chosen are as many as those that would be kept.
  have hall := keep_append_drop_perm highest n dice
  have hsize := hall.length_eq.trans hrest.length_eq
  rw [List.length_append, List.length_append, hpart.length_eq, hlength] at hsize
  have hle : gain highest rest ≤ gain highest ((of true highest).select n dice) := by
    refine gain_le_gain_keep highest ?_ (by omega)
    exact (List.sublist_append_right part rest).subperm.trans hrest.symm.subperm
  have hkept : gain highest dice = gain highest ((of true highest).select n dice) +
      gain highest ((of false highest).select n dice) := by
    rw [← gain_of_perm hall, gain_append]
  rw [gain_of_perm hrest, gain_append, gain_of_perm hpart] at hkept
  omega

/-! ## Selections -/

/-- The best dice of a throw and the others, each at its place, in the order of the throw. -/
lemma exists_taken_left (highest : Bool) (n : Nat) (dice : List Die) :
    ∃ taken left : List Placed,
      taken.Sublist dice.zipIdx ∧ left.Sublist dice.zipIdx ∧
      (taken ++ left).Perm dice.zipIdx ∧ taken.length = min n dice.length ∧
      (∀ a ∈ taken, ∀ b ∈ left, Better highest a b) ∧
      (of true highest).select n dice = taken.map Prod.fst ∧
      (of false highest).select n dice = left.map Prod.fst := by
  have hranked := ranked_perm highest dice
  have hsplit := List.take_append_drop n (ranked highest dice)
  have hbetter := pairwise_better_ranked highest dice
  rw [← hsplit, List.pairwise_append] at hbetter
  refine ⟨((ranked highest dice).take n).mergeSort fun a b => a.2 ≤ b.2,
    ((ranked highest dice).drop n).mergeSort fun a b => a.2 ≤ b.2,
    mergeSort_sublist ((List.take_sublist n _).subperm.trans hranked.subperm),
    mergeSort_sublist ((List.drop_sublist n _).subperm.trans hranked.subperm), ?_, ?_, ?_,
    select_of true highest n dice, select_of false highest n dice⟩
  · have hparts := (List.mergeSort_perm ((ranked highest dice).take n) fun a b => a.2 ≤ b.2).append
      (List.mergeSort_perm ((ranked highest dice).drop n) fun a b => a.2 ≤ b.2)
    rw [hsplit] at hparts
    exact hparts.trans hranked
  · rw [List.length_mergeSort, List.length_take, hranked.length_eq, List.length_zipIdx]
  · intro a ha b hb
    exact hbetter.2.2 a (List.mem_mergeSort.1 ha) b (List.mem_mergeSort.1 hb)

/-- Whatever is selected, the order of the throw makes no difference to what the dice show. -/
lemma map_value_perm_of_perm {dice' : List Die} (h : dice'.Perm dice) (selection : Selection)
    (n : Nat) :
    ((selection.select n dice').map fun die => die.value.val).Perm
      ((selection.select n dice).map fun die => die.value.val) := by
  cases selection with
  | all => exact h.map _
  | keepHighest => exact map_value_select_perm h true true n
  | keepLowest => exact map_value_select_perm h true false n
  | dropHighest => exact map_value_select_perm h false true n
  | dropLowest => exact map_value_select_perm h false false n

/-- A selection keeps just the best dice of a throw, or drops just those. The dice of a throw, each
at its place, are split into the best `n` of them, or all if there are no more, and the others, both
in the order of the throw: of any two dice, one taken and the other one left, the first is the
better one. Dice are kept by taking the first part and dropped by leaving it.

So the selected dice are a part of the throw in its order; what they show, and so their sum, does
not depend on that order; and of all choices of as many dice, those have the greatest sum that stay
when the highest are kept or the lowest dropped, and those the least that stay when the lowest are
kept or the highest dropped. -/
theorem select_best (n : Nat) (dice : List Die) :
    (∀ highest, ∃ taken left : List Placed,
        taken.Sublist dice.zipIdx ∧ left.Sublist dice.zipIdx ∧
        (taken ++ left).Perm dice.zipIdx ∧ taken.length = min n dice.length ∧
        (∀ a ∈ taken, ∀ b ∈ left, Better highest a b) ∧
        (of true highest).select n dice = taken.map Prod.fst ∧
        (of false highest).select n dice = left.map Prod.fst) ∧
      (∀ selection : Selection, (selection.select n dice).Sublist dice) ∧
      (∀ selection : Selection, ∀ dice', dice'.Perm dice →
        ((selection.select n dice').map fun die => die.value.val).Perm
            ((selection.select n dice).map fun die => die.value.val) ∧
          ((selection.select n dice').map fun die => die.value.val).sum =
            ((selection.select n dice).map fun die => die.value.val).sum) ∧
      ∀ selection : Selection, ∀ chosen : List Die, chosen.Subperm dice →
        chosen.length = (selection.select n dice).length →
          (selection = .keepHighest ∨ selection = .dropLowest →
            (chosen.map fun die => die.value.val).sum ≤
              ((selection.select n dice).map fun die => die.value.val).sum) ∧
          (selection = .keepLowest ∨ selection = .dropHighest →
            ((selection.select n dice).map fun die => die.value.val).sum ≤
              (chosen.map fun die => die.value.val).sum) := by
  refine ⟨fun highest => exists_taken_left highest n dice, fun selection =>
    select_sublist selection n dice, fun selection dice' h => ?_,
    fun selection chosen hchosen hlength => ⟨?_, ?_⟩⟩
  · have hperm := map_value_perm_of_perm h selection n
    exact ⟨hperm, hperm.sum_eq⟩
  · rintro (rfl | rfl)
    · have hle := gain_le_gain_keep true hchosen hlength
      simpa [gain_eq, of] using hle
    · have hle := gain_drop_le_gain false hchosen hlength
      simpa [gain_eq, of] using hle
  · rintro (rfl | rfl)
    · have hle := gain_le_gain_keep false hchosen hlength
      simpa [gain_eq, of] using hle
    · have hle := gain_drop_le_gain true hchosen hlength
      simpa [gain_eq, of] using hle

/-- Of two dice that show the same, the one thrown earlier is kept. -/
example : keepHighest.select 1 [⟨.one, "f"⟩, ⟨.one, "6"⟩] = [⟨.one, "f"⟩] := by cbv

end Selection

end DiceNotation
