import DiceNotation.Selection
import Mathlib.Data.List.Sort
/-!
# Selected dice stay in order

A selection ranks the dice together with their places and cuts the ranking, and what is left goes
back to its places. As no two dice have the same place, that restores the order of the throw, and
the selected dice are a part of the throw in that order (`Selection.select_sublist`).
-/

namespace DiceNotation.Selection

/-- The first die has a place before that of the second one. -/
def Before (a b : Placed) : Prop := a.2 < b.2

instance : Std.Antisymm Before where
  antisymm _ _ hab hba := absurd hba (Nat.lt_asymm hab)

/-- The dice of a throw have their places in order. -/
lemma pairwise_before_zipIdx (dice : List Die) : dice.zipIdx.Pairwise Before := by
  have hplaces : (dice.zipIdx.map Prod.snd).Pairwise (· < ·) := by
    rw [List.zipIdx_map_snd]
    exact List.pairwise_lt_range'
  have hordered := List.pairwise_map.1 hplaces
  exact hordered

/-- Some dice of a throw, sorted by their places, have their places in order. -/
lemma pairwise_before_mergeSort {placed : List Placed} {dice : List Die}
    (h : placed.Subperm dice.zipIdx) :
    (placed.mergeSort fun a b => a.2 ≤ b.2).Pairwise Before := by
  have hsorted : (placed.mergeSort fun a b => a.2 ≤ b.2).Pairwise fun a b => a.2 ≤ b.2 := by
    have hpairwise : (placed.mergeSort fun a b => a.2 ≤ b.2).Pairwise
        fun a b => decide (a.2 ≤ b.2) = true :=
      List.pairwise_mergeSort
        (fun a b c hab hbc => by simpa using Nat.le_trans (by simpa using hab) (by simpa using hbc))
        (fun a b => by simpa using Nat.le_total a.2 b.2) placed
    simpa using hpairwise
  have hdistinct : (placed.mergeSort fun a b => a.2 ≤ b.2).Pairwise fun a b => a.2 ≠ b.2 := by
    obtain ⟨part, hperm, hsub⟩ := h
    have hpart : part.Pairwise fun a b => a.2 ≠ b.2 :=
      ((pairwise_before_zipIdx dice).sublist hsub).imp Nat.ne_of_lt
    exact (hperm.trans (List.mergeSort_perm placed _).symm).pairwise hpart fun hab => hab.symm
  exact hsorted.imp₂ (fun _ _ => Nat.lt_of_le_of_ne) hdistinct

/-- Some dice of a throw, sorted by their places, are a part of the throw. -/
lemma mergeSort_sublist {placed : List Placed} {dice : List Die}
    (h : placed.Subperm dice.zipIdx) :
    (placed.mergeSort fun a b => a.2 ≤ b.2).Sublist dice.zipIdx :=
  List.sublist_of_subperm_of_pairwise ((List.mergeSort_perm placed _).subperm.trans h)
    (pairwise_before_mergeSort h) (pairwise_before_zipIdx dice)

/-- Some dice of a throw, put back in order, are a part of the throw. -/
lemma inOrder_sublist {placed : List Placed} {dice : List Die}
    (h : placed.Subperm dice.zipIdx) : (inOrder placed).Sublist dice := by
  have hdice := (mergeSort_sublist h).map Prod.fst
  rw [List.zipIdx_map_fst] at hdice
  exact hdice

/-- The selected dice are a part of the throw, in its order. -/
theorem select_sublist (selection : Selection) (n : Nat) (dice : List Die) :
    (selection.select n dice).Sublist dice := by
  have hranked : ∀ le : Placed → Placed → Bool,
      (dice.zipIdx.mergeSort le).Subperm dice.zipIdx := fun le =>
    (List.mergeSort_perm _ le).subperm
  cases selection with
  | all => exact List.Sublist.refl dice
  | keepHighest | keepLowest =>
    exact inOrder_sublist ((List.take_sublist n _).subperm.trans (hranked _))
  | dropHighest | dropLowest =>
    exact inOrder_sublist ((List.drop_sublist n _).subperm.trans (hranked _))

end DiceNotation.Selection
