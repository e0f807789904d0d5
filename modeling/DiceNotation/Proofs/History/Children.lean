import DiceNotation.Proofs.History.Run
import Mathlib.Data.List.Nodup
/-!
# Children and kept rolls

The rolls made from a roll are found by links, and an insertion replaces the roll of its identity
but never the links of that roll. So the children of every roll are just the rolls that are kept
with it as their parent, each of them once, where no identity of a roll with a parent comes again in
a later insertion, and only there (`children_perm_iff`). Where one does, a child is listed twice
(`children_repeated`), or with a parent that it does not have any longer.
-/

namespace DiceNotation.History

/-- The rolls that are kept with `parent` as their parent. -/
def keptWith (h : History) (parent : RollId) : List Roll :=
  h.rolls.filter fun r => r.parent = some parent

/-- Of the insertions, those of rolls with `parent` as their parent. -/
def insertedWith (rolls : List Roll) (parent : RollId) : List Roll :=
  rolls.filter fun r => r.parent = some parent

/-- No identity of a roll that has a parent comes again later. -/
def LinkedOnce (rolls : List Roll) : Prop :=
  rolls.Pairwise fun earlier later => earlier.parent.isSome → earlier.id ≠ later.id

variable {rolls : List Roll} {parent : RollId}

lemma mem_insertedWith {r : Roll} :
    r ∈ insertedWith rolls parent ↔ r ∈ rolls ∧ r.parent = some parent := by
  simp [insertedWith]

lemma mem_keptWith {r : Roll} :
    r ∈ (ofInsertions rolls).keptWith parent ↔
      (ofInsertions rolls).get? r.id = some r ∧ r.parent = some parent := by
  simp [keptWith, mem_rolls_ofInsertions]

/-- No identity is kept twice. -/
lemma nodup_keptWith : (((ofInsertions rolls).keptWith parent).map Roll.id).Nodup :=
  (List.filter_sublist.map Roll.id).nodup (nodup_ofInsertions rolls)

/-- Each insertion of a roll with this parent makes one child, whose identity is that of the roll.
-/
lemma map_id_children :
    ((ofInsertions rolls).children parent).map Roll.id =
      (insertedWith rolls parent).map Roll.id := by
  have hids : ∀ r ∈ insertedWith rolls parent,
      ((ofInsertions rolls).get? r.id).map Roll.id = some r.id := by
    intro r hr
    obtain ⟨last, -, hid, hlast⟩ := exists_get?_ofInsertions [] (mem_insertedWith.1 hr).1
    rw [List.nil_append] at hlast
    rw [hlast, Option.map_some, hid]
  rw [children_ofInsertions, List.map_filterMap]
  exact (List.filterMap_congr hids).trans (congrFun List.filterMap_eq_map _)

/-! ## Where the children are the kept rolls -/

/-- Where no identity of a roll with a parent comes again, a roll with a parent is kept for good. -/
lemma LinkedOnce.get? (h : LinkedOnce rolls) {r : Roll} (hr : r ∈ rolls)
    (hparent : r.parent.isSome) : (ofInsertions rolls).get? r.id = some r := by
  obtain ⟨before, after, rfl⟩ := List.append_of_mem hr
  have hlater : ∀ later ∈ after, r.id ≠ later.id := fun later hmem =>
    (List.pairwise_cons.1 (List.pairwise_append.1 h).2.1).1 later hmem hparent
  obtain ⟨last, hmem, hid, hlast⟩ :=
    exists_get?_ofInsertions before (List.mem_cons_self (a := r) (l := after))
  rcases List.mem_cons.1 hmem with rfl | hafter
  · exact hlast
  · exact absurd hid.symm (hlater last hafter)

/-- Where no identity of a roll with a parent comes again, the children are the rolls that were
inserted with this parent, in the order of the insertions. -/
lemma LinkedOnce.children_eq (h : LinkedOnce rolls) (parent : RollId) :
    (ofInsertions rolls).children parent = insertedWith rolls parent := by
  have hsame : ∀ r ∈ insertedWith rolls parent, (ofInsertions rolls).get? r.id = some r := by
    intro r hr
    obtain ⟨hmem, hparent⟩ := mem_insertedWith.1 hr
    exact h.get? hmem (hparent ▸ rfl)
  rw [children_ofInsertions]
  exact (List.filterMap_congr hsame).trans List.filterMap_some

/-- Where no identity of a roll with a parent comes again, the children are the kept rolls. -/
lemma LinkedOnce.children_perm (h : LinkedOnce rolls) (parent : RollId) :
    ((ofInsertions rolls).children parent).Perm ((ofInsertions rolls).keptWith parent) := by
  have hinserted : (insertedWith rolls parent).Nodup := by
    have hdistinct : (insertedWith rolls parent).Pairwise fun earlier later =>
        earlier.parent.isSome → earlier.id ≠ later.id := h.sublist List.filter_sublist
    refine hdistinct.imp_of_mem fun hearlier _ hid => ?_
    rintro rfl
    exact hid ((mem_insertedWith.1 hearlier).2 ▸ rfl) rfl
  rw [h.children_eq]
  refine (List.perm_ext_iff_of_nodup hinserted nodup_keptWith.of_map).2 fun r => ?_
  rw [mem_insertedWith, mem_keptWith]
  constructor
  · rintro ⟨hr, hparent⟩
    exact ⟨h.get? hr (hparent ▸ rfl), hparent⟩
  · rintro ⟨hget, hparent⟩
    exact ⟨(mem_of_get?_ofInsertions hget).1, hparent⟩

/-- Where the children of every roll are the kept rolls, no identity of a roll with a parent comes
again: the roll that is kept for it in the end would have been linked to the parent twice. -/
lemma linkedOnce_of_children_perm
    (h : ∀ parent, ((ofInsertions rolls).children parent).Perm
      ((ofInsertions rolls).keptWith parent)) : LinkedOnce rolls := by
  refine List.pairwise_iff_forall_sublist.2 fun {earlier later} hsublist hsome hid => ?_
  obtain ⟨before, after, rfl, hearlier, hlater⟩ := List.cons_sublist_iff.1 hsublist
  rw [List.singleton_sublist] at hlater
  obtain ⟨parent, hparent⟩ := Option.isSome_iff_exists.1 hsome
  -- The roll of the identity in the end was inserted after `earlier`.
  obtain ⟨last, hlast, hlastid, hget⟩ := exists_get?_ofInsertions before hlater
  have hlinked : earlier ∈ insertedWith before parent := mem_insertedWith.2 ⟨hearlier, hparent⟩
  have hchild : last ∈ (ofInsertions (before ++ after)).children parent := by
    rw [children_ofInsertions]
    refine List.mem_filterMap.2 ⟨earlier, ?_, by rw [hid, hget]⟩
    exact mem_insertedWith.2 ⟨List.mem_append_left after hearlier, hparent⟩
  have hlastparent := (mem_keptWith.1 ((h parent).mem_iff.1 hchild)).2
  have hnodup : ((insertedWith (before ++ after) parent).map Roll.id).Nodup := by
    rw [← map_id_children]
    exact ((h parent).map Roll.id).nodup_iff.2 nodup_keptWith
  rw [insertedWith, List.filter_append, List.map_append, List.nodup_append'] at hnodup
  have hagain : last ∈ insertedWith after parent := mem_insertedWith.2 ⟨hlast, hlastparent⟩
  exact hnodup.2.2 (List.mem_map_of_mem hlinked)
    (List.mem_map.2 ⟨last, hagain, hlastid.trans hid.symm⟩)

/-- After a run the children of every roll are the rolls that are kept with it as their parent, each
of them once, if and only if no identity of a roll with a parent came again in a later insertion. -/
theorem children_perm_iff {inserted : List Roll} {h : History} (run : Run inserted h) :
    (∀ parent, (h.children parent).Perm (h.rolls.filter fun r => r.parent = some parent)) ↔
      inserted.Pairwise fun earlier later => earlier.parent.isSome → earlier.id ≠ later.id := by
  obtain rfl := run.eq_ofInsertions
  exact ⟨linkedOnce_of_children_perm, LinkedOnce.children_perm⟩

/-! ## Insertions that come again -/

/-- A first roll. -/
def firstRoll : Roll := .create ⟨1⟩ "1d6" (.constant .one) .epoch none

/-- A roll made from the first one. -/
def secondRoll : Roll := firstRoll.derive ⟨2⟩ (.constant .one) .epoch

/-- Another roll made from the first one. -/
def thirdRoll : Roll := firstRoll.derive ⟨3⟩ (.constant .minusOne) .epoch

/-- A roll without a parent that has the identity of the second one. -/
def strayRoll : Roll := .create ⟨2⟩ "1d6" (.constant .one) .epoch none

/-- A roll may come before its parent, which may come twice. -/
theorem children_perm_iff_of_orphan :
    ∃ h, Run [secondRoll, firstRoll, thirdRoll, firstRoll] h ∧
      (∀ parent, (h.children parent).Perm (h.rolls.filter fun r => r.parent = some parent)) ∧
      (h.children firstRoll.id).map Roll.id = [⟨2⟩, ⟨3⟩] := by
  have run : Run [secondRoll, firstRoll, thirdRoll, firstRoll] _ :=
    (((Run.start.insert secondRoll).insert firstRoll).insert thirdRoll).insert firstRoll
  exact ⟨_, run, (children_perm_iff run).2 (by decide), by decide⟩

/-- A roll that is inserted twice is listed twice among the children of its parent, and a roll that
replaces it is listed there even if it has no parent. So the children of a roll are not always the
rolls that are kept with it as their parent. -/
theorem children_repeated :
    ((ofInsertions [firstRoll, secondRoll, secondRoll]).children firstRoll.id).map Roll.id =
        [⟨2⟩, ⟨2⟩] ∧
      ((ofInsertions [firstRoll, secondRoll, secondRoll]).keptWith firstRoll.id).map Roll.id =
        [⟨2⟩] ∧
      ((ofInsertions [firstRoll, secondRoll, strayRoll]).children firstRoll.id).map Roll.id =
        [⟨2⟩] ∧
      (ofInsertions [firstRoll, secondRoll, strayRoll]).keptWith firstRoll.id = [] ∧
      ¬∀ inserted h, Run inserted h →
        ∀ parent, (h.children parent).Perm (h.rolls.filter fun r => r.parent = some parent) := by
  refine ⟨by decide, by decide, by decide, rfl, fun hall => ?_⟩
  have run : Run [firstRoll, secondRoll, secondRoll] _ :=
    ((Run.start.insert firstRoll).insert secondRoll).insert secondRoll
  exact absurd (hall _ _ run firstRoll.id).length_eq (by decide)

end DiceNotation.History
