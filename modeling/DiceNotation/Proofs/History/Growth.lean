import DiceNotation.Proofs.History.Children
import DiceNotation.Proofs.History.Lineage
import DiceNotation.Source.Scripted
/-!
# Histories only grow

Whatever a history answers at one moment of a run it goes on to answer: a roll that is found stays
the same, a root that is found stays the root, and the children and the ancestors of a roll are the
first ones of those that it has later (`history_only_grows`).

All of this comes from the insertions. Those of an earlier moment are the first of those of a later
one (`Chronicle.Extends`), and the answers of a history are what the insertions say: an identity is
kept from its first insertion on (`History.map_id_ofInsertions_prefix`), each insertion of a roll
with a parent makes one child (`Chronicle.Sound.children_eq`), and a line of parents that breaks off
goes on when the missing roll is inserted, but never in another way
(`Chronicle.Sound.ancestors_prefix`).
-/

namespace DiceNotation

/-! ## Identities that are kept -/

namespace History

/-- Further insertions leave the identities that are kept and may add some. -/
lemma map_id_ofInsertions_prefix (before after : List Roll) :
    (ofInsertions before).rolls.map Roll.id <+:
      (ofInsertions (before ++ after)).rolls.map Roll.id := by
  induction after using List.reverseRecOn with
  | nil => simp
  | append_singleton after roll ih =>
    rw [← List.append_assoc, ofInsertions_concat, insert, map_id_put]
    split
    · exact ih
    · exact ih.trans (List.prefix_append _ _)

lemma get_eq_ok_iff {h : History} {id : RollId} {roll : Roll} :
    h.get id = .ok roll ↔ h.get? id = some roll := by
  unfold get
  cases h.get? id <;> simp

/-- An identity is kept where a roll is found for it. -/
lemma mem_map_id_rolls {h : History} {id : RollId} :
    id ∈ h.rolls.map Roll.id ↔ ∃ roll, h.get id = .ok roll := by
  simp only [get_eq_ok_iff, ← Option.isSome_iff_exists, get?, List.find?_isSome, List.mem_map,
    decide_eq_true_eq]

/-- An identity is not kept where no roll is found for it. -/
lemma notMem_map_id_rolls {h : History} {id : RollId} :
    id ∉ h.rolls.map Roll.id ↔ h.get id = .error (.notFound id) := by
  rw [mem_map_id_rolls]
  cases hget : h.get? id with
  | none => simp [get_of_none hget]
  | some roll => simp [get_of_some hget]

end History

/-! ## Later moments -/

namespace Chronicle

variable {c later : Chronicle}

/-- What was made and inserted up to one moment was made and inserted first up to the later one. -/
structure Extends (later c : Chronicle) : Prop where
  /-- The rolls that were made since then are newer. -/
  made : c.made <:+ later.made
  /-- The rolls that were inserted since then come after those before. -/
  inserted : c.inserted <+: later.inserted

/-- A step makes and inserts one roll at most. -/
lemma Step.extends (hstep : Step c later) : later.Extends c := by
  cases hstep with
  | make making fresh => exact ⟨List.suffix_cons _ _, List.prefix_refl _⟩
  | insert hroll => exact ⟨List.suffix_refl _, List.prefix_append _ _⟩
  | rethrow fresh heq => exact ⟨List.suffix_cons _ _, List.prefix_append _ _⟩
  | refused heq => exact ⟨List.suffix_refl _, List.prefix_refl _⟩

/-- What is reached from a chronicle is a later moment of it. -/
lemma extends_of_steps (steps : Relation.ReflTransGen Step c later) : later.Extends c := by
  induction steps with
  | refl => exact ⟨List.suffix_refl _, List.prefix_refl _⟩
  | tail _ hstep ih =>
    exact ⟨ih.made.trans hstep.extends.made, ih.inserted.trans hstep.extends.inserted⟩

end Chronicle

/-- A line of parents stays the same when more rolls are made. -/
lemma Roll.Descent.of_suffix {made newer : List Roll} {roll : Roll} {line : List Roll}
    (h : Descent made roll line) (hnewer : made <:+ newer) : Descent newer roll line :=
  ⟨h.linked, h.first, h.sublist.trans hnewer.sublist⟩

namespace Chronicle.Sound

variable {c later : Chronicle} {id : RollId} {roll : Roll}

/-- A roll that is found stays the same. -/
lemma get?_of_extends (h : c.Sound) (hlater : later.Sound) (hext : later.Extends c)
    (hget : c.history.get? id = some roll) : later.history.get? id = some roll := by
  obtain ⟨hroll, hid⟩ := h.get?_eq_some_iff.1 hget
  exact hlater.get?_eq_some_iff.2 ⟨hext.inserted.subset hroll, hid⟩

/-- The children are the rolls that were inserted with this parent, in the order of the insertions.
-/
lemma children_eq (h : c.Sound) (parent : RollId) :
    c.history.children parent = History.insertedWith c.inserted parent := by
  have hsame : ∀ r ∈ History.insertedWith c.inserted parent, c.history.get? r.id = some r := by
    intro r hr
    exact h.get?_eq_some_iff.2 ⟨(History.mem_insertedWith.1 hr).1, rfl⟩
  rw [h.run.eq_ofInsertions] at hsame ⊢
  rw [History.children_ofInsertions]
  exact (List.filterMap_congr hsame).trans List.filterMap_some

/-- The ancestors are a part of the line of parents, and a part of that line is one of the ancestors
just where all of it was inserted. -/
lemma prefix_ancestors_iff (h : c.Sound) (hget : c.history.get? id = some roll) {line : List Roll}
    (hline : Roll.Descent c.made roll line) (part : List Roll) :
    part <+: c.history.ancestors id ↔ part <+: line ∧ ∀ r ∈ part, r ∈ c.inserted := by
  obtain ⟨rolls, hclimbs, hrolls⟩ := h.exists_climbs hline
  obtain ⟨hinitial, hkept⟩ := (hrolls rolls).1 (List.prefix_refl rolls)
  rw [h.ancestors_eq hget hline hclimbs hinitial hkept]
  exact hrolls part

/-- The ancestors of a roll are the nearest of those that it has later. -/
lemma ancestors_prefix (h : c.Sound) (hlater : later.Sound) (hext : later.Extends c)
    (id : RollId) : c.history.ancestors id <+: later.history.ancestors id := by
  cases hget : c.history.get? id with
  | none =>
    have hnone : c.history.ancestors id = [] := by
      rw [History.ancestors, hget]
      cases c.history.size <;> rfl
    rw [hnone]
    exact List.nil_prefix
  | some roll =>
    obtain ⟨hroll, -⟩ := h.get?_eq_some_iff.1 hget
    obtain ⟨line, hline, -⟩ := h.made.exists_descent (h.inserted hroll)
    obtain ⟨hinitial, hkept⟩ :=
      (h.prefix_ancestors_iff hget hline _).1 (List.prefix_refl (c.history.ancestors id))
    have hget' := h.get?_of_extends hlater hext hget
    refine (hlater.prefix_ancestors_iff hget' (hline.of_suffix hext.made) _).2 ⟨hinitial, ?_⟩
    exact fun r hr => hext.inserted.subset (hkept r hr)

/-- A root that is found stays the same. -/
lemma root_of_extends (h : c.Sound) (hlater : later.Sound) (hext : later.Extends c)
    (hroot : c.history.root id = .ok roll) : later.history.root id = .ok roll := by
  cases hget : c.history.get? id with
  | none =>
    rw [History.root, History.get_of_none hget] at hroot
    cases hroot
  | some child =>
    rw [History.root_of_some hget, History.get_eq_ok_iff] at hroot
    rw [History.root_of_some (h.get?_of_extends hlater hext hget), History.get_eq_ok_iff]
    exact h.get?_of_extends hlater hext hroot

/-- A history becomes longer by the identities for which a roll was not found and is found now. -/
lemma size_of_extends (h : c.Sound) (hlater : later.Sound) (hext : later.Extends c) :
    ∃ new : List RollId, new.Nodup ∧
      (∀ id, id ∈ new ↔
        c.history.get id = .error (.notFound id) ∧ ∃ roll, later.history.get id = .ok roll) ∧
      later.history.size = c.history.size + new.length := by
  obtain ⟨more, hmore⟩ := hext.inserted
  have hids : c.history.rolls.map Roll.id <+: later.history.rolls.map Roll.id := by
    rw [h.run.eq_ofInsertions, hlater.run.eq_ofInsertions, ← hmore]
    exact History.map_id_ofInsertions_prefix c.inserted more
  have hnodup : (later.history.rolls.map Roll.id).Nodup := by
    rw [hlater.run.eq_ofInsertions]
    exact History.nodup_ofInsertions later.inserted
  obtain ⟨new, hnew⟩ := hids
  rw [← hnew, List.nodup_append'] at hnodup
  refine ⟨new, hnodup.2.1, fun id => ?_, ?_⟩
  · rw [← History.notMem_map_id_rolls, ← History.mem_map_id_rolls, ← hnew, List.mem_append]
    constructor
    · exact fun hid => ⟨fun hold => hnodup.2.2 hold hid, .inr hid⟩
    · rintro ⟨hold, hid | hid⟩
      · exact absurd hid hold
      · exact hid
  · have hlength := congrArg List.length hnew
    rw [List.length_append, List.length_map, List.length_map] at hlength
    exact hlength.symm

end Chronicle.Sound

/-- A history only grows. Of any two moments of a run, whatever was found at the earlier one is
found at the later one, unchanged; the number of rolls has grown by that of the identities that were
not found before; the children and the ancestors of each identity come first among those that it has
later, in the same order; and a root is still the root. Where a roll of the history is thrown again
without success, the history stays what it was. -/
theorem history_only_grows {c later : Chronicle} (reached : c.Reached)
    (steps : Relation.ReflTransGen Chronicle.Step c later) :
    (∀ id roll, c.history.get id = .ok roll → later.history.get id = .ok roll) ∧
      (∃ new : List RollId, new.Nodup ∧
        (∀ id, id ∈ new ↔
          c.history.get id = .error (.notFound id) ∧ ∃ roll, later.history.get id = .ok roll) ∧
        later.history.size = c.history.size + new.length) ∧
      (∀ id, c.history.children id <+: later.history.children id) ∧
      (∀ id, c.history.ancestors id <+: later.history.ancestors id) ∧
      (∀ id roll, c.history.root id = .ok roll → later.history.root id = .ok roll) ∧
      ∀ {σ : Type} {source : Source σ} {limit : Option Nat} {id newId : RollId}
        {positions : List Nat} {now : Instant} {state next : σ} {e : Error} {h : History},
        c.history.rethrow source limit id positions newId now state = (.error e, h, next) →
          h = c.history := by
  have hsound := reached.sound
  have hlater : later.Sound := hsound.steps steps
  have hext := Chronicle.extends_of_steps steps
  refine ⟨fun id roll hget => ?_, hsound.size_of_extends hlater hext, fun id => ?_,
    hsound.ancestors_prefix hlater hext, fun id roll => hsound.root_of_extends hlater hext, ?_⟩
  · rw [History.get_eq_ok_iff] at hget ⊢
    exact hsound.get?_of_extends hlater hext hget
  · rw [hsound.children_eq, hlater.children_eq]
    exact hext.inserted.filter _
  · intro σ source limit id newId positions now state next e h heq
    exact History.rethrow_eq_error heq

/-- A roll that was inserted without its parent is found as before when the parent is inserted and
then the roll itself comes again. Now it has an ancestor and a root, and its parent has it as a
child twice, but only one identity was added. That a roll which is not there cannot be thrown
changes nothing. -/
theorem history_only_grows_of_late_parent :
    ∃ c later : Chronicle, c.Reached ∧ Relation.ReflTransGen Chronicle.Step c later ∧
      c.history.get middle.id = .ok middle ∧ later.history.get middle.id = .ok middle ∧
      (∃ new : List RollId, eldest.id ∈ new ∧ middle.id ∉ new ∧ 2 = 1 + new.length) ∧
      c.history.children eldest.id = [middle] ∧
      later.history.children eldest.id = [middle, middle] ∧
      [middle] <+: later.history.children eldest.id ∧
      c.history.ancestors middle.id = [] ∧ later.history.ancestors middle.id = [eldest] ∧
      c.history.root middle.id = .error (.notFound eldest.id) ∧
      later.history.root middle.id = .ok eldest ∧
      ∃ h, c.history.rethrow Scripted.source none youngest.id [] ⟨9⟩ .epoch [] =
        (.error (.notFound youngest.id), h, []) ∧ h = c.history := by
  let c : Chronicle := ⟨[middle, eldest], [middle], History.empty.insert middle⟩
  let later : Chronicle := ⟨[middle, eldest], [middle, eldest, middle],
    (c.history.insert eldest).insert middle⟩
  have hmade : Chronicle.Reached ⟨[middle, eldest], [], .empty⟩ := by
    have hfirst : Chronicle.Reached ⟨[eldest], [], .empty⟩ :=
      .single (.make (.create _ _ _ _ _) (by decide))
    exact hfirst.tail (.make (.derive (List.mem_singleton_self eldest) _ _ _) (by decide))
  have reached : c.Reached := hmade.tail (.insert (by simp))
  have steps : Relation.ReflTransGen Chronicle.Step c later :=
    .tail (.single (.insert (by simp))) (.insert (by simp))
  obtain ⟨hget, ⟨new, -, hnew, hsize⟩, hchildren, -, -, hrefused⟩ :=
    history_only_grows reached steps
  have hmissing : c.history.rethrow Scripted.source none youngest.id [] ⟨9⟩ .epoch [] =
      (.error (.notFound youngest.id), c.history, []) := rfl
  refine ⟨c, later, reached, steps, rfl, hget _ _ rfl,
    ⟨new, (hnew _).2 ⟨rfl, eldest, rfl⟩, ?_, hsize⟩, rfl, rfl, hchildren eldest.id, rfl, rfl, rfl,
    rfl, c.history, hmissing, hrefused hmissing⟩
  intro hmem
  cases ((hnew _).1 hmem).1

end DiceNotation
