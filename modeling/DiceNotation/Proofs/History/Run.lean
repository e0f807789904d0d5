import DiceNotation.History
import Mathlib.Data.List.Induction
import Mathlib.Data.List.Nodup
/-!
# Runs of a history

A history grows by insertions alone: a roll of it that is thrown again is inserted, and where that
fails nothing is (`History.rethrow_eq_ok`, `History.rethrow_eq_error`). So a run leads to what its
insertions make of the empty history (`History.Run.eq_ofInsertions`).

The roll of an identity is the last one that was inserted with it (`History.get?_ofInsertions`), no
identity is kept twice (`History.nodup_ofInsertions`), and each insertion of a roll that has a
parent leaves a link (`History.links_ofInsertions`).
-/

namespace DiceNotation.History

/-! ## Steps -/

lemma get_of_some {h : History} {id : RollId} {roll : Roll} (hget : h.get? id = some roll) :
    h.get id = .ok roll := by
  rw [get, hget]

lemma get_of_none {h : History} {id : RollId} (hget : h.get? id = none) :
    h.get id = .error (.notFound id) := by
  rw [get, hget]

section Steps

variable {σ : Type} {h later : History} {source : Source σ} {limit : Option Nat} {id newId : RollId}
  {positions : List Nat} {now : Instant} {state next : σ}

/-- A roll that is thrown again is one of the history, and the new roll is inserted. -/
lemma rethrow_eq_ok {roll : Roll}
    (heq : h.rethrow source limit id positions newId now state = (.ok roll, later, next)) :
    ∃ earlier, h.get? id = some earlier ∧
      earlier.rethrow source limit positions newId now state = (.ok roll, next) ∧
      later = h.insert roll := by
  cases hget : h.get? id with
  | none =>
    rw [rethrow, get_of_none hget] at heq
    cases heq
  | some earlier =>
    rw [rethrow, get_of_some hget] at heq
    cases hmade : earlier.rethrow source limit positions newId now state with
    | mk answer last =>
      simp only [hmade] at heq
      cases answer with
      | error e => cases heq
      | ok made =>
        cases heq
        exact ⟨earlier, rfl, hmade, rfl⟩

/-- Where no roll is made the history stays as it is. -/
lemma rethrow_eq_error {e : Error}
    (heq : h.rethrow source limit id positions newId now state = (.error e, later, next)) :
    later = h := by
  cases hget : h.get? id with
  | none =>
    rw [rethrow, get_of_none hget] at heq
    cases heq
    rfl
  | some earlier =>
    rw [rethrow, get_of_some hget] at heq
    cases hmade : earlier.rethrow source limit positions newId now state with
    | mk answer last =>
      simp only [hmade] at heq
      cases answer with
      | error e =>
        cases heq
        rfl
      | ok made => cases heq

end Steps

/-- The history `h` is reached by a run in which the rolls of a list were inserted, in this order.
Any roll may be inserted, one that is in the history already or has the identity of another one
included. -/
inductive Run : List Roll → History → Prop
  | start : Run [] empty
  | insert {inserted : List Roll} {h : History} (before : Run inserted h) (roll : Roll) :
      Run (inserted ++ [roll]) (h.insert roll)
  | rethrow {inserted : List Roll} {h later : History} (before : Run inserted h) {σ : Type}
      {source : Source σ} {limit : Option Nat} {id newId : RollId} {positions : List Nat}
      {now : Instant} {state next : σ} {roll : Roll}
      (heq : h.rethrow source limit id positions newId now state = (.ok roll, later, next)) :
      Run (inserted ++ [roll]) later
  | refused {inserted : List Roll} {h later : History} (before : Run inserted h) {σ : Type}
      {source : Source σ} {limit : Option Nat} {id newId : RollId} {positions : List Nat}
      {now : Instant} {state next : σ} {e : Error}
      (heq : h.rethrow source limit id positions newId now state = (.error e, later, next)) :
      Run inserted later

/-! ## Insertions -/

/-- The history into which rolls were inserted, the first one first. -/
def ofInsertions (rolls : List Roll) : History := rolls.foldl insert empty

/-- The last insertion is made into the history of the others. -/
lemma ofInsertions_concat (rolls : List Roll) (roll : Roll) :
    ofInsertions (rolls ++ [roll]) = (ofInsertions rolls).insert roll := by
  rw [ofInsertions, List.foldl_append]
  rfl

/-- A run leads to the history of its insertions. -/
theorem Run.eq_ofInsertions {inserted : List Roll} {h : History} (run : Run inserted h) :
    h = ofInsertions inserted := by
  induction run with
  | start => rfl
  | insert before roll ih => rw [ih, ofInsertions_concat]
  | rethrow before heq ih =>
    obtain ⟨earlier, -, -, rfl⟩ := rethrow_eq_ok heq
    rw [ih, ofInsertions_concat]
  | refused before heq ih => rw [rethrow_eq_error heq, ih]

/-- The roll of an identity is the last one that was inserted with it. -/
lemma get?_ofInsertions (rolls : List Roll) (id : RollId) :
    (ofInsertions rolls).get? id = rolls.reverse.find? fun r => r.id = id := by
  induction rolls using List.reverseRecOn with
  | nil => rfl
  | append_singleton rolls roll ih =>
    rw [ofInsertions_concat, get?_insert, List.reverse_concat, List.find?_cons, ih]
    by_cases hid : roll.id = id <;> simp [hid]

/-- The roll of an identity was inserted and has that identity. -/
lemma mem_of_get?_ofInsertions {rolls : List Roll} {id : RollId} {roll : Roll}
    (hget : (ofInsertions rolls).get? id = some roll) : roll ∈ rolls ∧ roll.id = id := by
  rw [get?_ofInsertions] at hget
  have hid := List.find?_some hget
  exact ⟨List.mem_reverse.1 (List.mem_of_find?_eq_some hget), by simpa using hid⟩

/-- An identity with which a roll was inserted has a roll, and it is one of those inserted from that
one on. -/
lemma exists_get?_ofInsertions (before : List Roll) {after : List Roll} {roll : Roll}
    (hroll : roll ∈ after) :
    ∃ last ∈ after, last.id = roll.id ∧
      (ofInsertions (before ++ after)).get? roll.id = some last := by
  have hfound : ∃ last, after.reverse.find? (fun r => r.id = roll.id) = some last := by
    rw [← Option.isSome_iff_exists, List.find?_isSome]
    exact ⟨roll, List.mem_reverse.2 hroll, by simp⟩
  obtain ⟨last, hlast⟩ := hfound
  refine ⟨last, List.mem_reverse.1 (List.mem_of_find?_eq_some hlast), ?_, ?_⟩
  · simpa using List.find?_some hlast
  · rw [get?_ofInsertions, List.reverse_append, List.find?_append, hlast, Option.some_or]

/-- Putting a roll into a list adds its identity, if it is a new one. -/
lemma map_id_put (roll : Roll) (rolls : List Roll) :
    (put roll rolls).map Roll.id =
      if roll.id ∈ rolls.map Roll.id then rolls.map Roll.id
      else rolls.map Roll.id ++ [roll.id] := by
  induction rolls with
  | nil => rfl
  | cons r rest ih =>
    by_cases hr : r.id = roll.id
    · simp [put, hr]
    · have hr' : roll.id ≠ r.id := fun e => hr e.symm
      rw [put, if_neg hr, List.map_cons, ih]
      by_cases hmem : roll.id ∈ rest.map Roll.id <;> simp [hmem, hr']

/-- No identity is kept twice. -/
lemma nodup_ofInsertions (rolls : List Roll) : ((ofInsertions rolls).rolls.map Roll.id).Nodup := by
  induction rolls using List.reverseRecOn with
  | nil => exact List.nodup_nil
  | append_singleton rolls roll ih =>
    rw [ofInsertions_concat, insert, map_id_put]
    split
    · exact ih
    · rename_i hnew
      exact List.nodup_append'.2 ⟨ih, List.nodup_singleton _, by simpa using hnew⟩

/-- The rolls that are kept are those of their identities. -/
lemma mem_rolls_ofInsertions {rolls : List Roll} {roll : Roll} :
    roll ∈ (ofInsertions rolls).rolls ↔ (ofInsertions rolls).get? roll.id = some roll := by
  constructor
  · intro hroll
    have hfound : ∃ r, (ofInsertions rolls).get? roll.id = some r := by
      rw [get?, ← Option.isSome_iff_exists, List.find?_isSome]
      exact ⟨roll, hroll, by simp⟩
    obtain ⟨r, hr⟩ := hfound
    have hid : r.id = roll.id := by simpa using List.find?_some hr
    have hmem : r ∈ (ofInsertions rolls).rolls := List.mem_of_find?_eq_some hr
    rw [hr, List.inj_on_of_nodup_map (nodup_ofInsertions rolls) hmem hroll hid]
  · exact List.mem_of_find?_eq_some

/-- There is a link for each insertion of a roll that has a parent. -/
lemma links_ofInsertions (rolls : List Roll) :
    (ofInsertions rolls).links =
      rolls.filterMap fun r => r.parent.map fun parent => (parent, r.id) := by
  induction rolls using List.reverseRecOn with
  | nil => rfl
  | append_singleton rolls roll ih =>
    rw [ofInsertions_concat, List.filterMap_append, ← ih]
    cases hparent : roll.parent <;> simp [insert, hparent]

/-- The rolls made from a roll come from the insertions of rolls with this parent, each with the
roll that has its identity at last. -/
lemma children_ofInsertions (rolls : List Roll) (parent : RollId) :
    (ofInsertions rolls).children parent =
      (rolls.filter fun r => r.parent = some parent).filterMap fun r =>
        (ofInsertions rolls).get? r.id := by
  rw [children, links_ofInsertions, List.filter_filterMap, List.filterMap_filterMap,
    List.filterMap_filter]
  refine List.filterMap_congr fun r _ => ?_
  cases hparent : r.parent with
  | none => rfl
  | some p => by_cases hp : p = parent <;> simp [Option.filter, hp]

end DiceNotation.History
