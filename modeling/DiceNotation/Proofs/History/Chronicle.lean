import DiceNotation.Proofs.History.Run
import DiceNotation.Proofs.Roll.Making
import Mathlib.Logic.Relation
/-!
# Chronicles

A `Chronicle` goes along with a history: it has all the rolls that were made so far, in the history
or not, and the insertions. Rolls are made with new identities only, and only rolls that were made
are inserted, in any order and any number of times (`Chronicle.Step`).

Then the rolls that are kept are just those that were inserted, each of them for good
(`Chronicle.Sound.get?_eq_some_iff`): an identity never comes to stand for another roll.
-/

namespace DiceNotation

/-- A history, the rolls that were made so far and those that were inserted. -/
structure Chronicle where
  /-- The rolls that were made, the newest first. -/
  made : List Roll
  /-- The rolls that were inserted, once for each insertion, the first one first. -/
  inserted : List Roll
  /-- The history. -/
  history : History

namespace Chronicle

/-- Nothing was made yet. -/
def start : Chronicle := ⟨[], [], .empty⟩

/-- The steps of a chronicle: a roll is made, one of the rolls is inserted, or a roll of the history
is thrown again, with or without success. -/
inductive Step : Chronicle → Chronicle → Prop
  | make {made inserted : List Roll} {h : History} {roll : Roll} (making : Roll.Making made roll)
      (fresh : ∀ earlier ∈ made, earlier.id ≠ roll.id) :
      Step ⟨made, inserted, h⟩ ⟨roll :: made, inserted, h⟩
  | insert {made inserted : List Roll} {h : History} {roll : Roll} (hroll : roll ∈ made) :
      Step ⟨made, inserted, h⟩ ⟨made, inserted ++ [roll], h.insert roll⟩
  | rethrow {made inserted : List Roll} {h later : History} {σ : Type} {source : Source σ}
      {limit : Option Nat} {id newId : RollId} {positions : List Nat} {now : Instant}
      {state next : σ} {roll : Roll} (fresh : ∀ earlier ∈ made, earlier.id ≠ newId)
      (heq : h.rethrow source limit id positions newId now state = (.ok roll, later, next)) :
      Step ⟨made, inserted, h⟩ ⟨roll :: made, inserted ++ [roll], later⟩
  | refused {made inserted : List Roll} {h later : History} {σ : Type} {source : Source σ}
      {limit : Option Nat} {id newId : RollId} {positions : List Nat} {now : Instant}
      {state next : σ} {e : Error}
      (heq : h.rethrow source limit id positions newId now state = (.error e, later, next)) :
      Step ⟨made, inserted, h⟩ ⟨made, inserted, later⟩

/-- The chronicle is reached from the start. -/
def Reached (c : Chronicle) : Prop := Relation.ReflTransGen Step start c

/-- What holds of every chronicle that is reached. -/
structure Sound (c : Chronicle) : Prop where
  /-- The rolls were made one after another. -/
  made : Roll.Made c.made
  /-- Only rolls that were made are inserted. -/
  inserted : c.inserted ⊆ c.made
  /-- The history is reached by the insertions. -/
  run : History.Run c.inserted c.history

lemma sound_start : start.Sound := ⟨.none, List.nil_subset _, .start⟩

namespace Sound

variable {c : Chronicle}

/-- The roll of an identity is the one that was inserted with it: there is no other. -/
lemma get?_eq_some_iff (h : c.Sound) {id : RollId} {roll : Roll} :
    c.history.get? id = some roll ↔ roll ∈ c.inserted ∧ roll.id = id := by
  rw [h.run.eq_ofInsertions]
  constructor
  · exact History.mem_of_get?_ofInsertions
  · rintro ⟨hroll, rfl⟩
    obtain ⟨last, hlast, hid, hget⟩ :=
      History.exists_get?_ofInsertions [] hroll
    rw [h.made.eq_of_id_eq (h.inserted hlast) (h.inserted hroll) hid] at hget
    exact hget

/-- A roll that was not inserted has no other roll in its place. -/
lemma get?_eq_none (h : c.Sound) {roll : Roll} (hmade : roll ∈ c.made)
    (hroll : roll ∉ c.inserted) : c.history.get? roll.id = none := by
  refine Option.eq_none_iff_forall_ne_some.2 fun other hother => ?_
  obtain ⟨hmem, hid⟩ := h.get?_eq_some_iff.1 hother
  rw [h.made.eq_of_id_eq (h.inserted hmem) hmade hid] at hmem
  exact hroll hmem

/-- A roll that was inserted is found. -/
lemma get_eq_ok (h : c.Sound) {roll : Roll} (hroll : roll ∈ c.inserted) :
    c.history.get roll.id = .ok roll :=
  History.get_of_some (h.get?_eq_some_iff.2 ⟨hroll, rfl⟩)

/-- A roll is not found just where it was not inserted. -/
lemma get_eq_error_iff (h : c.Sound) {roll : Roll} (hmade : roll ∈ c.made) {e : Error} :
    c.history.get roll.id = .error e ↔ roll ∉ c.inserted ∧ e = .notFound roll.id := by
  by_cases hroll : roll ∈ c.inserted
  · rw [h.get_eq_ok hroll]
    exact ⟨nofun, fun hnot => absurd hroll hnot.1⟩
  · rw [History.get_of_none (h.get?_eq_none hmade hroll)]
    constructor
    · rintro ⟨⟩
      exact ⟨hroll, rfl⟩
    · rintro ⟨-, rfl⟩
      rfl

/-- The rolls that are kept are those that were inserted. -/
lemma mem_rolls (h : c.Sound) {roll : Roll} : roll ∈ c.history.rolls ↔ roll ∈ c.inserted := by
  have hkept : roll ∈ c.history.rolls ↔ c.history.get? roll.id = some roll := by
    rw [h.run.eq_ofInsertions]
    exact History.mem_rolls_ofInsertions
  rw [hkept, h.get?_eq_some_iff]
  exact and_iff_left rfl

/-- A step keeps a chronicle sound. -/
lemma step {later : Chronicle} (h : c.Sound) (hstep : Step c later) : later.Sound := by
  cases hstep with
  | make making fresh =>
    exact ⟨h.made.more making fresh, fun r hr => List.mem_cons_of_mem _ (h.inserted hr), h.run⟩
  | insert hroll =>
    exact ⟨h.made, List.append_subset.2 ⟨h.inserted, by simpa using hroll⟩, h.run.insert _⟩
  | rethrow fresh heq =>
    obtain ⟨earlier, hget, hmade, -⟩ := History.rethrow_eq_ok heq
    have hearlier := h.inserted (h.get?_eq_some_iff.1 hget).1
    obtain ⟨e, outcome, last, -, -, hroll⟩ := Roll.rethrow_eq_ok hmade
    refine ⟨h.made.more (.rethrow hearlier hmade) (by rw [hroll]; exact fresh), ?_,
      h.run.rethrow heq⟩
    exact List.append_subset.2 ⟨fun r hr => List.mem_cons_of_mem _ (h.inserted hr), by simp⟩
  | refused heq => exact ⟨h.made, h.inserted, h.run.refused heq⟩

/-- What is reached from a sound chronicle is sound. -/
lemma steps {later : Chronicle} (h : c.Sound) (hsteps : Relation.ReflTransGen Step c later) :
    later.Sound := by
  induction hsteps with
  | refl => exact h
  | tail _ hstep ih => exact ih.step hstep

end Sound

lemma Reached.sound {c : Chronicle} (h : c.Reached) : c.Sound := sound_start.steps h

end Chronicle

end DiceNotation
