import DiceNotation.Source
/-!
# Replayed dice

A replay answers from the dice of an earlier throw, draw by draw, and turns to another source for
the draws at chosen positions, for the draws after the last recorded die, and for each draw whose
recorded die is of another kind than the one asked for. A recorded die that is not used is passed
over, so that a die always stands for the draw of its own number.
-/

namespace DiceNotation

/-- Where a replay stands. -/
structure Replay (σ : Type) where
  /-- The recorded dice from the next draw on. -/
  recorded : List Die
  /-- How many draws there were. -/
  calls : Nat
  /-- The state of the other source. -/
  fallback : σ

namespace Replay

variable {σ : Type}

/-- A replay of recorded dice that has not begun. -/
def start (recorded : List Die) (fallback : σ) : Replay σ := ⟨recorded, 0, fallback⟩

/-- The recorded die that answers the next draw, if one does. -/
def replayed? (positions : List Nat) (r : Replay σ) (sides : Sides) : Option Die :=
  r.recorded.head?.filter fun die => !positions.contains r.calls && die.label == sides.label

/-- The source that replays, but draws at `positions` from `other`. -/
def source (positions : List Nat) (other : Source σ) : Source (Replay σ) :=
  fun r sides =>
    match r.replayed? positions sides with
    | some die => (die, { r with recorded := r.recorded.tail, calls := r.calls + 1 })
    | none =>
      let (die, fallback) := other r.fallback sides
      (die, ⟨r.recorded.tail, r.calls + 1, fallback⟩)

/-- A recorded die answers a draw when it is of the kind asked for and no position is chosen for
the draw. -/
theorem replayed?_eq_some {positions : List Nat} {r : Replay σ} {sides : Sides} {die : Die} :
    r.replayed? positions sides = some die ↔
      r.recorded.head? = some die ∧ r.calls ∉ positions ∧ die.label = sides.label := by
  simp [replayed?, Option.filter_eq_some_iff]

/-- A draw that a recorded die answers leaves the other source alone. -/
theorem source_of_replayed {positions : List Nat} {r : Replay σ} {sides : Sides} {die : Die}
    (h : r.replayed? positions sides = some die) (other : Source σ) :
    source positions other r sides = (die, ⟨r.recorded.tail, r.calls + 1, r.fallback⟩) := by
  simp [source, h]

/-- Any other draw is one draw from the other source. -/
theorem source_of_fresh {positions : List Nat} {r : Replay σ} {sides : Sides}
    (h : r.replayed? positions sides = none) (other : Source σ) :
    source positions other r sides =
      ((other r.fallback sides).1, ⟨r.recorded.tail, r.calls + 1, (other r.fallback sides).2⟩) := by
  simp [source, h]

/-- Every draw passes over one recorded die, used or not. -/
@[simp] theorem recorded_source (positions : List Nat) (other : Source σ) (r : Replay σ)
    (sides : Sides) : (source positions other r sides).2.recorded = r.recorded.tail := by
  unfold source
  split <;> rfl

@[simp] theorem calls_source (positions : List Nat) (other : Source σ) (r : Replay σ)
    (sides : Sides) : (source positions other r sides).2.calls = r.calls + 1 := by
  unfold source
  split <;> rfl

end Replay

end DiceNotation
