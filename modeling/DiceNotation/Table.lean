import DiceNotation.EvalError
import DiceNotation.Source
/-!
# The table on which dice are thrown

A `Table` holds a source of dice and counts the dice that are drawn from it against a limit. The
count is a word of 64 bits: a table without a limit is still bound by the greatest count there is.
-/

namespace DiceNotation

/-- The greatest number of dice that can be counted. -/
def maxCount : Nat := 0xffffffffffffffff

/-- The limit where none is chosen. -/
def defaultLimit : Nat := 1000

/-- A source of dice, and the number of dice drawn from it so far. -/
structure Table (σ : Type) where
  /-- How many dice were drawn. -/
  rolls : Nat
  /-- The state of the source. -/
  state : σ

namespace Table

variable {σ : Type}

/-- A table on which no die was thrown. -/
def start (state : σ) : Table σ := ⟨0, state⟩

/-- Whether `n` more dice may be drawn under a limit. A count that is too large to be counted is
taken for the greatest one. -/
def reserve (limit : Option Nat) (n : Nat) (t : Table σ) : Except EvalError Unit :=
  match limit with
  | none => .ok ()
  | some max => if max < min (t.rolls + n) maxCount then .error (.tooManyRolls max) else .ok ()

@[simp] theorem reserve_none (n : Nat) (t : Table σ) : t.reserve none n = .ok () := rfl

/-- Where dice can be counted, a limit allows exactly the dice up to it. -/
theorem reserve_some {max n : Nat} {t : Table σ} (h : max < maxCount) :
    t.reserve (some max) n = if max < t.rolls + n then .error (.tooManyRolls max) else .ok () := by
  have : max < min (t.rolls + n) maxCount ↔ max < t.rolls + n := by omega
  simp only [reserve, this]

/-- Draws one die under a limit. -/
def draw (source : Source σ) (limit : Option Nat) (sides : Sides) (t : Table σ) :
    Except EvalError Die × Table σ :=
  match t.reserve limit 1 with
  | .error e => (.error e, t)
  | .ok () =>
    if t.rolls < maxCount then
      let (die, state) := source t.state sides
      (.ok die, ⟨t.rolls + 1, state⟩)
    else (.error (.tooManyRolls maxCount), t)

/-- A die that was drawn has been counted. -/
theorem rolls_of_draw {source : Source σ} {limit : Option Nat} {sides : Sides} {t t' : Table σ}
    {die : Die} (h : t.draw source limit sides = (.ok die, t')) :
    t.rolls < maxCount ∧ t'.rolls = t.rolls + 1 := by
  unfold draw at h
  split at h
  · simp at h
  · split at h
    · rename_i hlt
      simp only [Prod.mk.injEq, Except.ok.injEq] at h
      exact ⟨hlt, by rw [← h.2]⟩
    · simp at h

end Table

end DiceNotation
