import DiceNotation.Die
/-!
# Sources of dice

A source is asked for one die at a time and may remember what it was asked before: with a state of
type `σ`, it answers a kind of die with a die and its next state.
-/

namespace DiceNotation

/-- A source of dice with states in `σ`. -/
abbrev Source (σ : Type) := σ → Sides → Die × σ

namespace Source

/-- The source together with the number of dice that were drawn from it. -/
def counted {σ : Type} (source : Source σ) : Source (σ × Nat) :=
  fun (state, drawn) sides =>
    let (die, next) := source state sides
    (die, next, drawn + 1)

/-- The dice that a source answers a list of kinds with, and its state after them. -/
def draws {σ : Type} (source : Source σ) (state : σ) : List Sides → List Die × σ
  | [] => ([], state)
  | sides :: rest =>
    let (die, next) := source state sides
    let (dice, last) := draws source next rest
    (die :: dice, last)

variable {σ : Type} (source : Source σ)

@[simp] theorem draws_nil (state : σ) : source.draws state [] = ([], state) := rfl

@[simp] theorem draws_cons (state : σ) (sides : Sides) (rest : List Sides) :
    source.draws state (sides :: rest) =
      ((source state sides).1 :: (source.draws (source state sides).2 rest).1,
        (source.draws (source state sides).2 rest).2) := rfl

/-- Each kind is answered with one die. -/
@[simp] theorem length_draws (state : σ) (kinds : List Sides) :
    (source.draws state kinds).1.length = kinds.length := by
  induction kinds generalizing state with
  | nil => rfl
  | cons sides rest ih => simp [ih]

/-- Counting does not change the dice. -/
@[simp] theorem counted_fst (state : σ × Nat) (sides : Sides) :
    (source.counted state sides).1 = (source state.1 sides).1 := rfl

@[simp] theorem counted_snd (state : σ × Nat) (sides : Sides) :
    (source.counted state sides).2 = ((source state.1 sides).2, state.2 + 1) := rfl

end Source

end DiceNotation
