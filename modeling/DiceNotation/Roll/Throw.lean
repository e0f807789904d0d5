import DiceNotation.Error
import DiceNotation.Expr.Eval
import DiceNotation.Expr.Text
import DiceNotation.Roll
import DiceNotation.Source.Replay
/-!
# Making rolls

`Roll.throw` evaluates the text of an expression and records it as a first roll. `Roll.rethrow`
evaluates the expression of a roll once more: the dice of that roll are replayed, but for those at
chosen positions, and the new roll is linked to the old one. The identity and the time of a new
roll are given by the caller, as is the source of fresh dice.
-/

namespace DiceNotation.Roll

variable {σ : Type}

/-- Evaluates an expression's text and records the outcome as a first roll. -/
def throw (source : Source σ) (limit : Option Nat) (expression : String) (context : Option String)
    (id : RollId) (now : Instant) (state : σ) : Except Error Roll × σ :=
  match Expr.ofText expression with
  | .error e => (.error (.parse e), state)
  | .ok expr =>
    match expr.evaluate source limit state with
    | (.error e, next) => (.error (.eval e), next)
    | (.ok outcome, next) => (.ok (create id expression outcome now context), next)

/-- Evaluates a roll's expression once more, with the dice of the roll but for those at some
positions, and records the outcome as a roll made from it. -/
def rethrow (source : Source σ) (limit : Option Nat) (earlier : Roll) (positions : List Nat)
    (id : RollId) (now : Instant) (state : σ) : Except Error Roll × σ :=
  match Expr.ofText earlier.expression with
  | .error e => (.error (.parse e), state)
  | .ok expr =>
    let replay := Replay.start earlier.outcome.raw state
    match expr.evaluate (Replay.source positions source) limit replay with
    | (.error e, next) => (.error (.eval e), next.fallback)
    | (.ok outcome, next) => (.ok (earlier.derive id outcome now), next.fallback)

end DiceNotation.Roll
