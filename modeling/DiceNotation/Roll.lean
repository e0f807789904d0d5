import DiceNotation.Instant
import DiceNotation.Outcome
import DiceNotation.RollId
/-!
# Rolls

A roll records that an expression was evaluated, with what outcome and when. A roll that was made
by throwing another one again points back to it as its parent; the first roll of such a line is the
root of all of them.
-/

namespace DiceNotation

/-- A recorded evaluation of an expression. -/
structure Roll where
  /-- The identity of the roll. -/
  id : RollId
  /-- The text of the expression, as it was given. -/
  expression : String
  /-- What came of it. -/
  outcome : Outcome
  /-- When it was evaluated. -/
  rolledAt : Instant
  /-- What the caller wants to be kept with the roll. -/
  context : Option String
  /-- The roll that this one was made from. -/
  parent : Option RollId
  /-- The first roll of the line; of a first roll, the roll itself. -/
  root : RollId

namespace Roll

/-- A first roll. -/
def create (id : RollId) (expression : String) (outcome : Outcome) (rolledAt : Instant)
    (context : Option String) : Roll :=
  ⟨id, expression, outcome, rolledAt, context, none, id⟩

/-- A roll made from another one, with the same expression and context. -/
def derive (earlier : Roll) (id : RollId) (outcome : Outcome) (rolledAt : Instant) : Roll :=
  ⟨id, earlier.expression, outcome, rolledAt, earlier.context, some earlier.id, earlier.root⟩

/-- Whether the roll is the first of its line. -/
def isRoot (r : Roll) : Bool := r.parent.isNone

/-- Whether two rolls are the same in every part, with outcomes compared by `Outcome.same`. -/
def same (a b : Roll) : Bool :=
  a.id = b.id && a.expression = b.expression && a.outcome.same b.outcome &&
    a.rolledAt = b.rolledAt && a.context = b.context && a.parent = b.parent && a.root = b.root

/-- The text of a roll: the expression and its outcome. -/
def text (r : Roll) : String := r.expression ++ " = " ++ r.outcome.text

end Roll

end DiceNotation
