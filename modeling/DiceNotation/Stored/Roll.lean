import DiceNotation.Roll
import DiceNotation.Stored
/-!
# Rolls as stored values

Dice, outcomes and rolls are records. An average is kept as a number where it is one, and as its
text where it is an infinity or not a number; both forms are read in any case. Identities and
instants are kept as texts. What is read need not make sense together: a total may lie outside of
its bounds.
-/

namespace DiceNotation

namespace Amount

/-- Reads an amount: an integer that fits, and no other number. -/
def ofStored? : Stored → Option Amount
  | .integer n => ofInt? n
  | _ => none

/-- The amount as a stored value. -/
def toStored (a : Amount) : Stored := .integer a.val

@[simp] theorem ofStored?_toStored (a : Amount) : ofStored? a.toStored = some a := by
  simp [ofStored?, toStored]

end Amount

namespace Die

/-- The names of the fields of a die. -/
def fieldNames : List String := ["value", "face_label"]

/-- Reads a die. -/
def ofStored? (v : Stored) : Option Die :=
  match v.fields? fieldNames with
  | some [some value, some label] => do
    let value ← Amount.ofStored? value
    let label ← label.text?
    some ⟨value, label⟩
  | _ => none

/-- The die as a stored value. -/
def toStored (d : Die) : Stored :=
  .record [("value", d.value.toStored), ("face_label", .text d.label)]

@[simp] theorem ofStored?_toStored (d : Die) : ofStored? d.toStored = some d := by
  simp [ofStored?, toStored, Stored.fields?, fieldNames, Stored.field?, Stored.text?]

/-- Reads a list of dice. -/
def listOfStored? (v : Stored) : Option (List Die) := do (← v.list?).mapM ofStored?

/-- A list of dice as a stored value. -/
def listToStored (dice : List Die) : Stored := .list (dice.map toStored)

end Die

namespace Outcome

/-- Reads an average: any number, or the text of one. -/
def averageOfStored? : Stored → Option Float
  | .integer n => some (Decimal.ofDigits (n < 0) n.natAbs 0)
  | .real x => some x
  | .text s => Decimal.ofText? s
  | _ => none

/-- An average as a stored value. -/
def averageToStored (x : Float) : Stored :=
  if x.isFinite then .real x else .text (Decimal.text x)

/-- The names of the fields of an outcome. -/
def fieldNames : List String :=
  ["total", "minimum", "maximum", "average", "raw_rolls", "kept_rolls"]

/-- Reads an outcome. -/
def ofStored? (v : Stored) : Option Outcome :=
  match v.fields? fieldNames with
  | some [some total, some minimum, some maximum, some average, some raw, some kept] => do
    let total ← Amount.ofStored? total
    let minimum ← Amount.ofStored? minimum
    let maximum ← Amount.ofStored? maximum
    let average ← averageOfStored? average
    let raw ← Die.listOfStored? raw
    let kept ← Die.listOfStored? kept
    some ⟨total, minimum, maximum, average, raw, kept⟩
  | _ => none

/-- The outcome as a stored value. -/
def toStored (o : Outcome) : Stored :=
  .record [("total", o.total.toStored), ("minimum", o.minimum.toStored),
    ("maximum", o.maximum.toStored), ("average", averageToStored o.average),
    ("raw_rolls", Die.listToStored o.raw), ("kept_rolls", Die.listToStored o.kept)]

end Outcome

namespace RollId

/-- Reads an identity. -/
def ofStored? (v : Stored) : Option RollId := v.text?.bind ofText?

/-- The identity as a stored value. -/
def toStored (id : RollId) : Stored := .text id.text

end RollId

namespace Instant

/-- Reads an instant. -/
def ofStored? (v : Stored) : Option Instant := v.text?.bind ofText?

/-- The instant as a stored value. -/
def toStored (t : Instant) : Stored := .text t.text

end Instant

namespace Roll

/-- The names of the fields of a roll. -/
def fieldNames : List String :=
  ["id", "expression", "outcome", "rolled_at", "context_json", "parent_id", "root_id"]

/-- Reads a roll. The context and the parent may be missing. -/
def ofStored? (v : Stored) : Option Roll :=
  match v.fields? fieldNames with
  | some [some id, some expression, some outcome, some rolledAt, context, parent, some root] => do
    let id ← RollId.ofStored? id
    let expression ← expression.text?
    let outcome ← Outcome.ofStored? outcome
    let rolledAt ← Instant.ofStored? rolledAt
    let context ← Stored.optional? Stored.text? context
    let parent ← Stored.optional? RollId.ofStored? parent
    let root ← RollId.ofStored? root
    some ⟨id, expression, outcome, rolledAt, context, parent, root⟩
  | _ => none

/-- The roll as a stored value. -/
def toStored (r : Roll) : Stored :=
  .record [("id", r.id.toStored), ("expression", .text r.expression),
    ("outcome", r.outcome.toStored), ("rolled_at", r.rolledAt.toStored),
    ("context_json", Stored.ofOption .text r.context),
    ("parent_id", Stored.ofOption RollId.toStored r.parent), ("root_id", r.root.toStored)]

end Roll

end DiceNotation
