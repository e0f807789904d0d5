import DiceNotation.Roll.Throw
/-!
# Histories

A history keeps rolls by their identities, and with each identity the rolls that were made from it,
in the order in which they were inserted. From the links of its rolls it answers the line of rolls
that lead up to a roll.
-/

namespace DiceNotation

/-- A store of rolls. -/
structure History where
  /-- The rolls, no two of the same identity. -/
  rolls : List Roll
  /-- The identities of a parent and of a roll made from it, once for each insertion. -/
  links : List (RollId × RollId)

namespace History

/-- The history without rolls. -/
def empty : History := ⟨[], []⟩

/-- How many rolls the history keeps. -/
def size (h : History) : Nat := h.rolls.length

/-- The roll of an identity. -/
def get? (h : History) (id : RollId) : Option Roll := h.rolls.find? fun r => r.id = id

/-- The roll of an identity, or the failure to find it. -/
def get (h : History) (id : RollId) : Except Error Roll :=
  match h.get? id with
  | some r => .ok r
  | none => .error (.notFound id)

/-! ## Insertion -/

/-- Puts a roll into a list of rolls, in the place of the roll with the same identity. -/
def put (roll : Roll) : List Roll → List Roll
  | [] => [roll]
  | r :: rest => if r.id = roll.id then roll :: rest else r :: put roll rest

/-- Inserts a roll and links it to its parent. -/
def insert (h : History) (roll : Roll) : History where
  rolls := put roll h.rolls
  links := match roll.parent with
    | some parent => h.links ++ [(parent, roll.id)]
    | none => h.links

@[simp] theorem get?_empty (id : RollId) : empty.get? id = none := rfl

theorem find?_put (roll : Roll) (id : RollId) (rolls : List Roll) :
    (put roll rolls).find? (fun r => r.id = id) =
      if roll.id = id then some roll else rolls.find? fun r => r.id = id := by
  induction rolls with
  | nil => by_cases h : roll.id = id <;> simp [put, h]
  | cons r rest ih =>
    by_cases hr : r.id = roll.id
    · by_cases h : roll.id = id <;> simp_all [put]
    · by_cases h : r.id = id
      · have : roll.id ≠ id := fun e => hr (h.trans e.symm)
        simp_all [put]
      · simp_all [put]

/-- The last roll that was inserted with an identity is the roll of that identity. -/
theorem get?_insert (h : History) (roll : Roll) (id : RollId) :
    (h.insert roll).get? id = if roll.id = id then some roll else h.get? id :=
  find?_put roll id h.rolls

/-! ## Lineage -/

/-- The rolls made from a roll, in the order of their insertions. -/
def children (h : History) (id : RollId) : List Roll :=
  (h.links.filter fun link => link.1 = id).filterMap fun link => h.get? link.2

/-- The first rolls, at most `n`, of the line of parents that starts with `next`. It ends where a
roll is a first roll or its parent is not kept. -/
def line (h : History) : Nat → Option RollId → List Roll
  | 0, _ | _, none => []
  | n + 1, some id =>
    match h.get? id with
    | some r => r :: line h n r.parent
    | none => []

/-- The line of parents of a roll, the nearest first. A line without a repetition is no longer than
there are rolls. -/
def ancestors (h : History) (id : RollId) : List Roll :=
  h.line h.size ((h.get? id).bind Roll.parent)

/-- The first roll of the line of a roll. -/
def root (h : History) (id : RollId) : Except Error Roll := do
  let roll ← h.get id
  h.get roll.root

/-- Throws a roll of the history once more and inserts the new roll. -/
def rethrow {σ : Type} (h : History) (source : Source σ) (limit : Option Nat) (id : RollId)
    (positions : List Nat) (newId : RollId) (now : Instant) (state : σ) :
    Except Error Roll × History × σ :=
  match h.get id with
  | .error e => (.error e, h, state)
  | .ok earlier =>
    match earlier.rethrow source limit positions newId now state with
    | (.error e, next) => (.error e, h, next)
    | (.ok roll, next) => (.ok roll, h.insert roll, next)

end History

end DiceNotation
