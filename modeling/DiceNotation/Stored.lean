/-!
# Stored values

The shape in which rolls are kept outside of the program: a value is nothing, a truth value, an
integer, a floating-point number, a text, a list of values, or a record of named values.

A record may also be kept without its names, as the list of its values in the order of the fields.
`Stored.fields?` takes both forms apart alike.

Below values lies a layer that writes them out and reads them in again. It need not have a form for
the infinities and for what is not a number, and may read something else in their places.
`Stored.carry` is what such a layer reads of a value, given what it reads of each floating-point
number.
-/

namespace DiceNotation

/-- A value as it is kept outside of the program. -/
inductive Stored where
  | null
  | flag (value : Bool)
  | integer (value : Int)
  | real (value : Float)
  | text (value : String)
  | list (values : List Stored)
  | record (fields : List (String × Stored))

namespace Stored

/-! ## Values written out and read in -/

mutual

/-- What is read of a value by a layer that reads `real x` of a floating-point number `x`, and of
everything else what was written. -/
def carry (real : Float → Stored) : Stored → Stored
  | .null => .null
  | .flag value => .flag value
  | .integer value => .integer value
  | .real value => real value
  | .text value => .text value
  | .list values => .list (carryList real values)
  | .record fields => .record (carryFields real fields)

/-- What the layer reads of the values of a list. -/
def carryList (real : Float → Stored) : List Stored → List Stored
  | [] => []
  | v :: rest => carry real v :: carryList real rest

/-- What the layer reads of the fields of a record. -/
def carryFields (real : Float → Stored) : List (String × Stored) → List (String × Stored)
  | [] => []
  | (name, v) :: rest => (name, carry real v) :: carryFields real rest

end

/-! ## Parts of values -/

/-- The value of the field called `name`. -/
def field? (name : String) (fields : List (String × Stored)) : Option Stored :=
  (fields.find? fun field => field.1 = name).map Prod.snd

/-- The values of the fields of some names, in their order: of a record those that it has, fields
of other names being left aside; of a list all of them, if it has as many values. -/
def fields? (names : List String) : Stored → Option (List (Option Stored))
  | .record fields => some (names.map fun name => field? name fields)
  | .list values => if values.length = names.length then some (values.map some) else none
  | _ => none

/-- The text that a value is. -/
def text? : Stored → Option String
  | .text s => some s
  | _ => none

/-- The values of a list. -/
def list? : Stored → Option (List Stored)
  | .list values => some values
  | _ => none

/-- The value of a field that may be missing: nothing where it is missing or null. -/
def optional? {α : Type} (read : Stored → Option α) : Option Stored → Option (Option α)
  | none | some .null => some none
  | some v => (read v).map some

/-- A value or null. -/
def ofOption {α : Type} (write : α → Stored) : Option α → Stored
  | none => .null
  | some a => write a

/-- A field that may be missing reads back, if the value does and is not written as null. -/
theorem optional?_ofOption {α : Type} {read : Stored → Option α} {write : α → Stored}
    (h : ∀ a, read (write a) = some a) (hn : ∀ a, write a ≠ .null) (o : Option α) :
    optional? read (some (ofOption write o)) = some o := by
  cases o with
  | none => rfl
  | some a => simp [ofOption, optional?, h, hn]

end Stored

end DiceNotation
