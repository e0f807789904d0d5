/-!
# Identities of rolls

A roll is known by a universally unique identifier: 128 bits, written as 32 hexadecimal digits in
groups of 8, 4, 4, 4 and 12 with hyphens between them. `RollId.ofText?` also reads the digits
without hyphens, and the hyphenated form in braces or after `urn:uuid:`. All letters may be of
either case.
-/

namespace DiceNotation

/-- The identity of a roll. -/
structure RollId where
  /-- The digits of the identity, as one number. -/
  bits : BitVec 128
  deriving DecidableEq

namespace RollId

/-- The last `width` hexadecimal digits of a number. -/
def hexDigits : Nat → Nat → List Char
  | 0, _ => []
  | width + 1, n => hexDigits width (n / 16) ++ [Nat.digitChar (n % 16)]

/-- The value of a hexadecimal digit. -/
def hexValue? (c : Char) : Option Nat :=
  if '0' ≤ c ∧ c ≤ '9' then some (c.toNat - '0'.toNat)
  else if 'a' ≤ c ∧ c ≤ 'f' then some (c.toNat - 'a'.toNat + 10)
  else if 'A' ≤ c ∧ c ≤ 'F' then some (c.toNat - 'A'.toNat + 10)
  else none

/-- The number that hexadecimal digits stand for, after digits that stand for `n`. -/
def hexNumber? (n : Nat) : List Char → Option Nat
  | [] => some n
  | c :: rest => (hexValue? c).bind fun d => hexNumber? (16 * n + d) rest

/-- Puts a hyphen between groups of the given sizes. -/
def hyphenate : List Nat → List Char → List Char
  | [], digits => digits
  | size :: sizes, digits => digits.take size ++ '-' :: hyphenate sizes (digits.drop size)

/-- Takes the hyphens away from between groups of the given sizes. -/
def unhyphenate? : List Nat → List Char → Option (List Char)
  | [], cs => some cs
  | size :: sizes, cs =>
    match cs.drop size with
    | '-' :: rest => (unhyphenate? sizes rest).map (cs.take size ++ ·)
    | _ => none

/-- The sizes of the groups of digits before the last one. -/
def groups : List Nat := [8, 4, 4, 4]

/-- The hyphenated text of an identity. -/
def text (id : RollId) : String := String.ofList (hyphenate groups (hexDigits 32 id.bits.toNat))

/-- The identity of 32 hexadecimal digits. -/
def ofDigits? (cs : List Char) : Option RollId :=
  if cs.length = 32 then (hexNumber? 0 cs).map fun n => ⟨BitVec.ofNat 128 n⟩ else none

/-- The identity of digits with hyphens between their groups. -/
def ofHyphenated? (cs : List Char) : Option RollId := (unhyphenate? groups cs).bind ofDigits?

/-- The name of the kind of identifier, which may stand before the digits. -/
def scheme : List Char := ['u', 'r', 'n', ':', 'u', 'u', 'i', 'd', ':']

/-- The identity of hyphenated digits after the name of the kind of identifier. -/
def ofNamed? (cs : List Char) : Option RollId :=
  if (cs.take scheme.length).map Char.toLower = scheme then ofHyphenated? (cs.drop scheme.length)
  else none

/-- The identity of hyphenated digits in braces. -/
def ofBraced? : List Char → Option RollId
  | '\x7b' :: rest => if rest.getLast? = some '\x7d' then ofHyphenated? rest.dropLast else none
  | _ => none

/-- Reads an identity. -/
def ofText? (s : String) : Option RollId :=
  let cs := s.toList
  (ofDigits? cs).or <| (ofHyphenated? cs).or <| (ofBraced? cs).or (ofNamed? cs)

end RollId

end DiceNotation
