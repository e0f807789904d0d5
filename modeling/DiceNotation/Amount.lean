/-!
# Amounts

Totals, faces and bounds are whole numbers of 64 bits with a sign. An `Amount` is an integer
together with the proof that it fits, so arithmetic on amounts is exact arithmetic on integers
followed by the question whether the result still fits (`Amount.ofInt?`).
-/

namespace DiceNotation

/-- A whole number from `-2 ^ 63` up to `2 ^ 63 - 1`. -/
structure Amount where
  /-- The number itself. -/
  val : Int
  /-- It is not below the least amount. -/
  lower : -0x8000000000000000 ≤ val
  /-- It is not above the greatest amount. -/
  upper : val < 0x8000000000000000
  deriving DecidableEq

namespace Amount

theorem ext {a b : Amount} (h : a.val = b.val) : a = b := by
  cases a; cases b; cases h; rfl

theorem ext_iff {a b : Amount} : a = b ↔ a.val = b.val :=
  ⟨fun h => by rw [h], ext⟩

/-- The amount of value `n`, where `n` fits. -/
def ofInt? (n : Int) : Option Amount :=
  if h : -0x8000000000000000 ≤ n ∧ n < 0x8000000000000000 then some ⟨n, h.1, h.2⟩ else none

theorem ofInt?_eq_some {n : Int} {a : Amount} : ofInt? n = some a ↔ a.val = n := by
  unfold ofInt?
  split
  · rw [Option.some.injEq, ext_iff]
    exact ⟨Eq.symm, Eq.symm⟩
  · rename_i h
    simp only [reduceCtorEq, false_iff]
    intro e
    exact h ⟨e ▸ a.lower, e ▸ a.upper⟩

theorem ofInt?_eq_none {n : Int} :
    ofInt? n = none ↔ n < -0x8000000000000000 ∨ 0x8000000000000000 ≤ n := by
  unfold ofInt?
  split <;> rename_i h
  · simp only [reduceCtorEq, false_iff]
    omega
  · simp only [true_iff]
    omega

@[simp] theorem ofInt?_val (a : Amount) : ofInt? a.val = some a :=
  ofInt?_eq_some.2 rfl

/-- A natural number below `2 ^ 63`. -/
def ofNat (n : Nat) (h : n < 0x8000000000000000) : Amount :=
  ⟨n, by omega, by omega⟩

@[simp] theorem val_ofNat (n : Nat) (h : n < 0x8000000000000000) : (ofNat n h).val = n := rfl

/-- A word of 32 bits. -/
def ofUInt32 (n : UInt32) : Amount :=
  ofNat n.toNat (by have := n.toNat_lt; omega)

@[simp] theorem val_ofUInt32 (n : UInt32) : (ofUInt32 n).val = n.toNat := rfl

/-- The amount zero. -/
def zero : Amount := ⟨0, by decide, by decide⟩

/-- The amount one. -/
def one : Amount := ⟨1, by decide, by decide⟩

/-- The amount minus one. -/
def minusOne : Amount := ⟨-1, by decide, by decide⟩

/-- The nearest floating-point number, a tie going to the even one. -/
def toFloat (a : Amount) : Float := (Int64.ofInt a.val).toFloat

/-- The decimal digits, after a minus sign where the amount is negative. -/
def text (a : Amount) : String := toString a.val

end Amount

end DiceNotation
