import DiceNotation.Amount
import DiceNotation.EvalError
/-!
# Operators

The four operators of arithmetic, on amounts and on floating-point numbers. On amounts division
goes toward zero, and each operation fails where its exact result is no amount.
-/

namespace DiceNotation

/-- An operator between two expressions. -/
inductive Operator where
  | add
  | sub
  | mul
  | div
  deriving DecidableEq

namespace Operator

/-- The character that stands for the operator. -/
def symbol : Operator → Char
  | .add => '+'
  | .sub => '-'
  | .mul => '*'
  | .div => '/'

/-- The operator that a character stands for. -/
def ofSymbol (c : Char) : Except EvalError Operator :=
  match c with
  | '+' => .ok .add
  | '-' => .ok .sub
  | '*' => .ok .mul
  | '/' => .ok .div
  | _ => .error (.invalidOperator c)

@[simp] theorem ofSymbol_symbol (op : Operator) : ofSymbol op.symbol = .ok op := by
  cases op <;> rfl

/-- How tightly the operator binds. -/
def precedence : Operator → Nat
  | .add | .sub => 1
  | .mul | .div => 2

/-- The exact result on integers, division going toward zero. -/
def exact : Operator → Int → Int → Int
  | .add, l, r => l + r
  | .sub, l, r => l - r
  | .mul, l, r => l * r
  | .div, l, r => l.tdiv r

/-- The result on amounts. -/
def apply (op : Operator) (l r : Amount) : Except EvalError Amount :=
  if op = .div ∧ r.val = 0 then .error .divisionByZero
  else match Amount.ofInt? (op.exact l.val r.val) with
    | some a => .ok a
    | none => .error .overflow

/-- An operation has the exact result wherever that is an amount and no zero is divided by. -/
theorem apply_eq_ok {op : Operator} {l r a : Amount} :
    op.apply l r = .ok a ↔ (op = .div → r.val ≠ 0) ∧ a.val = op.exact l.val r.val := by
  unfold apply
  split
  · simp_all
  · split <;> rename_i h
    · have := Amount.ofInt?_eq_some.1 h
      simp_all [Amount.ext_iff, eq_comm]
    · have := Amount.ofInt?_eq_none.1 h
      have := a.lower
      have := a.upper
      simp only [reduceCtorEq, false_iff, not_and]
      intro _ e
      omega

/-- The result on floating-point numbers. -/
def applyFloat : Operator → Float → Float → Float
  | .add, l, r => l + r
  | .sub, l, r => l - r
  | .mul, l, r => l * r
  | .div, l, r => l / r

end Operator

end DiceNotation
