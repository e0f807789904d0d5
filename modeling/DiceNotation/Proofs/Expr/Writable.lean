import DiceNotation.Expr.Eval
import DiceNotation.Proofs.Expr.Canonical
import DiceNotation.Proofs.Grammar.Derivation
import Mathlib.Tactic.Common
/-!
# Expressions that can be written

An expression can be written if no number in it is negative and every throw is of some dice
(`Expr.Writable`). What is written of it derives from the grammar, as the parentheses of canonical
text make every operand the part of the grammar that has to stand there (`Expr.derives_tokens`).

The tree of the derivation is the expression itself, but for the number of selected dice in a throw
where every die counts, which is not written (`Expr.normal`). It is of no effect either
(`Expr.eval_normal`). The tree of a derivation is of this form already (`Grammar.Derives.writable`).
-/

namespace DiceNotation

open Grammar

variable {σ : Type}

/-! ## Expressions that can be written -/

namespace Dice

/-- The throw as it is read: where every die counts, the number of selected dice is one. -/
def normal (d : Dice) : Dice := if d.selection = .all then { d with selected := 1 } else d

end Dice

namespace Expr

/-- The expression can be written: no number is negative, and no throw is of no dice. -/
def Writable : Expr → Prop
  | .number value => 0 ≤ value.val
  | .dice d => d.count ≠ 0
  | .binary left _ right => left.Writable ∧ right.Writable

instance decidableWritable : (e : Expr) → Decidable e.Writable
  | .number value => inferInstanceAs (Decidable (0 ≤ value.val))
  | .dice d => inferInstanceAs (Decidable (d.count ≠ 0))
  | .binary left _ right =>
    have := decidableWritable left
    have := decidableWritable right
    inferInstanceAs (Decidable (left.Writable ∧ right.Writable))

/-- The expression as it is read, throw by throw. -/
def normal : Expr → Expr
  | .number value => .number value
  | .dice d => .dice d.normal
  | .binary left op right => .binary left.normal op right.normal

end Expr

/-! ## Evaluation -/

/-- How many dice are selected is of no effect where every die counts. -/
lemma Dice.eval_normal (d : Dice) (source : Source σ) (limit : Option Nat) (t : Table σ) :
    d.normal.eval source limit t = d.eval source limit t := by
  unfold normal
  split
  · rename_i hall
    obtain ⟨count, sides, explodes, selection, selected⟩ := d
    cases hall
    rfl
  · rfl

/-- An expression and what is read of it have the same answers and leave the same table. -/
lemma Expr.eval_normal (e : Expr) (source : Source σ) (limit : Option Nat) (t : Table σ) :
    e.normal.eval source limit t = e.eval source limit t := by
  induction e generalizing t with
  | number value => rfl
  | dice d => exact d.eval_normal source limit t
  | binary left op right ihl ihr => simp only [normal, eval, ihl, ihr]

/-! ## Writable expressions are derived -/

namespace Grammar

/-- The part of the grammar whose operators bind as tightly as the operator. -/
def partOf : Operator → Part
  | .add | .sub => .expression
  | .mul | .div => .term

lemma precedence_partOf (op : Operator) : op.precedence = (partOf op).precedence := by
  cases op <;> rfl

lemma precedence_operand_partOf (op : Operator) :
    (partOf op).operand.precedence = op.precedence + 1 := by
  cases op <;> rfl

variable {ts : List Token} {e : Expr}

/-- What derives as a tighter part derives as a looser one. -/
lemma Derives.of_le {part tighter : Part} (h : Derives tighter ts e)
    (hle : part.precedence ≤ tighter.precedence) : Derives part ts e := by
  cases tighter with
  | expression =>
    cases part with
    | expression => exact h
    | term | factor => exact absurd hle (by decide)
  | term =>
    cases part with
    | expression => exact .of_operand nofun h
    | term => exact h
    | factor => exact absurd hle (by decide)
  | factor =>
    cases part with
    | expression => exact .of_operand nofun (.of_operand nofun h)
    | term => exact .of_operand nofun h
    | factor => exact h

end Grammar

namespace Sides

lemma faces_token (sides : Sides) : Faces sides.token sides := by
  cases sides with
  | fate => exact .fate
  | poly faces h =>
    have hword := UInt32.ofNatLT_toNat faces
    have hpos : 0 < UInt32.ofNatLT faces.toNat faces.toNat_lt := by rwa [hword]
    have hfaces := Faces.poly faces.toNat_lt hpos
    simp only [hword] at hfaces
    exact hfaces

end Sides

namespace Selection

/-- What is written of a selection leaves open how many dice are selected where every die counts. -/
lemma choice_tokens (selection : Selection) (selected : UInt32) :
    Choice (selection.tokens selected) selection (if selection = .all then 1 else selected) := by
  have hcounted := fun keep highest => Choice.counted keep highest selected.toNat_lt
  rw [UInt32.ofNatLT_toNat] at hcounted
  cases selection with
  | all => exact .absent
  | keepHighest => exact hcounted true true
  | keepLowest => exact hcounted true false
  | dropHighest => exact hcounted false true
  | dropLowest => exact hcounted false false

end Selection

/-- A throw of some dice is derived from what is written of it. -/
lemma Dice.throw_tokens {d : Dice} (h : d.count ≠ 0) : Throw d.tokens d.normal := by
  have hpos : 0 < d.count.toNat := by
    rw [Nat.pos_iff_ne_zero]
    exact fun hzero => h (UInt32.toNat_inj.1 hzero)
  have hcount := Count.written hpos d.count.toNat_lt
  rw [UInt32.ofNatLT_toNat] at hcount
  have hthrow := Throw.select (.throw hcount d.sides.faces_token d.explodes)
    (d.selection.choice_tokens d.selected)
  have hnormal : d.normal = ⟨d.count, d.sides, d.explodes, d.selection,
      if d.selection = .all then 1 else d.selected⟩ := by
    unfold normal
    split <;> rfl
  rw [hnormal]
  simpa [tokens, bang] using hthrow

/-- A number that is not negative is derived from what is written of it. -/
lemma Amount.derives_tokens {a : Amount} (h : 0 ≤ a.val) :
    Derives .factor a.tokens (.number a) := by
  obtain ⟨val, lower, upper⟩ := a
  cases val with
  | ofNat n => exact .integer (Int.ofNat_lt.1 upper)
  | negSucc n => exact absurd h (Int.not_le.2 (Int.negSucc_lt_zero n))

namespace Expr

/-- An expression binds at least as tightly as the operators of a sum. -/
lemma expression_le (e : Expr) : Part.expression.precedence ≤ e.precedence := by
  cases e with
  | number value => exact Nat.le_of_ble_eq_true rfl
  | dice d => exact Nat.le_of_ble_eq_true rfl
  | binary left op right => cases op <;> exact Nat.le_of_ble_eq_true rfl

/-- Tokens derive as any part of the grammar in parentheses, and as a tight enough one without. -/
lemma derives_enclosed {e e' : Expr} {ts : List Token}
    (h : ∀ {part : Part}, part.precedence ≤ e.precedence → Derives part ts e') {part : Part}
    {parentheses : Bool} (hp : parentheses = false → part.precedence ≤ e.precedence) :
    Derives part (enclosedTokens parentheses ts) e' := by
  cases parentheses with
  | false => exact h (hp rfl)
  | true =>
    have hle : part.precedence ≤ Part.factor.precedence := by cases part <;> decide
    exact (Derives.parens (h e.expression_le)).of_le hle

/-- What is written of an expression derives from the grammar, as what is read of it. -/
lemma derives_tokens {e : Expr} (h : e.Writable) {part : Part}
    (hp : part.precedence ≤ e.precedence) : Derives part e.tokens e.normal := by
  induction e generalizing part with
  | number value => exact (Amount.derives_tokens h).of_le hp
  | dice d => exact (Derives.throw (Dice.throw_tokens h)).of_le hp
  | binary left op right ihl ihr =>
    have hleft : Derives (partOf op) (enclosedTokens (left.precedence < op.precedence) left.tokens)
        left.normal := by
      refine derives_enclosed (ihl h.1) ?_
      rw [decide_eq_false_iff_not, ← precedence_partOf]
      omega
    have hright : Derives (partOf op).operand
        (enclosedTokens (right.precedence ≤ op.precedence) right.tokens) right.normal := by
      refine derives_enclosed (ihr h.2) ?_
      rw [decide_eq_false_iff_not, precedence_operand_partOf]
      omega
    have hle : part.precedence ≤ (partOf op).precedence := by
      rw [← precedence_partOf]
      exact hp
    exact (hleft.grow (precedence_partOf op) hright).of_le hle

end Expr

/-! ## Trees of derivations can be written -/

/-- Keeping and dropping do not let every die count. -/
lemma Selection.of_ne_all (keep highest : Bool) : Selection.of keep highest ≠ .all := by
  cases keep <;> cases highest <;> decide

/-- A throw that derives from the grammar is of some dice, and is read as it is. -/
lemma Grammar.Throw.writable {ts : List Token} {d : Dice} (h : Throw ts d) :
    d.count ≠ 0 ∧ d.normal = d := by
  obtain ⟨⟨hcount, hfaces, explodes⟩, hs⟩ := h
  constructor
  · cases hcount with
    | absent => exact fun hone => absurd hone (by decide : (1 : UInt32) ≠ 0)
    | @written n pos fits =>
      intro hzero
      have hnat : n = 0 := by simpa using congrArg UInt32.toNat hzero
      exact absurd hnat (Nat.ne_of_gt pos)
  · cases hs with
    | absent => rfl
    | bare keep highest => exact if_neg (Selection.of_ne_all keep highest)
    | counted keep highest fits => exact if_neg (Selection.of_ne_all keep highest)

/-- The tree of a derivation can be written, and is read as it is. -/
lemma Grammar.Derives.writable {part : Part} {ts : List Token} {e : Expr} (h : Derives part ts e) :
    e.Writable ∧ e.normal = e := by
  induction h using Derives.chain_induction with
  | of_operand part ts e hp h ih => exact ih
  | grow part ts us left op right hl hop hr ihl ihr =>
    exact ⟨⟨ihl.1, ihr.1⟩, by rw [Expr.normal, ihl.2, ihr.2]⟩
  | parens ts e h ih => exact ih
  | throw ts d h =>
    obtain ⟨hcount, hnormal⟩ := h.writable
    exact ⟨hcount, by rw [Expr.normal, hnormal]⟩
  | integer n fits => exact ⟨Int.natCast_nonneg n, rfl⟩

end DiceNotation
