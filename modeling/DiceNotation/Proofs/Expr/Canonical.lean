import DiceNotation.Expr.Printer
import DiceNotation.Proofs.Source.Rule
import DiceNotation.Proofs.Token.Spelling
import Mathlib.Tactic.Common
/-!
# The tokens of canonical text

The canonical text of an expression spells the tokens `Expr.tokens` (`Expr.spells_text`), whatever
the expression is: a negative number is a minus sign before an integer, although no expression is
read from these tokens.
-/

namespace DiceNotation

open Token (Spells NoDigit noDigit_symbol)

/-! ## Throws -/

/-- The digits of a number stand after what is written before it. -/
lemma toList_append_toString (s : String) (n : Nat) :
    (s ++ toString n).toList = s.toList ++ Nat.toDigits 10 n := by
  rw [String.toList_append]
  exact congrArg _ Nat.toList_repr

namespace Sides

/-- How the sides of a throw are written. -/
def token : Sides → Token
  | .fate => .mark .fate
  | .poly faces _ => .integer faces.toNat

lemma spells_label (sides : Sides) : Spells sides.label.toList [sides.token] := by
  cases sides with
  | fate => exact Spells.nil.symbol .fate
  | poly faces h =>
    rw [toList_label_poly]
    exact .digits faces.toNat

end Sides

namespace Selection

/-- How a selection is written, with the number of dice that are selected. -/
def tokens (selected : UInt32) : Selection → List Token
  | .all => []
  | .keepHighest => [.mark .keep, .mark .highest, .integer selected.toNat]
  | .keepLowest => [.mark .keep, .mark .lowest, .integer selected.toNat]
  | .dropHighest => [.mark .d, .mark .highest, .integer selected.toNat]
  | .dropLowest => [.mark .d, .mark .lowest, .integer selected.toNat]

/-- The text of a selection. -/
def written (selected : UInt32) (selection : Selection) : String :=
  if selection = .all then "" else selection.text ++ toString selected.toNat

lemma spells_written (selected : UInt32) (selection : Selection) :
    NoDigit (selection.written selected).toList ∧
      Spells (selection.written selected).toList (selection.tokens selected) := by
  have hdigits := Spells.digits selected.toNat
  cases selection with
  | all => exact ⟨nofun, Spells.nil⟩
  | keepHighest =>
    rw [written, if_neg (by decide), toList_append_toString]
    exact ⟨noDigit_symbol .keep _, (hdigits.symbol .highest).symbol .keep⟩
  | keepLowest =>
    rw [written, if_neg (by decide), toList_append_toString]
    exact ⟨noDigit_symbol .keep _, (hdigits.symbol .lowest).symbol .keep⟩
  | dropHighest =>
    rw [written, if_neg (by decide), toList_append_toString]
    exact ⟨noDigit_symbol .d _, (hdigits.symbol .highest).symbol .d⟩
  | dropLowest =>
    rw [written, if_neg (by decide), toList_append_toString]
    exact ⟨noDigit_symbol .d _, (hdigits.symbol .lowest).symbol .d⟩

end Selection

namespace Dice

/-- How a throw is written. -/
def tokens (d : Dice) : List Token :=
  .integer d.count.toNat :: .mark .d :: d.sides.token ::
    ((if d.explodes then [.mark .bang] else []) ++ d.selection.tokens d.selected)

lemma toList_text (d : Dice) : d.text.toList = Nat.toDigits 10 d.count.toNat ++
    'd' :: (d.sides.label.toList ++
      ((if d.explodes then ['!'] else []) ++ (d.selection.written d.selected).toList)) := by
  cases hexplodes : d.explodes with
  | false => simp [text, Selection.written, hexplodes]
  | true => simp [text, Selection.written, hexplodes]

/-- The text of a throw spells it. -/
lemma spells_text (d : Dice) : Spells d.text.toList d.tokens := by
  obtain ⟨hfirst, hselection⟩ := d.selection.spells_written d.selected
  have hend : NoDigit ((if d.explodes then ['!'] else []) ++
        (d.selection.written d.selected).toList) ∧
      Spells ((if d.explodes then ['!'] else []) ++ (d.selection.written d.selected).toList)
        ((if d.explodes then [.mark .bang] else []) ++ d.selection.tokens d.selected) := by
    cases d.explodes with
    | false => exact ⟨hfirst, hselection⟩
    | true => exact ⟨noDigit_symbol .bang _, hselection.symbol .bang⟩
  rw [toList_text]
  have hsides := d.sides.spells_label.append hend.1 hend.2
  exact (Spells.digits d.count.toNat).append (noDigit_symbol .d _) (hsides.symbol .d)

end Dice

/-! ## Expressions -/

namespace Amount

/-- How an amount is written. -/
def tokens (a : Amount) : List Token :=
  match a.val with
  | .ofNat n => [.integer n]
  | .negSucc n => [.mark .minus, .integer (n + 1)]

/-- The text of an amount spells it. -/
lemma spells_text (a : Amount) : Spells a.text.toList a.tokens := by
  obtain ⟨val, lower, upper⟩ := a
  cases val with
  | ofNat n =>
    have htext : (toString (n : Int)).toList = Nat.toDigits 10 n := Nat.toList_repr
    change Spells (toString (n : Int)).toList [.integer n]
    rw [htext]
    exact .digits n
  | negSucc n =>
    have htext : (toString (Int.negSucc n)).toList = '-' :: Nat.toDigits 10 (n + 1) :=
      toList_append_toString "-" (n + 1)
    change Spells (toString (Int.negSucc n)).toList [.mark .minus, .integer (n + 1)]
    rw [htext]
    exact (Spells.digits (n + 1)).symbol .minus

end Amount

namespace Expr

/-- Tokens, in parentheses where wanted. -/
def enclosedTokens (parentheses : Bool) (ts : List Token) : List Token :=
  if parentheses then .mark .leftParen :: (ts ++ [.mark .rightParen]) else ts

/-- How an expression is written. -/
def tokens : Expr → List Token
  | .number value => value.tokens
  | .dice d => d.tokens
  | .binary left op right =>
    enclosedTokens (left.precedence < op.precedence) left.tokens ++
      .mark (.ofOperator op) :: enclosedTokens (right.precedence ≤ op.precedence) right.tokens

/-- Text in parentheses spells what is between them. -/
lemma spells_enclosed {s : String} {ts : List Token} (h : Spells s.toList ts)
    (parentheses : Bool) :
    Spells (enclosed parentheses s).toList (enclosedTokens parentheses ts) := by
  cases parentheses with
  | false => exact h
  | true =>
    have htext : (enclosed true s).toList = '(' :: (s.toList ++ [')']) := by
      simp [enclosed]
    rw [htext]
    exact (h.append (noDigit_symbol .rightParen []) (Spells.nil.symbol .rightParen)).symbol
      .leftParen

/-- The canonical text of an expression spells it. -/
theorem spells_text (e : Expr) : Spells e.text.toList e.tokens := by
  induction e with
  | number value => exact value.spells_text
  | dice d => exact d.spells_text
  | binary left op right ihl ihr =>
    have hsymbol : op.symbol = (Mark.ofOperator op).symbol := by cases op <;> rfl
    have htext : (binary left op right).text.toList =
        (enclosed (left.precedence < op.precedence) left.text).toList ++ ' ' ::
          (Mark.ofOperator op).symbol :: ' ' ::
            (enclosed (right.precedence ≤ op.precedence) right.text).toList := by
      simp [text, hsymbol]
    rw [htext]
    have hright := (spells_enclosed ihr (right.precedence ≤ op.precedence)).space
    refine (spells_enclosed ihl _).append ?_ (hright.symbol (.ofOperator op)).space
    rintro c ⟨⟩
    decide

end Expr

end DiceNotation
