import DiceNotation.Proofs.Expr.Writable
import DiceNotation.Proofs.Grammar.Recognition
import Mathlib.Tactic.Common
/-!
# Reading canonical text

Canonical text is read exactly where the expression can be written, and then as what is written of
the expression (`Expr.ofText_text_iff`).

That expressions which can be written are read follows from the grammar. That no others are read is
shown on the reader itself. Where a factor has to come, it stops at a minus sign, and also at the
`d` after a zero. As parentheses and operators lead again to where a factor has to come, it stops at
such a place wherever in the expression it is (`Expr.stops_tokens`).
-/

namespace DiceNotation

open Grammar
open Reading (Runs Step)

/-! ## Where reading stops -/

namespace Grammar

variable {ts us : List Token}

/-- Where a factor has to come, no reading gets through the tokens. -/
def Stops (ts : List Token) : Prop :=
  ∀ outer inner rest last, ¬Runs ⟨outer, inner, .operand⟩ (ts ++ rest) last

lemma Stops.append (h : Stops ts) (us : List Token) : Stops (ts ++ us) := by
  intro outer inner rest last hrun
  rw [List.append_assoc] at hrun
  exact h _ _ _ _ hrun

/-- An opening parenthesis leads to where a factor has to come. -/
lemma Stops.enclosed (h : Stops ts) (parentheses : Bool) :
    Stops (Expr.enclosedTokens parentheses ts) := by
  cases parentheses with
  | false => exact h
  | true =>
    intro outer inner rest last hrun
    have hopen := (Step.leftParen outer inner).runs
    exact h.append [.mark .rightParen] _ _ _ _ (hopen.drop hrun)

/-- The tokens lead from wherever a factor has to come to where one may end, in the same
parentheses. -/
def Passes (ts : List Token) : Prop :=
  ∀ outer inner, ∃ (inner' : Waiting) (phase : Phase) (f : Expr), phase.factor? = some f ∧
    Runs ⟨outer, inner, .operand⟩ ts ⟨outer, inner', phase⟩

/-- A factor is read to its end. -/
lemma Derives.passes_of_factor {e : Expr} (h : Derives .factor ts e) : Passes ts := by
  intro outer inner
  obtain ⟨last, phase, f, hf, -, hrun⟩ := h.reads outer inner trivial
  exact ⟨last, phase, f, hf, hrun⟩

/-- Whatever derives from the grammar is read to its end wherever a factor has to come. -/
lemma Derives.passes {part : Part} {e : Expr} (h : Derives part ts e) : Passes ts := by
  induction h using Derives.chain_induction with
  | of_operand part ts e hp h ih => exact ih
  | grow part ts us left op right hl hop hr ihl ihr =>
    intro outer inner
    obtain ⟨inner', phase, f, hf, hleft⟩ := ihl outer inner
    obtain ⟨last, phase', f', hf', hright⟩ := ihr outer (inner'.follow f op)
    have hop := Step.operator outer inner' hf op
    exact ⟨last, phase', f', hf', hleft.append (.cons hop hright)⟩
  | parens ts e h ih => exact h.parens.passes_of_factor
  | throw ts d h => exact (Derives.throw h).passes_of_factor
  | integer n fits => exact (Derives.integer fits).passes_of_factor

/-- An operator leads to where a factor has to come. -/
lemma Stops.after (hs : Stops us) (h : Passes ts) (op : Operator) :
    Stops (ts ++ .mark (.ofOperator op) :: us) := by
  intro outer inner rest last hrun
  obtain ⟨inner', phase, f, hf, hleft⟩ := h outer inner
  have hop := (Step.operator outer inner' hf op).runs
  rw [List.append_assoc] at hrun
  exact hs _ _ _ _ (hop.drop (hleft.drop hrun))

end Grammar

/-- A minus sign is no factor. -/
lemma Amount.stops_tokens {a : Amount} (h : ¬0 ≤ a.val) : Stops a.tokens := by
  intro outer inner rest last hrun
  obtain ⟨val, lower, upper⟩ := a
  cases val with
  | ofNat n => exact h (Int.natCast_nonneg n)
  | negSucc n =>
    obtain ⟨middle, hstep, -⟩ := Reading.runs_cons.1 hrun
    have hminus := Reading.step_eq_ok.2 hstep
    cases hminus

/-- Zero counts no dice. -/
lemma Dice.stops_tokens {d : Dice} (h : ¬d.count ≠ 0) : Stops d.tokens := by
  intro outer inner rest last hrun
  have hzero : d.count = 0 := Decidable.not_not.1 h
  rw [tokens, hzero] at hrun
  have hinteger := (Step.integer outer inner (n := 0) (by decide)).runs
  obtain ⟨middle, hstep, -⟩ := Reading.runs_cons.1 (hinteger.drop hrun)
  have hd := Reading.step_eq_ok.2 hstep
  cases hd

namespace Expr

/-- No reading gets through what is written of an expression that cannot be written. -/
lemma stops_tokens {e : Expr} (h : ¬e.Writable) : Stops e.tokens := by
  induction e with
  | number value => exact Amount.stops_tokens h
  | dice d => exact Dice.stops_tokens h
  | binary left op right ihl ihr =>
    by_cases hl : left.Writable
    · have hr : ¬right.Writable := fun hr => h ⟨hl, hr⟩
      have hleft : Derives .expression
          (enclosedTokens (left.precedence < op.precedence) left.tokens) left.normal :=
        derives_enclosed (derives_tokens hl) fun _ => left.expression_le
      exact ((ihr hr).enclosed _).after hleft.passes op
    · exact ((ihl hl).enclosed _).append _

end Expr

/-! ## Round trips -/

namespace Expr

/-- The canonical text of an expression is read as what is written of it. -/
lemma ofText_text_iff {e e' : Expr} :
    ofText e.text = .ok e' ↔ e.Writable ∧ e' = e.normal := by
  rw [ofText_eq_ok, e.spells_text.tokens_ofText]
  constructor
  · intro h
    have hw : e.Writable := by
      by_contra hw
      obtain ⟨last, hrun, -⟩ := ofTokens_eq_ok.1 h
      have hstops := stops_tokens hw [] .nothing [] last
      rw [List.append_nil] at hstops
      exact hstops hrun
    have hnormal := ofTokens_eq_ok_iff.2 (derives_tokens hw e.expression_le)
    exact ⟨hw, Except.ok.inj (h.symm.trans hnormal)⟩
  · rintro ⟨hw, rfl⟩
    exact ofTokens_eq_ok_iff.2 (derives_tokens hw e.expression_le)

/-- Canonical text is read back: it is refused where the expression cannot be written, and is read
as what can be written of the expression otherwise. An expression that was read from any text is
read again as itself, and what is read of an expression has the same answers and the same draws. -/
theorem ofText_text (e : Expr) :
    (¬e.Writable → ∃ fault, ofText e.text = .error fault) ∧
      (e.Writable → ofText e.text = .ok e.normal) ∧
      (∀ s, ofText s = .ok e → ofText e.text = .ok e) ∧
      ∀ e', ofText e.text = .ok e' → ∀ {σ : Type} (source : Source σ) (limit : Option Nat)
        (t : Table σ), e'.eval source limit t = e.eval source limit t := by
  refine ⟨?_, ?_, ?_, ?_⟩
  · intro hw
    cases h : ofText e.text with
    | error fault => exact ⟨fault, rfl⟩
    | ok e' => exact absurd (ofText_text_iff.1 h).1 hw
  · intro hw
    exact ofText_text_iff.2 ⟨hw, rfl⟩
  · intro s h
    obtain ⟨hw, hnormal⟩ := (ofTokens_eq_ok_iff.1 (ofText_eq_ok.1 h)).writable
    exact ofText_text_iff.2 ⟨hw, hnormal.symm⟩
  · intro e' h σ source limit t
    rw [(ofText_text_iff.1 h).2]
    exact e.eval_normal source limit t

/-- An expression in which an operand needs parentheses and a number of selected dice is of no
effect. -/
def nested : Expr :=
  .binary (.binary (.number (.ofNat 7 (by decide))) .div (.dice ⟨2, .fate, true, .all, 9⟩)) .sub
    (.binary (.number (.ofNat 3 (by decide))) .sub
      (.dice ⟨1, .poly 20 (by decide), false, .dropLowest, 0⟩))

/-- The nested expression is read back, but not where a negative number stands beside it. -/
theorem ofText_text_of_nested :
    nested.text = "7 / 2df! - (3 - 1d20dl0)" ∧ nested.Writable ∧ nested.normal ≠ nested ∧
      ofText nested.text = .ok nested.normal ∧
      ofText nested.normal.text = .ok nested.normal ∧
      (∀ {σ : Type} (source : Source σ) (limit : Option Nat) (t : Table σ),
        nested.normal.eval source limit t = nested.eval source limit t) ∧
      ¬(binary nested .mul (number .minusOne)).Writable ∧
      ∃ fault, ofText (binary nested .mul (number .minusOne)).text = .error fault := by
  have hw : nested.Writable := by decide
  have hbad : ¬(binary nested .mul (number .minusOne)).Writable := by decide
  have hread := (ofText_text nested).2.1 hw
  refine ⟨by decide +kernel, hw, by decide, hread, ?_, ?_, hbad, (ofText_text _).1 hbad⟩
  · exact (ofText_text nested.normal).2.2.1 nested.text hread
  · exact (ofText_text nested).2.2.2 nested.normal hread

end Expr

end DiceNotation
