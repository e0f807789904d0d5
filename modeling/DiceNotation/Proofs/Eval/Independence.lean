import DiceNotation.Proofs.Eval.Bracket
import DiceNotation.Proofs.Expr.Form
import DiceNotation.Proofs.Outcome.Exact
import Mathlib
/-!
# What the dice cannot change

Where no die can explode, honest dice decide only the total and whether a divisor comes out as zero
(`bounds_independent_of_dice`).

For one half, an outcome has the bounds, the average and the number of kept dice that the expression
fixes. For the other half, where the expression has bounds nothing can overflow
(`Expr.Gives.ok_or_divisionByZero`): a throw can be added up if its greatest bound is an amount, and
the exact result of an operation lies within bounds that are amounts.
-/

namespace DiceNotation

/-! ## Outcomes -/

namespace Outcome

/-- A throw of proper dice has an outcome, if it has bounds. -/
lemma exists_of_bounds {d : Dice} {raw : List Die} {b : Bounds} (hb : d.bounds = .ok b)
    (hlength : raw.length = d.count.toNat) (hlegal : ∀ die ∈ raw, die.Legal d.sides) :
    ∃ o, ofThrow d raw = .ok o := by
  have hkept : (d.selection.select d.selected.toNat raw).length = d.kept := by
    rw [Selection.length_select, hlength, Dice.kept]
  refine exists_ofThrow (fun die hdie => (hlegal die hdie).shows) ?_
  rw [Reckoning.ofThrow, hkept, ← (Dice.bounds_eq_ok.1 hb).2]
  exact b.max.inRange_val

/-- An operation on operands within their bounds has an outcome, if it has bounds, unless it divides
by zero. -/
lemma combine_ok_or_divisionByZero {op : Operator} {l r : Outcome} {b : Bounds}
    (hb : Bounds.combine op l.bounds r.bounds = .ok b) (hl : l.Bracketed) (hr : r.Bracketed) :
    (∃ o, combine op l r = .ok o) ∨ combine op l r = .error .divisionByZero := by
  by_cases hzero : op = .div ∧ r.total.val = 0
  · refine .inr ?_
    have happly : op.apply l.total r.total = .error .divisionByZero := if_pos hzero
    rw [combine, happly]
    rfl
  · have hnonzero : op = .div → r.total.val ≠ 0 := fun hop hr => hzero ⟨hop, hr⟩
    obtain ⟨hlow, hhigh⟩ := Bounds.exact_mem_of_combine hb hl hr hnonzero
    obtain ⟨total, htotal⟩ : ∃ total : Amount, total.val = op.exact l.total.val r.total.val :=
      Amount.exists_of_inRange ⟨b.min.lower.trans hlow, hhigh.trans_lt b.max.upper⟩
    have happly := Operator.apply_eq_ok.2 ⟨hnonzero, htotal⟩
    exact .inl ⟨⟨total, b.min, b.max, _, _, _⟩, combine_eq_ok.2 ⟨happly, hb, rfl, rfl, rfl⟩⟩

end Outcome

/-! ## Expressions -/

namespace Expr

variable {e : Expr} {trace : Trace} {answer : Except EvalError Outcome} {b : Bounds}

/-- An operation has bounds where its operands have. -/
lemma bounds_binary_eq_ok {left right : Expr} {op : Operator} :
    (binary left op right).bounds = .ok b ↔ ∃ l r, left.bounds = .ok l ∧ right.bounds = .ok r ∧
      Bounds.combine op l r = .ok b := by
  rw [bounds, bind_eq_ok]
  simp only [bind_eq_ok, exists_and_left]

/-- Along a trace of proper dice an expression that has bounds has an outcome, unless a divisor is
zero. -/
lemma Gives.ok_or_divisionByZero (h : Gives e trace answer) (he : e.NeverExplodes)
    (hlegal : ∀ draw ∈ trace, draw.2.Legal draw.1) (hb : e.bounds = .ok b) :
    (∃ o, answer = .ok o) ∨ answer = .error .divisionByZero := by
  induction h generalizing b with
  | number value => exact .inl ⟨_, rfl⟩
  | @dice d raw ht =>
    have hexplodes : d.explodes = false := he
    rw [hexplodes, thrown_iff_length] at ht
    have hraw : ∀ die ∈ raw, die.Legal d.sides := fun die hdie =>
      hlegal (d.sides, die) (Trace.mem_ofDice.2 ⟨rfl, hdie⟩)
    exact .inl (Outcome.exists_of_bounds hb ht hraw)
  | left hl ihl =>
    obtain ⟨bl, br, hbl, -, -⟩ := bounds_binary_eq_ok.1 hb
    exact ihl he.1 hlegal hbl
  | right hl hr ihl ihr =>
    obtain ⟨bl, br, -, hbr, -⟩ := bounds_binary_eq_ok.1 hb
    exact ihr he.2 (fun draw hdraw => hlegal draw (List.mem_append_right _ hdraw)) hbr
  | @binary left right op first second l r hl hr ihl ihr =>
    obtain ⟨bl, br, hbl, hbr, hcombine⟩ := bounds_binary_eq_ok.1 hb
    rw [(hl.fits he.1).bounds_of_eq_ok hbl, (hr.fits he.2).bounds_of_eq_ok hbr] at hcombine
    exact Outcome.combine_ok_or_divisionByZero hcombine
      (hl.bracketed fun draw hdraw => hlegal draw (List.mem_append_left _ hdraw))
      (hr.bracketed fun draw hdraw => hlegal draw (List.mem_append_right _ hdraw))

variable {σ : Type} {source : Source σ} {state : σ} {limit : Option Nat}

/-- With honest dice an expression that has bounds has an outcome, unless a divisor is zero, if the
limit affords all of its dice. -/
lemma ok_or_divisionByZero_of_evaluate (he : e.NeverExplodes) (honest : source.Honest state)
    (hb : e.bounds = .ok b) (ha : Affords limit e.kinds.length) :
    (∃ o next, e.evaluate source limit state = (.ok o, next)) ∨
      ∃ next, e.evaluate source limit state = (.error .divisionByZero, next) := by
  obtain ⟨trace, answer, next, hgives, hdeals⟩ := exists_gives he source state
  have hlegal := Source.Keeps.of_deals honest hdeals
  have hlength : trace.length ≤ e.kinds.length := by
    rw [← Trace.length_kinds]
    exact (hgives.kinds_isPrefix he).length_le
  have heval := evaluate_of_gives hgives hdeals (ha.of_le hlength)
  rcases hgives.ok_or_divisionByZero he hlegal hb with ⟨o, rfl⟩ | rfl
  · exact .inl ⟨o, next, heval⟩
  · exact .inr ⟨next, heval⟩

end Expr

/-- If no die can explode and an evaluation with honest dice has an outcome, then with any other
honest dice the same dice are asked for, and there is an outcome with the same bounds, the same
average, as many kept dice and the same labels, or a divisor is zero. -/
theorem bounds_independent_of_dice {σ τ : Type} {first : Source σ} {second : Source τ}
    {state last : σ} {start : τ} {e : Expr} {limit : Option Nat} {o : Outcome}
    (he : e.NeverExplodes) (hfirst : first.Honest state) (hsecond : second.Honest start)
    (h : e.evaluate first limit state = (.ok o, last)) :
    (∃ o' next, e.evaluate second limit start = (.ok o', next) ∧
        o'.minimum = o.minimum ∧ o'.maximum = o.maximum ∧ o'.average = o.average ∧
        o'.raw.length = o.raw.length ∧ o'.kept.length = o.kept.length ∧
        o'.raw.map Die.label = o.raw.map Die.label ∧
        ∃ kinds, first.draws state kinds = (o.raw, last) ∧
          second.draws start kinds = (o'.raw, next)) ∨
      ∃ next, e.evaluate second limit start = (.error .divisionByZero, next) := by
  obtain ⟨hfits, hdraws, ha⟩ := Expr.draws_of_evaluate he h
  refine (Expr.ok_or_divisionByZero_of_evaluate he hsecond hfits.bounds_eq ha).imp_left ?_
  rintro ⟨o', next, heval⟩
  obtain ⟨hfits', hdraws', -⟩ := Expr.draws_of_evaluate he heval
  have hbounds : o'.bounds = o.bounds := hfits.bounds_of_eq_ok hfits'.bounds_eq
  have hlabels := Expr.labels_of_evaluate he hfirst.labelled h
  have hlabels' := Expr.labels_of_evaluate he hsecond.labelled heval
  have hlabelled : o'.raw.map Die.label = o.raw.map Die.label := hlabels'.trans hlabels.symm
  refine ⟨o', next, heval, congrArg Bounds.min hbounds, congrArg Bounds.max hbounds, ?_, ?_, ?_,
    hlabelled, e.kinds, hdraws, hdraws'⟩
  · rw [hfits'.average_eq, hfits.average_eq]
  · rw [← List.length_map Die.label, hlabelled, List.length_map]
  · rw [hfits'.length_kept, hfits.length_kept]

/-- A product of two fate dice and a quotient whose divisor may be negative, zero or positive. -/
def quotientTimesFate : Expr :=
  .binary
    (.binary (.number (.ofUInt32 6)) .div
      (.binary (.dice (.plain 1 (.ofNumber 4))) .sub (.number (.ofUInt32 2))))
    .mul (.dice (.plain 2 .fate))

/-- With a one on the first die the quotient is negative and with a four it is positive, and a two
makes it divide by zero. -/
theorem bounds_independent_of_dice_of_quotient :
    ∃ o o' : Outcome,
      quotientTimesFate.evaluate Source.highFirst (some 3) false = (.ok o, false) ∧
      quotientTimesFate.evaluate Source.highFirst (some 3) true = (.ok o', false) ∧
      o.total.val = 12 ∧ o'.total.val = -6 ∧
      o'.minimum = o.minimum ∧ o'.maximum = o.maximum ∧ o'.average = o.average ∧
      o'.kept.length = o.kept.length ∧ o'.raw.map Die.label = o.raw.map Die.label ∧
      (quotientTimesFate.evaluate (Replay.source [] Source.highFirst) (some 3)
        (.start [Die.of (.ofNumber 4) (.ofUInt32 2)] false)).1 =
          .error .divisionByZero := by
  have hruns :
      (quotientTimesFate.succeeds Source.highFirst (some 3) false fun o last =>
        last = false ∧ o.total.val = 12 ∧
          quotientTimesFate.succeeds Source.highFirst (some 3) true fun o' next =>
            next = false ∧ o'.total.val = -6) = true := by
    decide +kernel
  have hzero :
      quotientTimesFate.failsWith (Replay.source [] Source.highFirst) (some 3)
        (.start [Die.of (.ofNumber 4) (.ofUInt32 2)] false) .divisionByZero = true := by
    decide +kernel
  have he : quotientTimesFate.NeverExplodes := ⟨⟨trivial, rfl, trivial⟩, rfl⟩
  obtain ⟨o, last, hfirst, htest⟩ := Expr.exists_of_succeeds hruns
  obtain ⟨rfl, htotal, hrest⟩ := of_decide_eq_true htest
  obtain ⟨o', next, hsecond, htest⟩ := Expr.exists_of_succeeds hrest
  obtain ⟨rfl, htotal'⟩ := of_decide_eq_true htest
  rcases bounds_independent_of_dice he (Source.honest_highFirst false)
    (Source.honest_highFirst true) hfirst with
    ⟨again, next, heval, hmin, hmax, haverage, -, hkept, hlabels, -⟩ | ⟨next, heval⟩
  · rw [hsecond] at heval
    cases heval
    obtain ⟨last, hzero⟩ := Expr.exists_of_failsWith hzero
    exact ⟨o, o', hfirst, hsecond, htotal, htotal', hmin, hmax, haverage, hkept, hlabels,
      congrArg Prod.fst hzero⟩
  · rw [hsecond] at heval
    cases heval

end DiceNotation
