import DiceNotation.Proofs.Eval.Limit
import Mathlib
/-!
# Evaluation as exact arithmetic

An evaluation comes to what its expression comes to in integers of any size along the dice that are
drawn (`evaluate_exact`). The same recursion without a range is `Expr.Reckons`; it also says what
holds of every integer on the way, and for an outcome that is that they all are amounts.

An evaluation that fails has arrived at some node of the expression, with everything before it
reckoned exactly (`Expr.Arrives`), and there an integer is reckoned that is no amount, or a divisor
vanishes (`Expr.Faults`). Only a limit makes an evaluation fail otherwise.
-/

namespace DiceNotation

open Amount (InRange)

namespace Expr

/-! ## Reckoning along a trace -/

/-- What an expression comes to along a trace, in integers of any size. No divisor vanishes, and `P`
holds of all that is reckoned on the way. -/
inductive Reckons (P : ℤ → Prop) : Expr → Trace → Reckoning → Prop
  | number (value : Amount) : Reckons P (.number value) [] (.constant value.val)
  | dice {d : Dice} {raw : List Die} (ht : Thrown d.sides d.explodes d.count.toNat raw)
      (hsteps : ∀ v ∈ Reckoning.throwSteps d raw, P v) :
      Reckons P (.dice d) (Trace.ofDice d.sides raw) (.ofThrow d raw)
  | binary {left right : Expr} {op : Operator} {first second : Trace} {l r : Reckoning}
      (hl : Reckons P left first l) (hr : Reckons P right second r)
      (hsteps : ∀ v ∈ Reckoning.combineSteps op l r, P v) (hdivisor : op = .div → ¬r.Vanishes) :
      Reckons P (.binary left op right) (first ++ second) (.combine op l r)

/-- An evaluation along a trace arrives at a node of the expression, which takes a part of the
trace. The left operands of the nodes above it that it is to the right of have been reckoned, and
all on the way were amounts. -/
inductive Arrives : Expr → Trace → Expr → Trace → Prop
  | here (e : Expr) (trace : Trace) : Arrives e trace e trace
  | left {left right node : Expr} {op : Operator} {trace part : Trace}
      (h : Arrives left trace node part) : Arrives (.binary left op right) trace node part
  | right {left right node : Expr} {op : Operator} {first second part : Trace} {l : Reckoning}
      (hl : Reckons InRange left first l) (h : Arrives right second node part) :
      Arrives (.binary left op right) (first ++ second) node part

/-- What is wrong at a node whose operands have been reckoned, all on the way being amounts: the
greatest bound of a throw, the total of an operation or a result from which its bounds are taken is
no amount, or a divisor vanishes. -/
inductive Faults : Expr → Trace → EvalError → Prop
  | dice {d : Dice} {raw : List Die} (ht : Thrown d.sides d.explodes d.count.toNat raw)
      (hrange : ¬InRange (Reckoning.ofThrow d raw).high) :
      Faults (.dice d) (Trace.ofDice d.sides raw) .overflow
  | binary {left right : Expr} {op : Operator} {first second : Trace} {l r : Reckoning} {v : ℤ}
      (hl : Reckons InRange left first l) (hr : Reckons InRange right second r)
      (hv : v ∈ Reckoning.combineSteps op l r) (hrange : ¬InRange v) :
      Faults (.binary left op right) (first ++ second) .overflow
  | divisor {left right : Expr} {first second : Trace} {l r : Reckoning}
      (hl : Reckons InRange left first l) (hr : Reckons InRange right second r)
      (hdivisor : r.Vanishes) :
      Faults (.binary left .div right) (first ++ second) .divisionByZero

variable {e : Expr} {trace : Trace} {answer : Except EvalError Outcome}

/-! ## Answers along a trace -/

/-- An outcome is what is reckoned, and all on the way are amounts. -/
lemma Gives.reckons {o : Outcome} (h : Gives e trace (.ok o)) :
    e.Reckons InRange trace o.reckoning := by
  induction h using Gives.ok_induction with
  | number value => exact .number value
  | dice d raw o ht ho =>
    obtain ⟨hreckoning, hsteps⟩ := Outcome.reckoning_of_ofThrow ho
    rw [hreckoning]
    exact .dice ht hsteps
  | binary left op right first second l r o hl hr ho ihl ihr =>
    obtain ⟨hreckoning, hsteps, hdivisor⟩ := Outcome.reckoning_of_combine ho
    rw [hreckoning]
    exact .binary ihl ihr hsteps hdivisor

/-- Where there is no outcome, something is wrong at a node at which the evaluation has arrived, if
the dice show faces of their kinds. -/
lemma Gives.exists_faults (h : Gives e trace answer)
    (hshows : ∀ draw ∈ trace, draw.2.Shows draw.1) {err : EvalError} (herr : answer = .error err) :
    ∃ node part, e.Arrives trace node part ∧ node.Faults part err := by
  induction h with
  | number value => cases herr
  | @dice d raw ht =>
    have hraw : ∀ die ∈ raw, die.Shows d.sides := fun die hdie =>
      hshows (d.sides, die) (Trace.mem_ofDice.2 ⟨rfl, hdie⟩)
    obtain rfl := Outcome.ofThrow_eq_error herr
    refine ⟨_, _, .here _ _, .dice ht ?_⟩
    intro hrange
    obtain ⟨o, ho⟩ := Outcome.exists_ofThrow hraw hrange
    rw [ho] at herr
    cases herr
  | left hl ih =>
    obtain ⟨node, part, harrives, hfaults⟩ := ih hshows herr
    exact ⟨node, part, .left harrives, hfaults⟩
  | right hl hr ihl ihr =>
    obtain ⟨node, part, harrives, hfaults⟩ :=
      ihr (fun draw hdraw => hshows draw (List.mem_append_right _ hdraw)) herr
    exact ⟨node, part, .right hl.reckons harrives, hfaults⟩
  | binary hl hr ihl ihr =>
    rcases Outcome.combine_eq_error herr with ⟨rfl, v, hv, hrange⟩ | ⟨rfl, rfl, hdivisor⟩
    · exact ⟨_, _, .here _ _, .binary hl.reckons hr.reckons hv hrange⟩
    · exact ⟨_, _, .here _ _, .divisor hl.reckons hr.reckons hdivisor⟩

end Expr

/-- With dice that show faces of their kinds, an evaluation draws the dice of a trace along which
its expression is reckoned in integers of any size. An outcome has the total and the bounds that are
reckoned, and every integer on the way, the sums of dice included, is an amount. Without an outcome
the limit stops the evaluation, or it has arrived at a node where an integer that is reckoned is no
amount or a divisor vanishes. -/
theorem evaluate_exact {σ : Type} {source : Source σ} {state next : σ} {limit : Option Nat}
    {e : Expr} {answer : Except EvalError Outcome} (hrange : source.InRange state)
    (h : e.evaluate source limit state = (answer, next)) :
    ∃ trace, source.Deals state trace next ∧
      (∀ o, answer = .ok o → o.raw = trace.dice ∧ e.Reckons InRange trace o.reckoning) ∧
      ∀ err, answer = .error err →
        err = .tooManyRolls (greatest limit) ∨
          ∃ node part, e.Arrives trace node part ∧ node.Faults part err := by
  obtain ⟨trace, hdeals, -, hanswer⟩ := Expr.trace_of_evaluate h
  refine ⟨trace, hdeals, ?_, ?_⟩
  · rintro o rfl
    rcases hanswer with hrefused | hgives
    · cases hrefused
    · exact ⟨hgives.raw_eq, hgives.reckons⟩
  · rintro err rfl
    rcases hanswer with hrefused | hgives
    · exact .inl (Except.error.inj hrefused)
    · exact .inr (hgives.exists_faults (hrange.of_deals hdeals) rfl)

/-- The quotient of six by a die of four sides from which a number is taken. -/
def quotientOfLowered (n : UInt32) : Expr :=
  .binary (.number (.ofUInt32 6)) .div
    (.binary (.dice (.plain 1 (.ofNumber 4))) .sub (.number (.ofUInt32 n)))

/-- The product of the greatest amount and a die of four sides. -/
def productOfGreatest : Expr :=
  .binary (.number ⟨0x7fffffffffffffff, by decide, by decide⟩) .mul (.dice (.plain 1 (.ofNumber 4)))

/-- By two less than a four the quotient is three, and it is between minus six and six, as the
divisor can be one or minus one. One less than a four is three, but it could have been zero. With a
one the product is in range, but with a four it would not be. -/
theorem evaluate_exact_of_quotient :
    (∃ o next, (quotientOfLowered 2).evaluate Source.highFirst none true = (.ok o, next) ∧
      o.reckoning = ⟨⟨-6, 6⟩, 3⟩ ∧
      ∃ trace : Trace, o.raw = trace.dice ∧
        (quotientOfLowered 2).Reckons InRange trace o.reckoning) ∧
    (∃ next,
      (quotientOfLowered 1).evaluate Source.highFirst none true = (.error .divisionByZero, next) ∧
      ∃ trace node part, (quotientOfLowered 1).Arrives trace node part ∧
        node.Faults part .divisionByZero) ∧
    (∃ next, productOfGreatest.evaluate Source.highFirst none false = (.error .overflow, next) ∧
      ∃ trace node part, productOfGreatest.Arrives trace node part ∧
        node.Faults part .overflow) := by
  have hrange : ∀ high, Source.highFirst.InRange high := fun high =>
    (Source.honest_highFirst high).mono fun _ _ hd => hd.shows
  have hquotient :
      ((quotientOfLowered 2).succeeds Source.highFirst none true fun o _ =>
        o.minimum.val = -6 ∧ o.maximum.val = 6 ∧ o.total.val = 3) = true := by
    decide +kernel
  have hzero :
      (quotientOfLowered 1).failsWith Source.highFirst none true .divisionByZero = true := by
    decide +kernel
  have hproduct : productOfGreatest.failsWith Source.highFirst none false .overflow = true := by
    decide +kernel
  refine ⟨?_, ?_, ?_⟩
  · obtain ⟨o, next, heval, htest⟩ := Expr.exists_of_succeeds hquotient
    obtain ⟨hmin, hmax, htotal⟩ := of_decide_eq_true htest
    obtain ⟨trace, -, hok, -⟩ := evaluate_exact (hrange true) heval
    obtain ⟨hraw, hreckons⟩ := hok o rfl
    refine ⟨o, next, heval, ?_, trace, hraw, hreckons⟩
    rw [Outcome.reckoning, ← hmin, ← hmax, ← htotal]
    rfl
  · obtain ⟨next, heval⟩ := Expr.exists_of_failsWith hzero
    obtain ⟨trace, -, -, herror⟩ := evaluate_exact (hrange true) heval
    rcases herror _ rfl with hlimit | hfault
    · cases hlimit
    · exact ⟨next, heval, trace, hfault⟩
  · obtain ⟨next, heval⟩ := Expr.exists_of_failsWith hproduct
    obtain ⟨trace, -, -, herror⟩ := evaluate_exact (hrange false) heval
    rcases herror _ rfl with hlimit | hfault
    · cases hlimit
    · exact ⟨next, heval, trace, hfault⟩

end DiceNotation
