import DiceNotation.Proofs.Grammar.Step
import Mathlib.Tactic.Common
/-!
# Derivations are read

What derives from the grammar is read as the tree of the derivation (`Grammar.Derives.reads`).
Wherever a part of the grammar may begin (`Grammar.Part.Opens`), its tokens lead to where it may end
(`Grammar.Part.Closes`), and what waits around it stays as it was (`Grammar.Reads`). A chain is read
as it grows: the operator makes the chain so far wait for the next operand.
-/

namespace DiceNotation

open Grammar

/-! ## Operators after a factor -/

namespace Waiting

/-- After the operator of a sum the expression so far waits. -/
lemma follow_sum {op : Operator} (hop : op.precedence = Part.expression.precedence) (w : Waiting)
    (f : Expr) : w.follow f op = ⟨some (w.close f, op), none⟩ := by
  refine if_neg ?_
  rw [hop]
  decide

/-- After the operator of a product the term so far waits. -/
lemma follow_product {op : Operator} (hop : op.precedence = Part.term.precedence) (w : Waiting)
    (f : Expr) : w.follow f op = ⟨w.sum, some (attach w.product f, op)⟩ :=
  if_pos hop

end Waiting

/-! ## Throws -/

namespace Grammar

open Reading (Runs Step)

variable {ts us : List Token}

/-- A count with the `d` after it is read where a factor may begin. -/
lemma Count.runs {count : UInt32} (h : Count ts count) (outer : List Waiting) (inner : Waiting) :
    Runs ⟨outer, inner, .operand⟩ (ts ++ [.mark .d]) ⟨outer, inner, .sides count⟩ := by
  cases h with
  | absent => exact (Step.single outer inner).runs
  | @written n pos fits =>
    have fits' : n < 0x8000000000000000 := Nat.lt_trans fits (by decide)
    exact .cons (.integer outer inner fits') (Step.counted outer inner fits' pos fits).runs

/-- A throw is read up to its selection. -/
lemma Unselected.runs {d : Dice} (h : Unselected ts d) (outer : List Waiting) (inner : Waiting) :
    Runs ⟨outer, inner, .operand⟩ ts ⟨outer, inner, .dice d⟩ := by
  obtain @⟨ts, t, count, sides, hcount, hfaces, explodes⟩ := h
  have hsides := Step.faces outer inner count hfaces
  rw [List.append_cons]
  refine (hcount.runs outer inner).append ?_
  cases explodes with
  | false => exact hsides.runs
  | true => exact .cons hsides (Step.bang outer inner rfl).runs

/-- A throw is read to where it may end. -/
lemma Throw.runs {d : Dice} (h : Throw ts d) (outer : List Waiting) (inner : Waiting) :
    ∃ phase : Phase, phase.factor? = some (.dice d) ∧
      Runs ⟨outer, inner, .operand⟩ ts ⟨outer, inner, phase⟩ := by
  obtain @⟨ts, us, d, selection, selected, hd, hs⟩ := h
  have hrun := hd.runs outer inner
  have hone : d.selected = 1 := by rw [hd.eq_all]
  cases hs with
  | absent =>
    rw [List.append_nil, ← hd.eq_all]
    exact ⟨.dice d, rfl, hrun⟩
  | bare keep highest =>
    have hrank := (Step.rank outer inner d keep highest).runs
    refine ⟨.selected { d with selection := .of keep highest }, ?_, ?_⟩
    · rw [Phase.factor?, hone]
    · exact hrun.append (.cons (.keep outer inner d keep) hrank)
  | counted keep highest fits =>
    have hcount := (Step.selected outer inner { d with selection := .of keep highest } fits).runs
    refine ⟨.complete _, rfl, hrun.append (.cons (.keep outer inner d keep) ?_)⟩
    exact .cons (.rank outer inner d keep highest) hcount

/-! ## Parts of the grammar -/

namespace Part

/-- What waits where a part of the grammar may begin: nothing for an expression, and no factor for a
term. -/
def Opens : Part → Waiting → Prop
  | .expression, inner => inner = .nothing
  | .term, inner => inner.product = none
  | .factor, _ => True

/-- A part of the grammar was read as `e`, with the factor `f` at its end, and since it began, what
waits has changed from `inner` to `last`. A factor leaves alone what waits around it, and a term
leaves alone the left operand of a sum. -/
def Closes : Part → (inner last : Waiting) → (f e : Expr) → Prop
  | .expression, _, last, f, e => last.close f = e
  | .term, inner, last, f, e => last.sum = inner.sum ∧ Waiting.attach last.product f = e
  | .factor, inner, last, f, e => last = inner ∧ f = e

variable {part : Part} {inner last last' : Waiting} {f f' e left right : Expr} {op : Operator}

/-- The first operand begins where the part does. -/
lemma Opens.operand (h : part.Opens inner) : part.operand.Opens inner := by
  cases part with
  | expression =>
    obtain rfl : inner = .nothing := h
    rfl
  | term => trivial
  | factor => trivial

/-- A further operand begins behind an operator. -/
lemma opens_follow (hop : op.precedence = part.precedence) (w : Waiting) (f : Expr) :
    part.operand.Opens (w.follow f op) := by
  cases part with
  | expression =>
    rw [Waiting.follow_sum hop]
    rfl
  | term => trivial
  | factor => trivial

/-- An operand alone is a chain. -/
lemma Closes.of_operand (h : part.operand.Closes inner last f e) (ho : part.Opens inner) :
    part.Closes inner last f e := by
  cases part with
  | expression =>
    obtain ⟨hsum, hproduct⟩ := h
    obtain rfl : inner = .nothing := ho
    rw [Closes, Waiting.close, hsum, hproduct]
    rfl
  | term =>
    obtain ⟨rfl, rfl⟩ := h
    have hnone : last.product = none := ho
    rw [Closes, hnone]
    exact ⟨rfl, rfl⟩
  | factor => exact h

/-- A chain goes on with an operator and an operand. -/
lemma Closes.grow (hl : part.Closes inner last f left) (hop : op.precedence = part.precedence)
    (hr : part.operand.Closes (last.follow f op) last' f' right) :
    part.Closes inner last' f' (.binary left op right) := by
  cases part with
  | expression =>
    obtain ⟨hsum, rfl⟩ := hr
    obtain rfl : last.close f = left := hl
    rw [Closes, Waiting.close, hsum, Waiting.follow_sum hop]
    rfl
  | term =>
    obtain ⟨rfl, rfl⟩ := hr
    obtain ⟨hsum, rfl⟩ := hl
    rw [Waiting.follow_product hop]
    exact ⟨hsum, rfl⟩
  | factor => exact absurd rfl (ne_factor_of_precedence hop)

end Part

/-- How a part of the grammar is read: from where it may begin to where it may end. -/
def Reads (part : Part) (ts : List Token) (e : Expr) : Prop :=
  ∀ outer inner, part.Opens inner → ∃ (last : Waiting) (phase : Phase) (f : Expr),
    phase.factor? = some f ∧ part.Closes inner last f e ∧
      Runs ⟨outer, inner, .operand⟩ ts ⟨outer, last, phase⟩

/-- An operand alone is read as a chain. -/
lemma Reads.of_operand {part : Part} {e : Expr} (h : Reads part.operand ts e) :
    Reads part ts e := by
  intro outer inner ho
  obtain ⟨last, phase, f, hf, hclose, hrun⟩ := h outer inner ho.operand
  exact ⟨last, phase, f, hf, hclose.of_operand ho, hrun⟩

/-- Reading of a chain goes on with an operator and an operand. -/
lemma Reads.grow {part : Part} {left right : Expr} {op : Operator}
    (hop : op.precedence = part.precedence) (hl : Reads part ts left)
    (hr : Reads part.operand us right) :
    Reads part (ts ++ .mark (.ofOperator op) :: us) (.binary left op right) := by
  intro outer inner ho
  obtain ⟨last, phase, f, hf, hclose, hrun⟩ := hl outer inner ho
  obtain ⟨last', phase', f', hf', hclose', hrun'⟩ := hr outer _ (Part.opens_follow hop last f)
  have hstep := Step.operator outer last hf op
  exact ⟨last', phase', f', hf', hclose.grow hop hclose', hrun.append (.cons hstep hrun')⟩

/-- An expression is read in parentheses too. -/
lemma Reads.parens {e : Expr} (h : Reads .expression ts e) :
    Reads .factor (.mark .leftParen :: (ts ++ [.mark .rightParen])) e := by
  intro outer inner _
  obtain ⟨last, phase, f, hf, hclosed, hrun⟩ := h (inner :: outer) .nothing rfl
  have hclose := (Step.rightParen outer inner last hf).runs
  refine ⟨inner, .complete (last.close f), _, rfl, ⟨rfl, hclosed⟩, ?_⟩
  exact .cons (.leftParen outer inner) (hrun.append hclose)

/-- What derives from the grammar is read. -/
theorem Derives.reads {part : Part} {e : Expr} (h : Derives part ts e) : Reads part ts e := by
  induction h using Derives.chain_induction with
  | of_operand part ts e hp h ih => exact ih.of_operand
  | grow part ts us left op right hl hop hr ihl ihr => exact ihl.grow hop ihr
  | parens ts e h ih => exact ih.parens
  | throw ts d h =>
    intro outer inner _
    obtain ⟨phase, hf, hrun⟩ := h.runs outer inner
    exact ⟨inner, phase, .dice d, hf, ⟨rfl, rfl⟩, hrun⟩
  | integer n fits =>
    intro outer inner _
    exact ⟨inner, .integer n fits, _, rfl, ⟨rfl, rfl⟩, (Step.integer outer inner fits).runs⟩

end Grammar

end DiceNotation
