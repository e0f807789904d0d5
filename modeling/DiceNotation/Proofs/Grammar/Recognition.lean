import DiceNotation.Expr.Text
import DiceNotation.Proofs.Grammar.Complete
import Mathlib.Tactic.Common
/-!
# Reading recognizes the grammar

Reading succeeds on exactly the sequences of tokens that derive from the grammar as an expression,
and gives the tree of the derivation (`Expr.ofTokens_eq_ok_iff`).

Derivations are read (`Grammar.Derives.reads`). Conversely every partly read expression stands for
the tokens that led to it (`Reading.Stands`): what waits for a right operand is derived already, and
so is the factor at hand as far as it has been read. A step adds its token on both sides
(`Reading.Stands.step`), so that at the end the whole is derived.

As reading has one result at most, no sequence of tokens has two trees.
-/

namespace DiceNotation

open Grammar

/-! ## What a reading stands for -/

/-- The tokens of the factor at hand, as far as it has been read. -/
inductive Phase.Stands : Phase → List Token → Prop
  | operand : Stands .operand []
  | integer {n : Nat} (fits : n < 0x8000000000000000) : Stands (.integer n fits) [.integer n]
  | sides {ts : List Token} {count : UInt32} (h : Count ts count) :
      Stands (.sides count) (ts ++ [.mark .d])
  | dice {ts : List Token} {d : Dice} (h : Unselected ts d) : Stands (.dice d) ts
  | selector {ts : List Token} {d : Dice} (h : Unselected ts d) (keep : Bool) :
      Stands (.selector d keep) (ts ++ [.mark (keepMark keep)])
  | selected {ts : List Token} {d : Dice} (h : Unselected ts d) (keep highest : Bool) :
      Stands (.selected { d with selection := .of keep highest })
        (ts ++ [.mark (keepMark keep), .mark (rankMark highest)])
  | complete {ts : List Token} {e : Expr} (h : Derives .factor ts e) : Stands (.complete e) ts

/-- The tokens of what waits for a right operand in a part of the grammar, with the operator. -/
inductive Pends (part : Part) : Option (Expr × Operator) → List Token → Prop
  | none : Pends part none []
  | some {ts : List Token} {left : Expr} {op : Operator} (h : Derives part ts left)
      (hop : op.precedence = part.precedence) :
      Pends part (some (left, op)) (ts ++ [.mark (.ofOperator op)])

/-- The tokens of what waits inside one pair of parentheses. -/
inductive Waiting.Stands : Waiting → List Token → Prop
  | both {sum product : Option (Expr × Operator)} {ts us : List Token}
      (hs : Pends .expression sum ts) (hp : Pends .term product us) :
      Stands ⟨sum, product⟩ (ts ++ us)

/-- The tokens of what waits in open parentheses, each with the opening one. -/
inductive Outside : List Waiting → List Token → Prop
  | nil : Outside [] []
  | cons {w : Waiting} {outer : List Waiting} {ts us : List Token} (ho : Outside outer ts)
      (hw : w.Stands us) : Outside (w :: outer) (ts ++ us ++ [.mark .leftParen])

/-- The tokens that a partly read expression stands for. -/
inductive Reading.Stands : Reading → List Token → Prop
  | all {outer : List Waiting} {inner : Waiting} {phase : Phase} {ts us vs : List Token}
      (ho : Outside outer ts) (hi : inner.Stands us) (hp : phase.Stands vs) :
      Stands ⟨outer, inner, phase⟩ (ts ++ us ++ vs)

/-! ## From readings to derivations -/

/-- A factor that may end is derived. -/
lemma Phase.Stands.derives {phase : Phase} {ts : List Token} {f : Expr} (h : phase.Stands ts)
    (hf : phase.factor? = some f) : Derives .factor ts f := by
  cases h with
  | operand => cases hf
  | integer fits =>
    cases hf
    exact .integer fits
  | sides h => cases hf
  | dice h =>
    cases hf
    have hthrow := Throw.select h .absent
    rw [List.append_nil, ← h.eq_all] at hthrow
    exact .throw hthrow
  | @selected ts d h keep highest =>
    cases hf
    have hthrow := Throw.select h (.bare keep highest)
    have hone : d.selected = 1 := by rw [h.eq_all]
    rw [← hone] at hthrow
    exact .throw hthrow
  | selector h keep => cases hf
  | complete h =>
    cases hf
    exact h

/-- What waits is completed by its right operand. -/
lemma Pends.derives {part : Part} {waiting : Option (Expr × Operator)} {ts us : List Token}
    {e : Expr} (hp : part ≠ .factor) (h : Pends part waiting ts) (he : Derives part.operand us e) :
    Derives part (ts ++ us) (Waiting.attach waiting e) := by
  cases h with
  | none => exact .of_operand hp he
  | some h hop =>
    rw [List.append_assoc]
    exact h.grow hop he

/-- What waits in parentheses may end with a factor. -/
lemma Waiting.Stands.derives {w : Waiting} {ts us : List Token} {f : Expr} (h : w.Stands ts)
    (hf : Derives .factor us f) : Derives .expression (ts ++ us) (w.close f) := by
  cases h with
  | both hs hp =>
    rw [List.append_assoc]
    exact hs.derives nofun (hp.derives nofun hf)

/-- What waits in parentheses goes on with a factor and an operator. -/
lemma Waiting.Stands.follow {w : Waiting} {ts us : List Token} {f : Expr} (h : w.Stands ts)
    (hf : Derives .factor us f) (op : Operator) :
    (w.follow f op).Stands (ts ++ us ++ [.mark (.ofOperator op)]) := by
  have hop : op.precedence = Part.expression.precedence ∨ op.precedence = Part.term.precedence := by
    cases op <;> decide
  rcases hop with hop | hop
  · rw [follow_sum hop, ← List.append_nil (ts ++ us ++ _)]
    exact .both (.some (h.derives hf) hop) .none
  · cases h with
    | both hs hp =>
      rw [follow_product hop, List.append_assoc, List.append_assoc, ← List.append_assoc _ us]
      exact .both hs (.some (hp.derives nofun hf) hop)

/-- Nothing stands for no tokens. -/
lemma Waiting.stands_nothing : nothing.Stands [] :=
  .both .none .none

/-- The next token belongs to what is read after it. -/
lemma Reading.Stands.step {r next : Reading} {ts : List Token} {t : Token} (h : r.Stands ts)
    (hs : Step r t next) : next.Stands (ts ++ [t]) := by
  cases h with
  | @all outer inner phase ts us vs ho hi hp =>
    rw [List.append_assoc]
    cases hs with
    | leftParen =>
      cases hp
      have hstands := Stands.all (.cons ho hi) Waiting.stands_nothing .operand
      simpa using hstands
    | integer _ _ fits =>
      cases hp
      exact .all ho hi (.integer fits)
    | single =>
      cases hp
      exact .all ho hi (.sides .absent)
    | counted _ _ fits pos fits' =>
      cases hp
      exact .all ho hi (.sides (.written pos fits'))
    | faces _ _ count hfaces =>
      cases hp with
      | sides hcount =>
        have hdice := Unselected.throw hcount hfaces false
        simpa [bang, Dice.plain] using Stands.all ho hi (.dice hdice)
    | bang _ _ hexplodes =>
      cases hp with
      | dice hdice =>
        obtain ⟨hcount, hfaces, explodes⟩ := hdice
        cases hexplodes
        have hdice := Unselected.throw hcount hfaces true
        simpa [bang] using Stands.all ho hi (.dice hdice)
    | keep _ _ d keep =>
      cases hp with
      | dice hdice => exact .all ho hi (.selector hdice keep)
    | rank _ _ d keep highest =>
      cases hp with
      | selector hdice =>
        have hselected := Phase.Stands.selected hdice keep highest
        simpa using Stands.all ho hi hselected
    | selected _ _ d fits =>
      cases hp with
      | selected hdice keep highest =>
        have hthrow := Throw.select hdice (.counted keep highest fits)
        simpa using Stands.all ho hi (.complete (.throw hthrow))
    | operator _ _ hf op =>
      have hfollow := hi.follow (hp.derives hf) op
      simpa using Stands.all ho hfollow .operand
    | rightParen rest waiting _ hf =>
      cases ho with
      | cons ho hw =>
        have hinside := hi.derives (hp.derives hf)
        simpa using Stands.all ho hw (.complete (.parens hinside))

/-- The tokens of a run belong to what has been read after it. -/
lemma Reading.Stands.runs {r last : Reading} {ts us : List Token} (h : r.Stands ts)
    (hr : Runs r us last) : last.Stands (ts ++ us) := by
  induction us generalizing r ts with
  | nil =>
    rw [List.append_nil, ← runs_nil.1 hr]
    exact h
  | cons t us ih =>
    obtain ⟨middle, hstep, hrest⟩ := runs_cons.1 hr
    rw [List.append_cons]
    exact ih (h.step hstep) hrest

/-! ## Texts -/

namespace Expr

/-- A sequence of tokens is read as the expression as which it derives from the grammar. -/
lemma ofTokens_eq_ok_iff {ts : List Token} {e : Expr} :
    ofTokens ts = .ok e ↔ Derives .expression ts e := by
  rw [ofTokens_eq_ok]
  constructor
  · rintro ⟨last, hrun, houter, f, hf, rfl⟩
    have hstart : Reading.start.Stands [] := .all .nil Waiting.stands_nothing .operand
    have hlast := hstart.runs hrun
    rw [List.nil_append] at hlast
    cases hlast with
    | all ho hi hp =>
      cases houter
      cases ho
      exact hi.derives (hp.derives hf)
  · intro h
    obtain ⟨inner, phase, f, hf, hclose, hrun⟩ := h.reads [] .nothing rfl
    exact ⟨_, hrun, rfl, f, hf, hclose⟩

/-- A text is the expression that its tokens are. -/
lemma ofText_eq_ok {s : String} {e : Expr} :
    ofText s = .ok e ↔ ofTokens ((Lexeme.ofText s).map Lexeme.token) = .ok e := by
  simp only [ofText]
  split
  · rename_i h
    rw [h]
    simp
  · rename_i h
    rw [h]
    simp

/-- A text is read exactly where its tokens derive from the grammar, as the tree of the derivation,
and there are no two such trees. -/
theorem ofText_eq_ok_iff_derives (s : String) :
    (∀ e, ofText s = .ok e ↔ Derives .expression ((Lexeme.ofText s).map Lexeme.token) e) ∧
      ∀ e e', Derives .expression ((Lexeme.ofText s).map Lexeme.token) e →
        Derives .expression ((Lexeme.ofText s).map Lexeme.token) e' → e = e' := by
  have hreads : ∀ e, ofText s = .ok e ↔
      Derives .expression ((Lexeme.ofText s).map Lexeme.token) e := by
    intro e
    rw [ofText_eq_ok, ofTokens_eq_ok_iff]
  refine ⟨hreads, ?_⟩
  intro e e' h h'
  have heq : (Except.ok e : Except ParseError Expr) = .ok e' :=
    ((hreads e).2 h).symm.trans ((hreads e').2 h')
  exact Except.ok.inj heq

/-- Of the integers and the letters `d` of this text each has only one place in a tree. -/
theorem ofText_eq_ok_iff_derives_of_drop :
    ∃ e : Expr, e = .binary (.number (.ofNat 4 (by decide))) .sub
        (.dice ⟨4, .poly 6 (by decide), true, .dropHighest, 1⟩) ∧
      ofText "4-4d6!dh" = .ok e ∧
      ∀ e', Derives .expression ((Lexeme.ofText "4-4d6!dh").map Lexeme.token) e' → e' = e := by
  have hread : (match ofText "4-4d6!dh" with
      | .ok e => e = .binary (.number (.ofNat 4 (by decide))) .sub
          (.dice ⟨4, .poly 6 (by decide), true, .dropHighest, 1⟩)
      | _ => false) = true := by
    decide +kernel
  split at hread
  · rename_i e he
    refine ⟨e, of_decide_eq_true hread, he, ?_⟩
    intro e' h'
    have hderives := ((ofText_eq_ok_iff_derives "4-4d6!dh").1 e).1 he
    exact (ofText_eq_ok_iff_derives "4-4d6!dh").2 e' e h' hderives
  · cases hread

end Expr

end DiceNotation
