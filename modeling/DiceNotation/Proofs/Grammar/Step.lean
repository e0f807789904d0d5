import DiceNotation.Expr.Reading
import DiceNotation.Proofs.Answers
import DiceNotation.Proofs.Grammar.Derivation
import Mathlib.Tactic.Common
/-!
# The steps of a reading

`Step r t next` lists all that one token can do to a partly read expression: it goes on with the
factor at hand, or follows a factor that may end, as an operator or as a closing parenthesis. That
these are all of the steps is `step_eq_ok`; `Runs r ts next` strings them together, and
`ofTokens_eq_ok` says what it takes for a whole sequence of tokens to be read.
-/

namespace DiceNotation

namespace Reading

open Grammar

/-! ## Single steps -/

/-- What one more token can do to a partly read expression. -/
inductive Step : Reading → Token → Reading → Prop
  | leftParen (outer : List Waiting) (inner : Waiting) :
      Step ⟨outer, inner, .operand⟩ (.mark .leftParen) ⟨inner :: outer, .nothing, .operand⟩
  | integer (outer : List Waiting) (inner : Waiting) {n : Nat} (fits : n < 0x8000000000000000) :
      Step ⟨outer, inner, .operand⟩ (.integer n) ⟨outer, inner, .integer n fits⟩
  | single (outer : List Waiting) (inner : Waiting) :
      Step ⟨outer, inner, .operand⟩ (.mark .d) ⟨outer, inner, .sides 1⟩
  | counted (outer : List Waiting) (inner : Waiting) {n : Nat} (fits : n < 0x8000000000000000)
      (pos : 0 < n) (fits' : n < UInt32.size) :
      Step ⟨outer, inner, .integer n fits⟩ (.mark .d) ⟨outer, inner, .sides (.ofNatLT n fits')⟩
  | faces (outer : List Waiting) (inner : Waiting) (count : UInt32) {t : Token} {sides : Sides}
      (h : Faces t sides) :
      Step ⟨outer, inner, .sides count⟩ t ⟨outer, inner, .dice (.plain count sides)⟩
  | bang (outer : List Waiting) (inner : Waiting) {d : Dice} (h : d.explodes = false) :
      Step ⟨outer, inner, .dice d⟩ (.mark .bang)
        ⟨outer, inner, .dice { d with explodes := true }⟩
  | keep (outer : List Waiting) (inner : Waiting) (d : Dice) (keep : Bool) :
      Step ⟨outer, inner, .dice d⟩ (.mark (keepMark keep)) ⟨outer, inner, .selector d keep⟩
  | rank (outer : List Waiting) (inner : Waiting) (d : Dice) (keep highest : Bool) :
      Step ⟨outer, inner, .selector d keep⟩ (.mark (rankMark highest))
        ⟨outer, inner, .selected { d with selection := .of keep highest }⟩
  | selected (outer : List Waiting) (inner : Waiting) (d : Dice) {n : Nat}
      (fits : n < UInt32.size) :
      Step ⟨outer, inner, .selected d⟩ (.integer n)
        ⟨outer, inner, .complete (.dice { d with selected := .ofNatLT n fits })⟩
  | operator (outer : List Waiting) (inner : Waiting) {phase : Phase} {f : Expr}
      (h : phase.factor? = some f) (op : Operator) :
      Step ⟨outer, inner, phase⟩ (.mark (.ofOperator op)) ⟨outer, inner.follow f op, .operand⟩
  | rightParen (outer : List Waiting) (waiting inner : Waiting) {phase : Phase} {f : Expr}
      (h : phase.factor? = some f) :
      Step ⟨waiting :: outer, inner, phase⟩ (.mark .rightParen)
        ⟨outer, waiting, .complete (inner.close f)⟩

/-- An integer in a throw fits a word. -/
lemma word?_eq_ok {n : Nat} {w : UInt32} :
    word? n = .ok w ↔ ∃ fits : n < UInt32.size, .ofNatLT n fits = w := by
  unfold word?
  split
  · rename_i fits
    simp [fits]
  · rename_i hlarge
    simp [hlarge]

/-- A token after a factor is an operator or a closing parenthesis. -/
lemma step_of_afterFactor {outer : List Waiting} {inner : Waiting} {phase : Phase} {f : Expr}
    (hf : phase.factor? = some f) {next : Reading} {t : Token}
    (h : (⟨outer, inner, phase⟩ : Reading).afterFactor f t = .ok next) :
    Step ⟨outer, inner, phase⟩ t next := by
  unfold afterFactor at h
  split at h
  · rename_i m
    split at h
    · rename_i _ op hop
      cases h
      rw [Mark.operator?_eq_some.1 hop]
      exact .operator outer inner hf op
    · rename_i waiting rest houter _
      cases houter
      cases h
      exact .rightParen rest waiting inner hf
    · cases h
  · cases h

/-- Where no rule of the phase goes on, a factor has to be followed by the token. -/
lemma step_of_otherwise {r next : Reading} {t : Token} (h : r.otherwise t = .ok next) :
    Step r t next := by
  unfold otherwise at h
  split at h
  · rename_i f hf
    exact step_of_afterFactor hf h
  · cases h

/-- A factor that may end is left where the token goes on with no factor. -/
lemma step_eq_otherwise {r : Reading} {f : Expr} (h : r.phase.factor? = some f) {m : Mark}
    (hm : m = .rightParen ∨ ∃ op, m = .ofOperator op) :
    r.step (.mark m) = r.otherwise (.mark m) := by
  obtain ⟨outer, inner, phase⟩ := r
  have hne : m ≠ .d ∧ m ≠ .bang ∧ m ≠ .keep := by
    rcases hm with rfl | ⟨op, rfl⟩
    · decide
    · cases op <;> decide
  cases phase with
  | operand => cases h
  | sides count => cases h
  | selector d keep => cases h
  | integer n fits => cases m <;> simp_all [step]
  | dice d => cases m <;> simp_all [step]
  | selected d => rfl
  | complete e => rfl

/-- Whatever reading does with a token is one of the steps. -/
lemma step_of_eq_ok {r next : Reading} {t : Token} (h : r.step t = .ok next) : Step r t next := by
  obtain ⟨outer, inner, phase⟩ := r
  unfold step at h
  split at h
  -- A factor has to come.
  · rename_i hphase
    cases hphase
    cases h
    exact .leftParen outer inner
  · rename_i hphase
    cases hphase
    cases h
    exact .single outer inner
  · rename_i n hphase
    cases hphase
    split at h
    · rename_i fits
      cases h
      exact .integer outer inner fits
    · cases h
  -- An integer may be a count.
  · rename_i n fits hphase
    cases hphase
    split at h
    · rename_i fits'
      split at h
      · cases h
      · rename_i hzero
        cases h
        exact .counted outer inner fits (Nat.pos_of_ne_zero hzero) fits'
    · exact step_of_otherwise h
  -- The sides of a throw have to come.
  · rename_i count hphase
    cases hphase
    cases h
    exact .faces outer inner count .fate
  · rename_i count n hphase
    cases hphase
    obtain ⟨_, hword, h⟩ := bind_eq_ok.1 h
    obtain ⟨fits, rfl⟩ := word?_eq_ok.1 hword
    split at h
    · rename_i pos
      cases h
      exact .faces outer inner count (.poly fits pos)
    · cases h
  -- Explosions and a selection may come.
  · rename_i d hphase
    cases hphase
    split at h
    · exact step_of_otherwise h
    · rename_i hexplodes
      cases h
      exact .bang outer inner (by simpa using hexplodes)
  · rename_i d hphase
    cases hphase
    cases h
    exact .keep outer inner d true
  · rename_i d hphase
    cases hphase
    cases h
    exact .keep outer inner d false
  -- A selection is under way.
  · rename_i d keep hphase
    cases hphase
    cases h
    exact .rank outer inner d keep true
  · rename_i d keep hphase
    cases hphase
    cases h
    exact .rank outer inner d keep false
  · rename_i d n hphase
    cases hphase
    obtain ⟨_, hword, h⟩ := bind_eq_ok.1 h
    obtain ⟨fits, rfl⟩ := word?_eq_ok.1 hword
    cases h
    exact .selected outer inner d fits
  -- The factor is at its end.
  · exact step_of_otherwise h

/-- Reading does each of the steps. -/
lemma eq_ok_of_step {r next : Reading} {t : Token} (h : Step r t next) : r.step t = .ok next := by
  cases h with
  | leftParen outer inner => rfl
  | integer outer inner fits => exact dif_pos fits
  | single outer inner => rfl
  | counted outer inner fits pos fits' =>
    exact (dif_pos fits').trans (if_neg (Nat.ne_of_gt pos))
  | faces outer inner count h =>
    cases h with
    | fate => rfl
    | poly fits pos => exact bind_eq_ok.2 ⟨_, word?_eq_ok.2 ⟨fits, rfl⟩, dif_pos pos⟩
  | bang outer inner h =>
    simp only [step, h]
    rfl
  | keep outer inner d keep => cases keep <;> rfl
  | rank outer inner d keep highest => cases highest <;> rfl
  | selected outer inner d fits => exact bind_eq_ok.2 ⟨_, word?_eq_ok.2 ⟨fits, rfl⟩, rfl⟩
  | operator outer inner h op =>
    rw [step_eq_otherwise h (.inr ⟨op, rfl⟩)]
    simp only [otherwise, h]
    cases op <;> rfl
  | rightParen outer waiting inner h =>
    rw [step_eq_otherwise h (.inl rfl)]
    simp only [otherwise, h]
    rfl

/-- The steps are those listed. -/
theorem step_eq_ok {r next : Reading} {t : Token} : r.step t = .ok next ↔ Step r t next :=
  ⟨step_of_eq_ok, eq_ok_of_step⟩

/-! ## Runs -/

/-- Tokens lead from one partly read expression to another. -/
def Runs (r : Reading) (ts : List Token) (next : Reading) : Prop := ts.foldlM step r = .ok next

@[simp] lemma runs_nil {r next : Reading} : Runs r [] next ↔ r = next := by
  simp [Runs, pure, Except.pure]

@[simp] lemma runs_cons {r next : Reading} {t : Token} {ts : List Token} :
    Runs r (t :: ts) next ↔ ∃ middle, Step r t middle ∧ Runs middle ts next := by
  simp only [Runs, List.foldlM_cons, bind_eq_ok, step_eq_ok]

/-- A step goes before a run. -/
lemma Runs.cons {r middle next : Reading} {t : Token} {ts : List Token} (hs : Step r t middle)
    (h : Runs middle ts next) : Runs r (t :: ts) next :=
  runs_cons.2 ⟨middle, hs, h⟩

/-- A step is a run. -/
lemma Step.runs {r next : Reading} {t : Token} (h : Step r t next) : Runs r [t] next :=
  .cons h (runs_nil.2 rfl)

/-- A run leads through the end of its first part. -/
lemma runs_append {r next : Reading} {ts us : List Token} :
    Runs r (ts ++ us) next ↔ ∃ middle, Runs r ts middle ∧ Runs middle us next := by
  induction ts generalizing r with
  | nil => simp
  | cons t ts ih =>
    rw [List.cons_append, runs_cons]
    constructor
    · rintro ⟨first, hstep, hrest⟩
      obtain ⟨middle, hts, hus⟩ := ih.1 hrest
      exact ⟨middle, .cons hstep hts, hus⟩
    · rintro ⟨middle, hts, hus⟩
      obtain ⟨first, hstep, hrest⟩ := runs_cons.1 hts
      exact ⟨first, hstep, ih.2 ⟨middle, hrest, hus⟩⟩

/-- Runs follow one another. -/
lemma Runs.append {r middle next : Reading} {ts us : List Token} (h : Runs r ts middle)
    (h' : Runs middle us next) : Runs r (ts ++ us) next :=
  runs_append.2 ⟨middle, h, h'⟩

/-- The last step of a run. -/
lemma runs_concat {r next : Reading} {ts : List Token} {t : Token} :
    Runs r (ts ++ [t]) next ↔ ∃ middle, Runs r ts middle ∧ Step middle t next := by
  simp [runs_append]

/-- Tokens lead to one partly read expression only. -/
lemma Runs.unique {r next next' : Reading} {ts : List Token} (h : Runs r ts next)
    (h' : Runs r ts next') : next = next' :=
  Except.ok.inj (h.symm.trans h')

/-- A run through tokens goes the way of every other run through the first of them. -/
lemma Runs.drop {r middle last : Reading} {ts us : List Token} (h : Runs r ts middle)
    (hall : Runs r (ts ++ us) last) : Runs middle us last := by
  obtain ⟨other, hother, hrest⟩ := runs_append.1 hall
  rwa [h.unique hother]

/-- The expression `e` has been read, in parentheses `outer`, and may end. -/
def Ends (r : Reading) (outer : List Waiting) (e : Expr) : Prop :=
  r.outer = outer ∧ ∃ f, r.phase.factor? = some f ∧ r.inner.close f = e

/-- Reading is finished where an expression may end outside of all parentheses. -/
lemma finish_eq_ok {r : Reading} {e : Expr} : r.finish = .ok e ↔ r.Ends [] e := by
  obtain ⟨outer, inner, phase⟩ := r
  constructor
  · intro h
    unfold finish at h
    split at h
    · rename_i f hf houter
      cases h
      exact ⟨houter, f, hf, rfl⟩
    · cases h
  · rintro ⟨rfl, f, hf, rfl⟩
    simp only [finish, hf]

/-- A run through all of the tokens reads the expression that may end after them. -/
lemma run_eq_ok {r : Reading} {passed : Nat} {ts : List Token} {e : Expr} :
    r.run passed ts = .ok e ↔ ∃ last, Runs r ts last ∧ last.Ends [] e := by
  induction ts generalizing r passed with
  | nil =>
    rw [run_nil]
    simp only [runs_nil, exists_eq_left', ← finish_eq_ok]
    cases r.finish <;> simp [Except.mapError]
  | cons t ts ih =>
    cases hstep : r.step t with
    | error fault =>
      rw [run_of_error hstep]
      simp [← step_eq_ok, hstep]
    | ok next =>
      rw [run_of_ok hstep, ih]
      simp [← step_eq_ok, hstep]

end Reading

namespace Expr

/-- Tokens are the expression that may end after a run through them. -/
lemma ofTokens_eq_ok {ts : List Token} {e : Expr} :
    ofTokens ts = .ok e ↔ ∃ last, Reading.start.Runs ts last ∧ last.Ends [] e :=
  Reading.run_eq_ok

end Expr

end DiceNotation
