import DiceNotation.Proofs.Grammar.Step
import Mathlib.Tactic.Common
/-!
# Where reading stops

Every partly read expression can be completed (`Reading.exists_completion`): what is open in it is
closed by a few tokens that depend on its state only. So reading gets through the tokens with which
some expression begins, and through no others (`Grammar.viable_iff_runs`).

Where reading fails, it has got through the tokens before the place of the fault, and either the
token at that place is refused or tokens are missing at the end (`Reading.exists_fails`). The fault
thus is at the first token that cannot stand where it does.
-/

namespace DiceNotation

open Grammar

/-! ## Completions -/

/-- Tokens that lead from a phase to where a factor may end. -/
def Phase.completion : Phase → List Token
  | .operand => [.integer 0]
  | .sides _ => [.mark .fate]
  | .selector _ _ => [.mark .highest]
  | .integer _ _ | .dice _ | .selected _ | .complete _ => []

namespace Reading

/-- The factor at hand is completed. -/
lemma exists_runs_completion (outer : List Waiting) (inner : Waiting) (phase : Phase) :
    ∃ (next : Phase) (f : Expr), next.factor? = some f ∧
      Runs ⟨outer, inner, phase⟩ phase.completion ⟨outer, inner, next⟩ := by
  cases phase with
  | operand =>
    exact ⟨.integer 0 (by decide), _, rfl, (Step.integer outer inner (by decide)).runs⟩
  | sides count =>
    exact ⟨.dice (.plain count .fate), _, rfl, (Step.faces outer inner count .fate).runs⟩
  | selector d keep =>
    exact ⟨.selected { d with selection := .of keep true }, _, rfl,
      (Step.rank outer inner d keep true).runs⟩
  | integer n fits => exact ⟨.integer n fits, _, rfl, runs_nil.2 rfl⟩
  | dice d => exact ⟨.dice d, _, rfl, runs_nil.2 rfl⟩
  | selected d => exact ⟨.selected d, _, rfl, runs_nil.2 rfl⟩
  | complete e => exact ⟨.complete e, _, rfl, runs_nil.2 rfl⟩

/-- The open parentheses around a factor are closed. -/
lemma exists_runs_close (outer : List Waiting) (inner : Waiting) {phase : Phase} {f : Expr}
    (hf : phase.factor? = some f) :
    ∃ (last : Reading) (e : Expr),
      Runs ⟨outer, inner, phase⟩ (List.replicate outer.length (.mark .rightParen)) last ∧
        last.Ends [] e := by
  induction outer generalizing inner phase f with
  | nil => exact ⟨_, _, runs_nil.2 rfl, rfl, f, hf, rfl⟩
  | cons waiting outer ih =>
    have hclose := Step.rightParen outer waiting inner hf
    have hfactor : (Phase.complete (inner.close f)).factor? = some (inner.close f) := rfl
    obtain ⟨last, e, hrun, hends⟩ := ih waiting hfactor
    exact ⟨last, e, .cons hclose hrun, hends⟩

/-- Tokens that complete a partly read expression. -/
def completion (r : Reading) : List Token :=
  r.phase.completion ++ List.replicate r.outer.length (.mark .rightParen)

/-- Whatever has been read can be completed. -/
lemma exists_completion (r : Reading) :
    ∃ (last : Reading) (e : Expr), Runs r r.completion last ∧ last.Ends [] e := by
  obtain ⟨outer, inner, phase⟩ := r
  obtain ⟨next, f, hf, hphase⟩ := exists_runs_completion outer inner phase
  obtain ⟨last, e, hclose, hends⟩ := exists_runs_close outer inner hf
  exact ⟨last, e, hphase.append hclose, hends⟩

end Reading

/-! ## Viable tokens -/

namespace Grammar

/-- Some sequence of tokens that begins with these is an expression. -/
def Viable (ts : List Token) : Prop := ∃ us e, Expr.ofTokens (ts ++ us) = .ok e

/-- Tokens with which an expression begins are those that reading gets through. -/
theorem viable_iff_runs {ts : List Token} : Viable ts ↔ ∃ r, Reading.start.Runs ts r := by
  constructor
  · rintro ⟨us, e, h⟩
    obtain ⟨last, hrun, -⟩ := Expr.ofTokens_eq_ok.1 h
    obtain ⟨middle, hfirst, -⟩ := Reading.runs_append.1 hrun
    exact ⟨middle, hfirst⟩
  · rintro ⟨r, hrun⟩
    obtain ⟨last, e, hrest, hends⟩ := r.exists_completion
    exact ⟨r.completion, e, Expr.ofTokens_eq_ok.2 ⟨last, hrun.append hrest, hends⟩⟩

end Grammar

namespace Reading

/-- No step takes an unknown character. -/
lemma Step.ne_unknown {r next : Reading} {t : Token} (h : Step r t next) : t ≠ .unknown := by
  rintro rfl
  cases h with
  | faces _ _ _ hfaces => cases hfaces

/-- Reading gets through known tokens only. -/
lemma Runs.unknown_notMem {r next : Reading} {ts : List Token} (h : Runs r ts next) :
    Token.unknown ∉ ts := by
  induction ts generalizing r with
  | nil => simp
  | cons t ts ih =>
    obtain ⟨middle, hstep, hrest⟩ := runs_cons.1 h
    rw [List.mem_cons, not_or]
    exact ⟨hstep.ne_unknown.symm, ih hrest⟩

end Reading

/-! ## Faults -/

namespace Reading

/-- Reading cannot go on with the tokens that are left: the first of them is refused, or there are
none and what has been read is no expression. -/
inductive Fails (r : Reading) : List Token → Fault → Prop
  | token {t : Token} {rest : List Token} {fault : Fault} (h : r.step t = .error fault) :
      Fails r (t :: rest) fault
  | atEnd {fault : Fault} (h : r.finish = .error fault) : Fails r [] fault

/-- Reading that fails has got through the tokens before the fault. -/
lemma exists_fails {r : Reading} {passed i : Nat} {ts : List Token} {fault : Fault}
    (h : r.run passed ts = .error (i, fault)) :
    ∃ before after middle, ts = before ++ after ∧ i = passed + before.length ∧
      Runs r before middle ∧ middle.Fails after fault := by
  induction ts generalizing r passed with
  | nil =>
    rw [run_nil] at h
    cases hfinish : r.finish with
    | ok e =>
      rw [hfinish] at h
      cases h
    | error found =>
      rw [hfinish] at h
      cases h
      exact ⟨[], [], r, rfl, rfl, runs_nil.2 rfl, .atEnd hfinish⟩
  | cons t ts ih =>
    cases hstep : r.step t with
    | error found =>
      rw [run_of_error hstep] at h
      cases h
      exact ⟨[], t :: ts, r, rfl, rfl, runs_nil.2 rfl, .token hstep⟩
    | ok next =>
      rw [run_of_ok hstep] at h
      obtain ⟨before, after, middle, rfl, hi, hrun, hfails⟩ := ih h
      refine ⟨t :: before, after, middle, rfl, ?_, .cons (step_eq_ok.1 hstep) hrun, hfails⟩
      rw [hi, List.length_cons]
      omega

/-- No reading gets through a token that is refused. -/
lemma not_viable_of_step_eq_error {r : Reading} {before : List Token} {t : Token} {fault : Fault}
    (hrun : start.Runs before r) (h : r.step t = .error fault) : ¬Viable (before ++ [t]) := by
  intro hviable
  obtain ⟨last, hall⟩ := viable_iff_runs.1 hviable
  obtain ⟨next, hstep, -⟩ := runs_cons.1 (hrun.drop hall)
  rw [step_eq_ok.2 hstep] at h
  cases h

/-- A token that does not follow the factor at hand is refused as such. -/
lemma eq_refuse_of_afterFactor {r : Reading} {f : Expr} {t : Token} {fault : Fault}
    (h : r.afterFactor f t = .error fault) : fault = r.refuse t := by
  unfold afterFactor at h
  split at h
  · split at h
    · cases h
    · cases h
    · cases h
      rfl
  · cases h
    rfl

lemma eq_refuse_of_otherwise {r : Reading} {t : Token} {fault : Fault}
    (h : r.otherwise t = .error fault) : fault = r.refuse t := by
  unfold otherwise at h
  split at h
  · exact eq_refuse_of_afterFactor h
  · cases h
    rfl

/-- An integer that is no word is too large. -/
lemma word?_eq_error {n : Nat} {fault : Fault} :
    word? n = .error fault ↔ fault = .numberTooLarge ∧ UInt32.size ≤ n := by
  unfold word?
  split
  · rename_i fits
    simp [Nat.not_le_of_lt fits]
  · rename_i hlarge
    simp [Nat.le_of_not_lt hlarge, eq_comm]

/-- A token is refused as such, or as an integer that is too large, or for a count of zero: that of
the sides, if it is the zero itself, or that of the dice, which was read before. -/
lemma fault_of_step {r : Reading} {t : Token} {fault : Fault} (h : r.step t = .error fault) :
    fault = r.refuse t ∨
      (fault = .numberTooLarge ∧ ∃ n, t = .integer n ∧ UInt32.size ≤ n) ∨
      (fault = .zeroDice ∧ (t = .integer 0 ∨ ∃ fits, r.phase = .integer 0 fits)) := by
  unfold step at h
  split at h
  -- A factor has to come.
  · cases h
  · cases h
  · rename_i n _
    split at h
    · cases h
    · rename_i hlarge
      cases h
      have hsize : UInt32.size ≤ n := Nat.le_trans (by decide) (Nat.le_of_not_lt hlarge)
      exact .inr (.inl ⟨rfl, n, rfl, hsize⟩)
  -- An integer may be a count.
  · rename_i n fits hphase
    split at h
    · split at h
      · rename_i hzero
        cases h
        subst hzero
        exact .inr (.inr ⟨rfl, .inr ⟨fits, hphase⟩⟩)
      · cases h
    · exact .inl (eq_refuse_of_otherwise h)
  -- The sides of a throw have to come.
  · cases h
  · rename_i count n _
    rcases bind_eq_error.1 h with hword | ⟨faces, hword, h⟩
    · obtain ⟨rfl, hlarge⟩ := word?_eq_error.1 hword
      exact .inr (.inl ⟨rfl, n, rfl, hlarge⟩)
    · split at h
      · cases h
      · rename_i hzero
        cases h
        obtain ⟨fits, rfl⟩ := word?_eq_ok.1 hword
        have hn : n = 0 := by simpa [UInt32.lt_iff_toNat_lt] using hzero
        exact .inr (.inr ⟨rfl, .inl (congrArg Token.integer hn)⟩)
  -- Explosions and a selection may come.
  · split at h
    · exact .inl (eq_refuse_of_otherwise h)
    · cases h
  · cases h
  · cases h
  -- A selection is under way.
  · cases h
  · cases h
  · rename_i d n _
    rcases bind_eq_error.1 h with hword | ⟨selected, -, h⟩
    · obtain ⟨rfl, hlarge⟩ := word?_eq_error.1 hword
      exact .inr (.inl ⟨rfl, n, rfl, hlarge⟩)
    · cases h
  -- The factor is at its end.
  · exact .inl (eq_refuse_of_otherwise h)

/-- A fault at a token that names what was found names the sort of the token. -/
lemma found_of_step {r : Reading} {t : Token} {found : Option Token.Kind}
    {expected : List Token.Kind} (h : r.step t = .error (.unexpected found expected)) :
    found = some t.kind := by
  rcases fault_of_step h with hfault | ⟨hfault, -⟩ | ⟨hfault, -⟩
  · cases t with
    | integer n =>
      cases hfault
      rfl
    | mark m =>
      cases hfault
      rfl
    | unknown => cases hfault
  · cases hfault
  · cases hfault

/-- At the end a token is missing. -/
lemma fault_of_finish {r : Reading} {fault : Fault} (h : r.finish = .error fault) :
    fault = .unexpected none r.expected.flatten := by
  unfold finish at h
  split at h
  · cases h
  · cases h
    rfl

end Reading

end DiceNotation
