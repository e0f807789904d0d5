import DiceNotation.Proofs.Expr.FirstFault
import DiceNotation.Proofs.Grammar.Outline
import Mathlib.Tactic.Common
/-!
# The sorts of token that are expected

What an error says could have come instead depends on the tokens before its place, and on what
stands there only in so far as an unknown character is not answered by all of the rules that are
open: of it the innermost one speaks alone. This makes a difference after an integer that may be the
count of a throw and nowhere else (`Expr.expected_eq_iff`). There a `d` is expected by the throw,
and what may follow a number by the expression around it.
-/

namespace DiceNotation

open Grammar

namespace Fault

/-- The fault is not in the value of an integer: what stands at the place, or the end of the text,
cannot stand there. -/
def IsSyntax : Fault → Prop
  | .unexpected _ _ | .unrecognized _ => True
  | .numberTooLarge | .zeroDice => False

/-- An unknown character stands at the place. -/
def isUnrecognized : Fault → Bool
  | .unrecognized _ => true
  | _ => false

end Fault

/-- The tokens end with an integer that may be the count of a throw. -/
def Grammar.EndsInCount (ts : List Token) : Prop :=
  ∃ front n, ts = front ++ [.integer n] ∧ n < UInt32.size ∧ FactorDue front

namespace Reading

/-- An integer was read that may be the count of a throw. -/
def AfterCount (r : Reading) : Prop := ∃ n fits, r.phase = .integer n fits ∧ n < UInt32.size

/-- Whether the integer that was read last may be a count is told by the tokens. -/
lemma Runs.afterCount_iff {r : Reading} {ts : List Token} (h : start.Runs ts r) :
    r.AfterCount ↔ EndsInCount ts := by
  constructor
  · rintro ⟨n, fits, hphase, hn⟩
    obtain ⟨front, heq, hdue⟩ := h.phase_eq_integer_iff.1 ⟨fits, hphase⟩
    exact ⟨front, n, heq, hn, hdue⟩
  · rintro ⟨front, n, heq, hn, hdue⟩
    obtain ⟨fits, hphase⟩ := h.phase_eq_integer_iff.2 ⟨front, heq, hdue⟩
    exact ⟨n, fits, hphase, hn⟩

/-- The sorts that are told to be expected: those of the innermost rule for an unknown character, or
else those of all rules that are open. -/
def told (r : Reading) (unknown : Bool) : List Token.Kind :=
  if unknown then r.expected.headD [] else r.expected.flatten

/-- A fault expects the sorts that are told. -/
lemma Fails.expected_eq {r : Reading} {after : List Token} {fault : Fault} (h : r.Fails after fault)
    (hf : fault.IsSyntax) : fault.expected = r.told fault.isUnrecognized := by
  cases h with
  | @token t _ _ hstep =>
    rcases fault_of_step hstep with rfl | ⟨rfl, -⟩ | ⟨rfl, -⟩
    · cases t <;> rfl
    · cases hf
    · cases hf
  | atEnd hfinish =>
    rw [fault_of_finish hfinish]
    rfl

/-- Only one rule is open unless the integer that was read last may be a count. -/
lemma told_of_not_afterCount {r : Reading} (h : ¬r.AfterCount) (unknown : Bool) :
    r.told unknown = r.expected.flatten := by
  obtain ⟨outer, inner, phase⟩ := r
  cases phase with
  | integer n fits =>
    have hn : ¬n < UInt32.size := fun hn => h ⟨n, fits, rfl, hn⟩
    simp [told, expected, hn]
  | _ => simp [told, expected]

/-- The same is told of an unknown character as of other tokens, unless the integer that was read
last may be a count. -/
lemma told_eq {r : Reading} {a b : Bool} (h : a = b ∨ ¬r.AfterCount) : r.told a = r.told b := by
  rcases h with rfl | hcount
  · rfl
  · rw [told_of_not_afterCount hcount a, told_of_not_afterCount hcount b]

/-- After an integer that may be a count, what may follow a number is not told of an unknown
character. -/
lemma exists_mem_told_iff {r : Reading} (h : r.AfterCount) :
    ∃ k, ∀ unknown, k ∈ r.told unknown ↔ unknown = false := by
  obtain ⟨outer, inner, phase⟩ := r
  obtain ⟨n, fits, hphase, hn⟩ := h
  cases hphase
  cases outer with
  | nil => exact ⟨.mark .plus, by simp [told, expected, hn, following]⟩
  | cons waiting outer => exact ⟨.mark .rightParen, by simp [told, expected, hn, following]⟩

/-- The same sorts are told in two cases only if both are about unknown characters or neither is, or
no count is at hand. -/
lemma mem_told_iff {r : Reading} {a b : Bool} :
    (∀ k, k ∈ r.told a ↔ k ∈ r.told b) ↔ a = b ∨ ¬r.AfterCount := by
  constructor
  · intro hmem
    by_cases hcount : r.AfterCount
    · obtain ⟨k, hk⟩ := exists_mem_told_iff hcount
      have hiff := hmem k
      rw [hk, hk, Bool.coe_false_iff_false] at hiff
      exact .inl (Bool.not_inj hiff)
    · exact .inr hcount
  · intro h k
    rw [told_eq h]

end Reading

namespace Expr

/-- What reading has got through before a fault are the tokens before it. -/
lemma exists_fails_of_take {s : String} {err : ParseError} (h : ofText s = .error err) :
    ∃ r after, r.Fails after err.fault ∧ Reading.start.Runs
      (((Lexeme.ofText s).map Lexeme.token).take (Lexeme.indexAt s err.position)) r := by
  obtain ⟨before, after, r, htokens, hrun, hfails, hindex⟩ := exists_fails_at h
  rw [htokens, hindex, List.take_left]
  exact ⟨r, after, hfails, hrun⟩

/-- Two texts that are refused at the same token, with the same tokens before it, expect the same
sorts of token there, and in the same order, if an unknown character stands there in both or in
neither of them, and also if the tokens before do not end with an integer that may be the count of a
throw. Otherwise they do not. -/
theorem expected_eq_iff {s s' : String} {err err' : ParseError} (h : ofText s = .error err)
    (h' : ofText s' = .error err') (hf : err.fault.IsSyntax) (hf' : err'.fault.IsSyntax)
    {i : Nat} (hi : Lexeme.indexAt s err.position = i) (hi' : Lexeme.indexAt s' err'.position = i)
    {before : List Token} (hbefore : ((Lexeme.ofText s).map Lexeme.token).take i = before)
    (hbefore' : ((Lexeme.ofText s').map Lexeme.token).take i = before) :
    ((∀ k, k ∈ err.fault.expected ↔ k ∈ err'.fault.expected) ↔
        err.fault.isUnrecognized = err'.fault.isUnrecognized ∨ ¬EndsInCount before) ∧
      ((∀ k, k ∈ err.fault.expected ↔ k ∈ err'.fault.expected) →
        err.fault.expected = err'.fault.expected) := by
  obtain ⟨r, after, hfails, hrun⟩ := exists_fails_of_take h
  obtain ⟨r', after', hfails', hrun'⟩ := exists_fails_of_take h'
  rw [hi, hbefore] at hrun
  rw [hi', hbefore'] at hrun'
  obtain rfl : r = r' := hrun.unique hrun'
  rw [hfails.expected_eq hf, hfails'.expected_eq hf', ← hrun.afterCount_iff]
  exact ⟨Reading.mem_told_iff, fun hmem => Reading.told_eq (Reading.mem_told_iff.1 hmem)⟩

/-- After the `k` of a throw the same is expected at the end of the text and of an unknown
character. -/
theorem expected_eq_iff_of_selector :
    ∃ err err', ofText "2d20k" = .error err ∧ ofText "2D20 k?" = .error err' ∧
      err.fault.IsSyntax ∧ err'.fault.IsSyntax ∧
      (∃ before, Lexeme.indexAt "2d20k" err.position = 4 ∧
        Lexeme.indexAt "2D20 k?" err'.position = 4 ∧
        ((Lexeme.ofText "2d20k").map Lexeme.token).take 4 = before ∧
        ((Lexeme.ofText "2D20 k?").map Lexeme.token).take 4 = before) ∧
      err.fault.isUnrecognized ≠ err'.fault.isUnrecognized ∧
      err.fault.expected = err'.fault.expected := by
  have hread : ofText "2d20k" =
      .error ⟨.unexpected none [.mark .highest, .mark .lowest], 5, ""⟩ := by decide +kernel
  have hread' : ofText "2D20 k?" =
      .error ⟨.unrecognized [.mark .highest, .mark .lowest], 6, "?"⟩ := by decide +kernel
  have hindex : Lexeme.indexAt "2d20k" 5 = 4 := by decide +kernel
  have hindex' : Lexeme.indexAt "2D20 k?" 6 = 4 := by decide +kernel
  have hbefore : ((Lexeme.ofText "2d20k").map Lexeme.token).take 4 =
      [.integer 2, .mark .d, .integer 20, .mark .keep] := by decide +kernel
  have hbefore' : ((Lexeme.ofText "2D20 k?").map Lexeme.token).take 4 =
      [.integer 2, .mark .d, .integer 20, .mark .keep] := by decide +kernel
  have hcount : ¬EndsInCount [.integer 2, .mark .d, .integer 20, .mark .keep] := by
    rintro ⟨front, n, heq, -⟩
    have hlast := congrArg List.getLast? heq
    rw [List.getLast?_concat] at hlast
    cases hlast
  obtain ⟨hiff, hsame⟩ :=
    expected_eq_iff hread hread' trivial trivial hindex hindex' hbefore hbefore'
  exact ⟨_, _, hread, hread', trivial, trivial, ⟨_, hindex, hindex', hbefore, hbefore'⟩, nofun,
    hsame (hiff.2 (.inr hcount))⟩

/-- After an integer that may be a count, less is expected of an unknown character than of a closing
parenthesis. -/
theorem expected_ne :
    ¬∀ s s' err err' i before, ofText s = .error err → ofText s' = .error err' →
      err.fault.IsSyntax → err'.fault.IsSyntax → Lexeme.indexAt s err.position = i →
      Lexeme.indexAt s' err'.position = i →
      ((Lexeme.ofText s).map Lexeme.token).take i = before →
      ((Lexeme.ofText s').map Lexeme.token).take i = before →
      ∀ k, k ∈ err.fault.expected ↔ k ∈ err'.fault.expected := by
  intro h
  have hread : ofText "4x" = .error ⟨.unrecognized [.mark .d], 1, "x"⟩ := by decide +kernel
  have hread' : ofText "4)" = .error ⟨.unexpected (some (.mark .rightParen))
      [.mark .d, .mark .plus, .mark .minus, .mark .star, .mark .slash], 1, ")"⟩ := by
    decide +kernel
  have hplus := h _ _ _ _ 1 [.integer 4] hread hread' trivial trivial (by decide +kernel)
    (by decide +kernel) (by decide +kernel) (by decide +kernel) (.mark .plus)
  exact absurd (hplus.2 (by decide)) (by decide)

end Expr

end DiceNotation
