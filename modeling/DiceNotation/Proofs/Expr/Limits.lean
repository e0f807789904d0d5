import DiceNotation.Proofs.Expr.FirstFault
import DiceNotation.Proofs.Grammar.Outline
import Mathlib.Tactic.Common
/-!
# Integers out of their range

A text that would be an expression if its integers were of other sizes is refused for one of them:
an integer is too large for its place, or a count of dice or of sides is zero. There is one kind of
text for which this is not what is said (`Expr.limit_reported_iff`). A count of dice of `2 ^ 32` and
more is a number as long as it is below `2 ^ 63`, and then the `d` after it is taken for a token
that cannot follow a number.
-/

namespace DiceNotation

open Grammar

namespace Expr

variable {s : String}

/-- At the position in the text a `d` stands, and before it an integer that is too large for a count
of dice, but not for a number. -/
def CountTooLarge (s : String) (position : Nat) : Prop :=
  ∃ front n rest, (Lexeme.ofText s).map Lexeme.token = front ++ .integer n :: .mark .d :: rest ∧
    UInt32.size ≤ n ∧ n < 0x8000000000000000 ∧ Lexeme.indexAt s position = front.length + 1

/-- Where reading has got to a `d` after too large a count, the integer was read as a number. -/
lemma countTooLarge_iff {position : Nat} {before after : List Token} {r : Reading}
    (htokens : (Lexeme.ofText s).map Lexeme.token = before ++ after)
    (hrun : Reading.start.Runs before r) (hindex : Lexeme.indexAt s position = before.length) :
    CountTooLarge s position ↔ ∃ t rest, after = t :: rest ∧ r.ExceedsCount t := by
  constructor
  · rintro ⟨front, n, rest, hsplit, hlarge, -, hposition⟩
    have hlength : before.length = (front ++ [Token.integer n]).length := by
      rw [← hindex, hposition, List.length_append, List.length_singleton]
    have happend : before ++ after = (front ++ [.integer n]) ++ .mark .d :: rest := by
      rw [← htokens, hsplit, List.append_assoc, List.singleton_append]
    obtain ⟨rfl, rfl⟩ := List.append_inj happend hlength
    obtain ⟨middle, -, hstep⟩ := Reading.runs_concat.1 hrun
    obtain ⟨fits, hphase⟩ := hstep.phase_of_large hlarge
    exact ⟨_, rest, rfl, rfl, n, fits, hphase, hlarge⟩
  · rintro ⟨t, rest, rfl, rfl, n, fits, hphase, hlarge⟩
    obtain ⟨front, rfl, -⟩ := hrun.phase_eq_integer_iff.1 ⟨fits, hphase⟩
    refine ⟨front, n, rest, ?_, hlarge, fits, ?_⟩
    · rw [htokens, List.append_assoc, List.singleton_append]
    · rw [hindex, List.length_append, List.length_singleton]

/-- Where a text is refused that is an expression but for the sizes of its integers, the error says
that a number is too large or a count is zero, unless it is at the `d` of a throw whose count is too
large, but not too large for a number. There the `d` is said to be unexpected. -/
theorem limit_reported_iff {err : ParseError} (h : ofText s = .error err)
    (hformed : Formed ((Lexeme.ofText s).map Lexeme.token)) :
    (err.fault = .numberTooLarge ∨ err.fault = .zeroDice ↔ ¬CountTooLarge s err.position) ∧
      (CountTooLarge s err.position →
        ∃ expected, err.fault = .unexpected (some (.mark .d)) expected) := by
  obtain ⟨before, after, r, htokens, hrun, hfails, hindex⟩ := exists_fails_at h
  rw [htokens] at hformed
  have hunexpected (hcount : CountTooLarge s err.position) :
      ∃ expected, err.fault = .unexpected (some (.mark .d)) expected := by
    obtain ⟨t, rest, rfl, hexceeds⟩ := (countTooLarge_iff htokens hrun hindex).1 hcount
    exact ⟨_, hexceeds.fault_eq hfails⟩
  refine ⟨?_, hunexpected⟩
  constructor
  · rintro hlimit hcount
    obtain ⟨expected, hfault⟩ := hunexpected hcount
    rw [hfault] at hlimit
    rcases hlimit with hlimit | hlimit <;> cases hlimit
  · intro hcount
    rcases hfails.of_formed hrun hformed with hlarge | hzero | hexceeds
    · exact .inl hlarge
    · exact .inr hzero
    · exact absurd ((countTooLarge_iff htokens hrun hindex).2 hexceeds) hcount

/-- A text is an expression but for the sizes of its integers if some text with the same sorts of
token is an expression. -/
lemma formed_of_text {s' : String} (hread : (ofText s').isOk)
    (hkinds : (Lexeme.ofText s').map (Token.kind ∘ Lexeme.token) =
      (Lexeme.ofText s).map (Token.kind ∘ Lexeme.token)) :
    Formed ((Lexeme.ofText s).map Lexeme.token) := by
  cases he : ofText s' with
  | ok e =>
    refine ⟨_, e, ?_, ofTokens_eq_ok_iff.1 (ofText_eq_ok.1 he)⟩
    rw [List.map_map, List.map_map, hkinds]
  | error err =>
    rw [he] at hread
    cases hread

/-- A throw with sides of zero is refused for them, and what follows them is of no account. -/
theorem limit_reported_of_zero_sides :
    ∃ err, ofText "2 * (3d0!kh - 1)" = .error err ∧
      Formed ((Lexeme.ofText "2 * (3d0!kh - 1)").map Lexeme.token) ∧
      ¬CountTooLarge "2 * (3d0!kh - 1)" err.position ∧ err.fault = .zeroDice := by
  have hread : ofText "2 * (3d0!kh - 1)" = .error ⟨.zeroDice, 7, "0"⟩ := by decide +kernel
  have hformed : Formed ((Lexeme.ofText "2 * (3d0!kh - 1)").map Lexeme.token) :=
    @formed_of_text _ "2 * (3d6!kh - 1)" (by decide +kernel) (by decide +kernel)
  have hcount := (limit_reported_iff hread hformed).1.1 (.inr rfl)
  exact ⟨_, hread, hformed, hcount, rfl⟩

/-- A count of dice of `2 ^ 32` is not reported as too large. -/
theorem limit_unreported :
    ¬∀ s err, ofText s = .error err → Formed ((Lexeme.ofText s).map Lexeme.token) →
      err.fault = .numberTooLarge ∨ err.fault = .zeroDice := by
  intro h
  have hread : ofText "4294967296d6" = .error ⟨.unexpected (some (.mark .d))
      [.mark .plus, .mark .minus, .mark .star, .mark .slash], 10, "d"⟩ := by
    decide +kernel
  have hformed : Formed ((Lexeme.ofText "4294967296d6").map Lexeme.token) :=
    @formed_of_text _ "2d6" (by decide +kernel) (by decide +kernel)
  rcases h _ _ hread hformed with hlimit | hlimit <;> cases hlimit

end Expr

end DiceNotation
