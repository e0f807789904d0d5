import DiceNotation.Proofs.Grammar.Recognition
import DiceNotation.Proofs.Grammar.Viable
import DiceNotation.Proofs.Token.Place
import DiceNotation.Proofs.Token.Spelling
import Mathlib.Tactic.Common
/-!
# The place of a fault in a text

A text that is no expression is refused at the leftmost token that cannot stand where it does
(`Expr.refused_at_first_fault`): the tokens before it begin some text that is an expression, but
together with it they begin none. Where the text breaks off too early the fault is at its end.
-/

namespace DiceNotation

open Grammar

/-- Tokens with which an expression begins are also those with which its text begins. -/
lemma Grammar.Viable.exists_text {ts : List Token} (h : Viable ts) :
    ∃ text e, Expr.ofText text = .ok e ∧ ts <+: (Lexeme.ofText text).map Lexeme.token := by
  obtain ⟨us, e, hread⟩ := h
  obtain ⟨last, hrun, -⟩ := Expr.ofTokens_eq_ok.1 hread
  obtain ⟨cs, hspells, -⟩ := Token.Spells.exists_spells hrun.unknown_notMem
  have htokens : (Lexeme.ofText (String.ofList cs)).map Lexeme.token = ts ++ us := by
    refine Token.Spells.tokens_ofText ?_
    rwa [String.toList_ofList]
  refine ⟨String.ofList cs, e, ?_, ?_⟩
  · rw [Expr.ofText_eq_ok, htokens]
    exact hread
  · rw [htokens]
    exact List.prefix_append ts us

namespace ParseError

/-- The fault of a token is located where the token stands. -/
lemma locate_of_getElem? {s : String} {lexemes : List Lexeme} {i : Nat} {l : Lexeme}
    (h : lexemes[i]? = some l) (fault : Fault) :
    locate s lexemes i fault = ⟨fault, l.column, l.text⟩ := by
  rw [locate, h]

/-- The fault of a missing token is located at the end. -/
lemma locate_length (s : String) (lexemes : List Lexeme) (fault : Fault) :
    locate s lexemes lexemes.length fault = ⟨fault, s.length, ""⟩ := by
  rw [locate, List.getElem?_eq_none (Nat.le_refl _)]

/-- A fault that is located stays what it is. -/
lemma fault_locate (s : String) (lexemes : List Lexeme) (i : Nat) (fault : Fault) :
    (locate s lexemes i fault).fault = fault := by
  unfold locate
  split <;> rfl

/-- A fault is located at the token whose fault it is. -/
lemma indexAt_locate {s : String} {i : Nat} (h : i ≤ (Lexeme.ofText s).length) (fault : Fault) :
    Lexeme.indexAt s (locate s (Lexeme.ofText s) i fault).position = i := by
  rcases Nat.lt_or_eq_of_le h with hi | rfl
  · have hl := List.getElem?_eq_getElem hi
    rw [locate_of_getElem? hl]
    exact Lexeme.indexAt_column hl
  · rw [locate_length]
    exact Lexeme.indexAt_length s

end ParseError

namespace Expr

variable {s : String} {err : ParseError}

/-- A text is refused where reading of its tokens fails. -/
lemma exists_fails (h : ofText s = .error err) :
    ∃ before after r fault, (Lexeme.ofText s).map Lexeme.token = before ++ after ∧
      Reading.start.Runs before r ∧ r.Fails after fault ∧
      err = .locate s (Lexeme.ofText s) before.length fault := by
  cases htokens : ofTokens ((Lexeme.ofText s).map Lexeme.token) with
  | ok e =>
    simp only [ofText, htokens] at h
    cases h
  | error located =>
    obtain ⟨index, fault⟩ := located
    simp only [ofText, htokens] at h
    cases h
    obtain ⟨before, after, r, hsplit, hindex, hrun, hfails⟩ := Reading.exists_fails htokens
    rw [Nat.zero_add] at hindex
    exact ⟨before, after, r, fault, hsplit, hrun, hfails, by rw [hindex]⟩

/-- The position of a fault tells how many tokens were read before it. -/
lemma exists_fails_at (h : ofText s = .error err) :
    ∃ before after r, (Lexeme.ofText s).map Lexeme.token = before ++ after ∧
      Reading.start.Runs before r ∧ r.Fails after err.fault ∧
      Lexeme.indexAt s err.position = before.length := by
  obtain ⟨before, after, r, fault, htokens, hrun, hfails, rfl⟩ := exists_fails h
  rw [ParseError.fault_locate]
  have hlength : before.length ≤ (Lexeme.ofText s).length := by
    rw [← List.length_map Lexeme.token, htokens, List.length_append]
    exact Nat.le_add_right _ _
  exact ⟨before, after, r, htokens, hrun, hfails, ParseError.indexAt_locate hlength fault⟩

/-- The fault of a text is at its leftmost token that cannot stand where it does: the tokens before
it begin a text that is an expression, and together with it they begin no expression. The position
is the number of characters before that token, the slice is its text, and a fault that says what was
found names its sort. Where there is no such token, the fault is at the end of the text, where a
token is missing. -/
theorem refused_at_first_fault (h : ofText s = .error err) :
    ∃ ts i, (Lexeme.ofText s).map Lexeme.token = ts ∧ Lexeme.indexAt s err.position = i ∧
      (∃ text e, ofText text = .ok e ∧
        ts.take i <+: (Lexeme.ofText text).map Lexeme.token) ∧
      ((∃ l, (Lexeme.ofText s)[i]? = some l ∧ ¬Viable (ts.take (i + 1)) ∧
          (∃ before after, s.toList = before ++ l.chars ++ after ∧
            err.position = before.length) ∧
          err.slice = String.ofList l.chars ∧
          ∀ found expected, err.fault = .unexpected found expected →
            found = some l.token.kind) ∨
        i = ts.length ∧ err.position = s.length ∧ err.slice = "" ∧
          ∃ expected, err.fault = .unexpected none expected) := by
  obtain ⟨before, after, r, fault, htokens, hrun, hfails, rfl⟩ := exists_fails h
  have hviable : Viable before := viable_iff_runs.2 ⟨r, hrun⟩
  have htext := hviable.exists_text
  refine ⟨before ++ after, before.length, htokens, ?_⟩
  rw [List.take_left]
  cases hfails with
  | @token t rest _ hstep =>
    -- The token after those that were read is the one that is refused.
    have htoken : ((Lexeme.ofText s).map Lexeme.token)[before.length]? = some t := by
      rw [htokens, List.getElem?_append_right (Nat.le_refl _), Nat.sub_self]
      rfl
    rw [List.getElem?_map, Option.map_eq_some_iff] at htoken
    obtain ⟨l, hl, rfl⟩ := htoken
    obtain ⟨left, right, hplace, hcolumn⟩ :=
      (Lexeme.piece_of_mem_ofText (List.mem_of_getElem? hl)).place
    rw [Nat.zero_add] at hcolumn
    rw [ParseError.locate_of_getElem? hl]
    refine ⟨Lexeme.indexAt_column hl, htext, .inl ⟨l, hl, ?_, ?_, rfl, ?_⟩⟩
    · rw [List.take_length_add_append]
      exact Reading.not_viable_of_step_eq_error hrun hstep
    · exact ⟨left, right, hplace, hcolumn⟩
    · intro found expected hfault
      have hfault : fault = .unexpected found expected := hfault
      rw [hfault] at hstep
      exact Reading.found_of_step hstep
  | atEnd hfinish =>
    have hall : before.length = (Lexeme.ofText s).length := by
      rw [← List.length_map Lexeme.token, htokens, List.append_nil]
    rw [hall, ParseError.locate_length]
    refine ⟨Lexeme.indexAt_length s, htext, .inr ⟨?_, rfl, rfl, _, Reading.fault_of_finish hfinish⟩⟩
    rw [List.append_nil, hall]

/-- The throw in this text cannot go on with its last integer. That the integer before the `d` might
have been a number is of no account. -/
theorem refused_at_first_fault_of_selector :
    ∃ ts, (Lexeme.ofText "3 + (2d20k 7").map Lexeme.token = ts ∧
      ofText "3 + (2d20k 7" =
        .error ⟨.unexpected (some .integer) [.mark .highest, .mark .lowest], 11, "7"⟩ ∧
      (∃ text e, ofText text = .ok e ∧
        ts.take 7 <+: (Lexeme.ofText text).map Lexeme.token) ∧
      ¬Viable (ts.take 8) := by
  have hread : ofText "3 + (2d20k 7" =
      .error ⟨.unexpected (some .integer) [.mark .highest, .mark .lowest], 11, "7"⟩ := by
    have hsame : (match ofText "3 + (2d20k 7" with
        | .ok _ => false
        | .error err =>
          err = ⟨.unexpected (some .integer) [.mark .highest, .mark .lowest], 11, "7"⟩) = true := by
      decide +kernel
    split at hsame
    · cases hsame
    · rename_i err herr
      rw [herr, of_decide_eq_true hsame]
  have hindex : Lexeme.indexAt "3 + (2d20k 7" 11 = 7 := by decide +kernel
  obtain ⟨ts, i, htokens, hi, htext, hplace⟩ := refused_at_first_fault hread
  obtain rfl : 7 = i := hindex.symm.trans hi
  rcases hplace with ⟨l, -, hviable, -⟩ | ⟨-, hend, -⟩
  · exact ⟨ts, htokens, hread, htext, hviable⟩
  · exact absurd hend (by decide)

end Expr

end DiceNotation
