import DiceNotation.Proofs.Expr.RoundTrip
import Mathlib.Data.List.TakeWhile
import Mathlib.Tactic.Common
/-!
# Canonical text has the fewest parentheses

Of all texts that are read as an expression, its canonical text has the fewest parentheses
(`Expr.fewest_parentheses`).

Canonical text puts an operand into parentheses just where it binds less tightly than the part of
the grammar that has to stand there (`Expr.tokensIn`). So every derivation of an expression from a
part of the grammar has at least as many parentheses (`Grammar.Derives.count_tokensIn_le`): growing
a chain adds none to either side, and an operand that is put into parentheses needlessly has them in
the derivation only.
-/

namespace DiceNotation

open Grammar

/-! ## Characters and tokens -/

/-- A parenthesis is written in one way only. -/
lemma Mark.ofChar?_eq_paren {m : Mark} (hm : m = .leftParen ∨ m = .rightParen) (c : Char) :
    ofChar? c = some m ↔ c = m.symbol := by
  have hcase : m.symbol.toUpper = m.symbol := by rcases hm with rfl | rfl <;> decide
  rw [ofChar?_eq_some, hcase, or_self]

namespace Lexeme

/-- There are as many parentheses among the characters as among the tokens. -/
lemma count_cut {m : Mark} (hm : m = .leftParen ∨ m = .rightParen) (column start : Nat)
    (cs : List Char) :
    ((cut column start cs).map Lexeme.token).count (.mark m) = cs.count m.symbol := by
  have hblank : Token.isBlank m.symbol = false := by rcases hm with rfl | rfl <;> decide
  have hdigit : m.symbol.isDigit = false := by rcases hm with rfl | rfl <;> decide
  induction column, start, cs using cut.induct with
  | case1 column start => simp
  | case2 column start c rest hb ih =>
    have hne : c ≠ m.symbol := by
      rintro rfl
      rw [hblank] at hb
      cases hb
    rw [cut_blank hb, ih, List.count_cons_of_ne hne]
  | case3 column start c rest hb hd digits ih =>
    have hnone : digits.count m.symbol = 0 := by
      refine List.count_eq_zero.2 fun hmem => ?_
      have hall : ∀ d ∈ digits, d.isDigit = true := by
        intro d hmem
        rcases List.mem_cons.1 hmem with rfl | hmem
        · exact hd
        · exact List.mem_takeWhile_imp hmem
      rw [hall _ hmem] at hdigit
      cases hdigit
    have hsplit : c :: rest = digits ++ rest.dropWhile Char.isDigit := by
      simp [digits, List.takeWhile_append_dropWhile]
    have hinteger : Token.ofDigits digits ≠ .mark m := by simp [Token.ofDigits]
    rw [cut_digit (Bool.eq_false_iff.2 hb) hd, List.map_cons, List.count_cons_of_ne hinteger,
      hsplit, List.count_append, hnone, Nat.zero_add]
    exact ih
  | case4 column start c rest hb hd ih =>
    rw [cut_char (Bool.eq_false_iff.2 hb) (Bool.eq_false_iff.2 hd), List.map_cons,
      List.count_cons, List.count_cons, ih]
    have hsame : (Token.ofChar c == .mark m) = (c == m.symbol) := by
      rw [Bool.eq_iff_iff, beq_iff_eq, beq_iff_eq, ← Mark.ofChar?_eq_paren hm, Token.ofChar]
      cases Mark.ofChar? c <;> simp
    rw [hsame]

/-- There are as many parentheses in a text as among its tokens. -/
lemma count_ofText {m : Mark} (hm : m = .leftParen ∨ m = .rightParen) (s : String) :
    ((ofText s).map Lexeme.token).count (.mark m) = s.toList.count m.symbol :=
  count_cut hm 0 0 s.toList

end Lexeme

/-! ## Parentheses of a derivation -/

namespace Grammar

variable {ts : List Token}

/-- There are no parentheses in a throw. -/
lemma Throw.count_eq_zero {d : Dice} (h : Throw ts d) {m : Mark}
    (hm : m = .leftParen ∨ m = .rightParen) : ts.count (.mark m) = 0 := by
  obtain @⟨_, us, _, selection, selected, ⟨hcount, hfaces, explodes⟩, hchoice⟩ := h
  rename_i ts t count sides
  have hcount : .mark m ∉ ts := by
    cases hcount <;> simp
  have hfaces : t ≠ .mark m := by
    rcases hm with rfl | rfl <;> cases hfaces <;> simp
  have hbang : .mark m ∉ bang explodes := by
    rcases hm with rfl | rfl <;> cases explodes <;> simp [bang]
  have hchoice : .mark m ∉ us := by
    cases hchoice with
    | absent => simp
    | bare keep highest | counted keep highest fits =>
      rcases hm with rfl | rfl <;> cases keep <;> cases highest <;> simp [keepMark, rankMark]
  have hd : m ≠ .d := by rcases hm with rfl | rfl <;> decide
  rw [List.count_eq_zero]
  simp [hcount, hfaces.symm, hbang, hchoice, hd]

/-- As many parentheses are closed as are opened. -/
lemma Derives.count_rightParen {part : Part} {e : Expr} (h : Derives part ts e) :
    ts.count (.mark .rightParen) = ts.count (.mark .leftParen) := by
  induction h using Derives.chain_induction with
  | of_operand part ts e hp h ih => exact ih
  | grow part ts us left op right hl hop hr ihl ihr =>
    have hmark : Mark.ofOperator op ≠ .leftParen ∧ Mark.ofOperator op ≠ .rightParen := by
      cases op <;> decide
    simp [hmark, ihl, ihr]
  | parens ts e h ih => simp [ih]
  | throw ts d h => rw [h.count_eq_zero (.inl rfl), h.count_eq_zero (.inr rfl)]
  | integer n fits => rfl

end Grammar

namespace Expr

/-- What is written of an expression where a part of the grammar has to stand: it is put into
parentheses if it binds less tightly. -/
def tokensIn (part : Part) (e : Expr) : List Token :=
  enclosedTokens (e.precedence < part.precedence) e.tokens

/-- A tight enough expression stands without parentheses. -/
lemma tokensIn_of_le {part : Part} {e : Expr} (h : part.precedence ≤ e.precedence) :
    e.tokensIn part = e.tokens := by
  rw [tokensIn, decide_eq_false (Nat.not_lt_of_le h)]
  rfl

/-- The operands of a chain are written as its operands have to be. -/
lemma tokensIn_binary {part : Part} {op : Operator} (hop : op.precedence = part.precedence)
    (left right : Expr) :
    (binary left op right).tokensIn part =
      left.tokensIn part ++ .mark (.ofOperator op) :: right.tokensIn part.operand := by
  have hright : right.precedence ≤ part.precedence ↔
      right.precedence < part.operand.precedence := by
    cases part with
    | expression | term => exact Nat.lt_succ_iff.symm
    | factor => exact absurd rfl (Part.ne_factor_of_precedence hop)
  rw [tokensIn_of_le (Nat.le_of_eq hop.symm), tokens, tokensIn, tokensIn, hop]
  simp only [hright]

/-- Where an expression has to be put into parentheses, there is one pair more. -/
lemma count_tokensIn (part : Part) (e : Expr) :
    (e.tokensIn part).count (.mark .leftParen) =
      e.tokens.count (.mark .leftParen) + if e.precedence < part.precedence then 1 else 0 := by
  by_cases h : e.precedence < part.precedence <;> simp [tokensIn, enclosedTokens, h]

end Expr

/-- A derivation has at least as many parentheses as what is written of its tree. -/
theorem Grammar.Derives.count_tokensIn_le {part : Part} {ts : List Token} {e : Expr}
    (h : Derives part ts e) :
    (e.tokensIn part).count (.mark .leftParen) ≤ ts.count (.mark .leftParen) := by
  induction h using Derives.chain_induction with
  | of_operand part ts e hp h ih =>
    have hle : part.precedence ≤ part.operand.precedence := by cases part <;> decide
    rw [Expr.count_tokensIn] at ih ⊢
    refine Nat.le_trans (Nat.add_le_add_left ?_ _) ih
    split_ifs <;> omega
  | grow part ts us left op right hl hop hr ihl ihr =>
    have hmark : Mark.ofOperator op ≠ .leftParen := by cases op <;> decide
    rw [Expr.tokensIn_binary hop, List.count_append, List.count_append,
      List.count_cons_of_ne (by simpa using hmark), List.count_cons_of_ne (by simpa using hmark)]
    exact Nat.add_le_add ihl ihr
  | parens ts e h ih =>
    rw [Expr.tokensIn_of_le e.expression_le] at ih
    have hone : (if e.precedence < Part.factor.precedence then 1 else 0) ≤ 1 := by
      split_ifs <;> omega
    calc (e.tokensIn .factor).count (.mark .leftParen)
        ≤ ts.count (.mark .leftParen) + 1 := by
          rw [Expr.count_tokensIn]
          exact Nat.add_le_add ih hone
      _ = (.mark .leftParen :: (ts ++ [.mark .rightParen])).count (.mark .leftParen) := by simp
  | throw ts d h =>
    have hthrow := Dice.throw_tokens h.writable.1
    rw [Expr.tokensIn_of_le (Nat.le_of_ble_eq_true rfl)]
    exact (hthrow.count_eq_zero (.inl rfl)).le.trans (Nat.zero_le _)
  | integer n fits =>
    rw [Expr.tokensIn_of_le (Nat.le_of_ble_eq_true rfl)]
    exact Nat.le_refl _

/-! ## Texts -/

namespace Expr

/-- Of all texts that are read as an expression its canonical text has the fewest parentheses, which
come in pairs in all of them. -/
theorem fewest_parentheses {s : String} {e : Expr} (h : ofText s = .ok e) :
    ofText e.text = .ok e ∧ e.text.toList.count '(' ≤ s.toList.count '(' ∧
      e.text.toList.count ')' = e.text.toList.count '(' ∧
      s.toList.count ')' = s.toList.count '(' := by
  have hpairs : ∀ {t : String}, ofText t = .ok e → t.toList.count ')' = t.toList.count '(' := by
    intro t ht
    have hderives := ofTokens_eq_ok_iff.1 (ofText_eq_ok.1 ht)
    have hcount := hderives.count_rightParen
    rw [Lexeme.count_ofText (.inr rfl), Lexeme.count_ofText (.inl rfl)] at hcount
    exact hcount
  have hderives := ofTokens_eq_ok_iff.1 (ofText_eq_ok.1 h)
  have hread : ofText e.text = .ok e :=
    ofText_text_iff.2 ⟨hderives.writable.1, hderives.writable.2.symm⟩
  have hle := hderives.count_tokensIn_le
  rw [tokensIn_of_le e.expression_le, ← e.spells_text.tokens_ofText, Lexeme.count_ofText (.inl rfl),
    Lexeme.count_ofText (.inl rfl)] at hle
  exact ⟨hread, hle, hpairs hread, hpairs h⟩

/-- Of the four pairs of this text two are needless as what they enclose binds tightly enough, and
one as the operators group to the left. -/
theorem fewest_parentheses_of_needless :
    ∃ e, ofText "((9) - 4) - ((2*3) - 1)" = .ok e ∧ e.text = "9 - 4 - (2 * 3 - 1)" ∧
      ofText e.text = .ok e ∧ e.text.toList.count '(' = 1 ∧
      e.text.toList.count '(' ≤ "((9) - 4) - ((2*3) - 1)".toList.count '(' := by
  have hread : (match ofText "((9) - 4) - ((2*3) - 1)" with
      | .ok e => e.text = "9 - 4 - (2 * 3 - 1)"
      | _ => false) = true := by
    decide +kernel
  split at hread
  · rename_i e he
    have htext := of_decide_eq_true hread
    obtain ⟨hsame, hle, -⟩ := fewest_parentheses he
    refine ⟨e, he, htext, hsame, ?_, hle⟩
    rw [htext]
    decide
  · cases hread

end Expr

end DiceNotation
