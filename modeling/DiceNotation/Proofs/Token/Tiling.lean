import DiceNotation.Proofs.Token.Respelling
/-!
# The tiling of a text

A known token is written by its rule (`Token.Rule`): an integer with one or more digits, a mark with
its character, where letters may be of either case. What begins no known token and is no blank is
unknown, one character at a time (`Token.Written`).

Characters are tiled by blanks and by written tokens, none of which ends between two digits
(`Lexeme.Tiles`). The tokens into which characters are cut are such a tiling (`Lexeme.tiles_cut`),
and what is written for one token is cut into this token (`Lexeme.cut_of_written`).

So what is to be said of all tokens is shown by induction over a tiling: each of them ends before
the next one begins (`Lexeme.Tiles.pairwise_stop_le_start`), a run of digits is one token as a whole
(`Lexeme.Tiles.exists_place`), and the characters in none of them are the blanks
(`Lexeme.Tiles.exists_covering_iff`).
-/

namespace DiceNotation

/-! ## Digits that are apart -/

/-- No two digits meet where nothing stands in front. -/
lemma not_betweenDigits_nil (after : List Char) : ¬BetweenDigits [] after := by
  rintro ⟨a, ha, -⟩
  cases ha

/-- One character that is no digit does not end between two digits. -/
lemma not_betweenDigits_singleton {c : Char} (hc : c.isDigit = false) (after : List Char) :
    ¬BetweenDigits [c] after := by
  rintro ⟨a, ha, -, -, hdigit, -⟩
  rw [← Option.some.inj ha, List.getLast_singleton, hc] at hdigit
  cases hdigit

/-- Where neither the first part nor the second one meets the third between two digits, both of them
together do not. -/
lemma not_betweenDigits_append {first before chars after : List Char} (hne : chars ≠ [])
    (hfirst : ¬BetweenDigits first (before ++ chars ++ after))
    (hbefore : ¬BetweenDigits before chars) : ¬BetweenDigits (first ++ before) chars := by
  rintro ⟨a, ha, b, hb, hdigits⟩
  cases before with
  | nil =>
    rw [List.append_nil] at ha
    refine hfirst ⟨a, ha, b, ?_, hdigits⟩
    rw [List.nil_append, List.head?_append_of_ne_nil _ hne]
    exact hb
  | cons d before =>
    rw [List.getLast?_append_of_ne_nil _ (List.cons_ne_nil d before)] at ha
    exact hbefore ⟨a, ha, b, hb, hdigits⟩

/-- No digit stands in front of digits that are apart. -/
lemma isDigit_of_getLast? {before digits : List Char} {c : Char} (hne : digits ≠ [])
    (hdigits : ∀ d ∈ digits, d.isDigit = true) (hapart : ¬BetweenDigits before digits)
    (hc : before.getLast? = some c) : c.isDigit = false := by
  obtain ⟨d, rest, rfl⟩ := List.exists_cons_of_ne_nil hne
  rw [← Bool.not_eq_true]
  exact fun hdigit => hapart ⟨c, hc, d, rfl, hdigit, hdigits d List.mem_cons_self⟩

/-- No digit stands behind digits that are apart. -/
lemma isDigit_of_head? {digits after : List Char} {c : Char} (hne : digits ≠ [])
    (hdigits : ∀ d ∈ digits, d.isDigit = true) (hapart : ¬BetweenDigits digits after)
    (hc : after.head? = some c) : c.isDigit = false := by
  rw [← Bool.not_eq_true]
  exact fun hdigit => hapart ⟨_, List.getLast?_eq_some_getLast hne, c, hc,
    hdigits _ (List.getLast_mem hne), hdigit⟩

/-! ## The rules of tokens -/

namespace Token

/-- The rules of the known tokens: how each of them is written. -/
inductive Rule : Token → List Char → Prop
  /-- An integer is written with one or more digits. -/
  | integer {digits : List Char} (hne : digits ≠ []) (hdigits : ∀ c ∈ digits, c.isDigit = true) :
      Rule (.integer (Nat.ofDigitChars 10 digits 0)) digits
  /-- A mark is written with its character, in either case. -/
  | mark (m : Mark) {c : Char} (hc : c = m.symbol ∨ c = m.symbol.toUpper) : Rule (.mark m) [c]

/-- How tokens are written: the known ones by their rules, and an unknown one as a character that is
no blank and with which no known token begins. -/
inductive Written : Token → List Char → Prop
  | known {t : Token} {cs : List Char} (hrule : Rule t cs) : Written t cs
  | unknown {c : Char} (hblank : c ∉ [' ', '\t', '\r', '\n'])
      (hrule : ∀ t rest, ¬Rule t (c :: rest)) : Written .unknown [c]

variable {t : Token} {cs : List Char} {c : Char}

/-- A digit is an integer. -/
lemma rule_of_isDigit (hc : c.isDigit = true) : ∃ t, Rule t [c] :=
  ⟨_, .integer (List.cons_ne_nil c []) fun d hd => by rwa [List.mem_singleton.1 hd]⟩

/-- A symbol is no blank and no digit, in either case. -/
lemma isBlank_and_isDigit_of_symbol {m : Mark} (hc : c = m.symbol ∨ c = m.symbol.toUpper) :
    isBlank c = false ∧ c.isDigit = false := by
  rcases hc with rfl | rfl <;> cases m <;> decide

/-- A token is written with at least one character. -/
lemma Written.ne_nil (h : Written t cs) : cs ≠ [] := by
  cases h with
  | known hrule =>
    cases hrule with
    | integer hne hdigits => exact hne
    | mark m hc => exact List.cons_ne_nil _ _
  | unknown hblank hrule => exact List.cons_ne_nil _ _

/-- An integer is written with digits only. -/
lemma Written.isDigit {n : Nat} (h : Written (.integer n) cs) (hc : c ∈ cs) : c.isDigit = true := by
  cases h with
  | known hrule =>
    cases hrule with
    | integer hne hdigits => exact hdigits c hc

/-- A token is written without blanks. -/
lemma Written.isBlank_eq_false (h : Written t cs) (hc : c ∈ cs) : isBlank c = false := by
  cases h with
  | known hrule =>
    cases hrule with
    | integer hne hdigits => exact isBlank_of_isDigit (hdigits c hc)
    | mark m hsymbol =>
      rw [List.mem_singleton.1 hc]
      exact (isBlank_and_isDigit_of_symbol hsymbol).1
  | unknown hblank hrule =>
    rw [List.mem_singleton.1 hc, ← Bool.not_eq_true, isBlank_iff]
    exact hblank

/-- A character that is neither a blank nor a digit is written for the token that it is. -/
lemma written_ofChar (hb : isBlank c = false) (hd : c.isDigit = false) :
    Written (ofChar c) [c] := by
  unfold ofChar
  cases hmark : Mark.ofChar? c with
  | some m => exact .known (.mark m (Mark.ofChar?_eq_some.1 hmark))
  | none =>
    refine .unknown (fun hmem => ?_) fun t rest hrule => ?_
    · rw [isBlank_iff.2 hmem] at hb
      cases hb
    · generalize hcs : c :: rest = cs at hrule
      cases hrule with
      | integer hne hdigits =>
        rw [hdigits c (hcs ▸ List.mem_cons_self)] at hd
        cases hd
      | mark m hsymbol =>
        rw [← (List.cons.inj hcs).1] at hsymbol
        rw [Mark.ofChar?_eq_some.2 hsymbol] at hmark
        cases hmark

/-- An unknown token is written with a character that is neither a digit nor a mark. -/
lemma ofChar_eq_unknown (hrule : ∀ t rest, ¬Rule t (c :: rest)) :
    c.isDigit = false ∧ ofChar c = .unknown := by
  constructor
  · rw [← Bool.not_eq_true]
    intro hd
    obtain ⟨t, ht⟩ := rule_of_isDigit hd
    exact hrule t [] ht
  · unfold ofChar
    cases hmark : Mark.ofChar? c with
    | some m => exact absurd (.mark m (Mark.ofChar?_eq_some.1 hmark)) (hrule _ [])
    | none => rfl

end Token

/-! ## Tilings -/

/-- Where characters are put together, each of them stands among the second ones or among the first
ones. -/
lemma exists_of_append_eq_append_cons {chars rest before after : List Char} {c : Char}
    (h : chars ++ rest = before ++ c :: after) :
    (∃ more, before = chars ++ more ∧ rest = more ++ c :: after) ∨
      ∃ more, chars = before ++ c :: more := by
  rcases List.append_eq_append_iff.1 h with ⟨more, hbefore, hrest⟩ | ⟨more, hchars, hrest⟩
  · exact .inl ⟨more, hbefore, hrest⟩
  · cases more with
    | nil => exact .inl ⟨[], by rw [hchars, List.append_nil, List.append_nil], hrest.symm⟩
    | cons d more =>
      obtain ⟨rfl, -⟩ := List.cons.inj hrest
      exact .inr ⟨more, hchars⟩

namespace Lexeme

variable {column start : Nat} {cs : List Char} {ls : List Lexeme}

/-- Characters are tiled by blanks and written tokens, of which none ends between two digits. The
tokens stand in their order, the characters before them being counted. -/
inductive Tiles : Nat → Nat → List Char → List Lexeme → Prop
  | nil (column start : Nat) : Tiles column start [] []
  | blank {column start : Nat} {c : Char} {rest : List Char} {ls : List Lexeme}
      (hc : Token.isBlank c = true) (htiles : Tiles (column + 1) (start + c.utf8Size) rest ls) :
      Tiles column start (c :: rest) ls
  | token {column start : Nat} {t : Token} {chars rest : List Char} {ls : List Lexeme}
      (hwritten : Token.Written t chars) (hapart : ¬BetweenDigits chars rest)
      (htiles : Tiles (column + chars.length) (start + utf8Length chars) rest ls) :
      Tiles column start (chars ++ rest) (⟨t, chars, column, start⟩ :: ls)

/-- The tokens of characters tile them. -/
lemma tiles_cut (column start : Nat) (cs : List Char) :
    Tiles column start cs (cut column start cs) := by
  induction column, start, cs using cut.induct with
  | case1 column start =>
    rw [cut_nil]
    exact .nil column start
  | case2 column start c rest hb ih =>
    rw [cut_blank hb]
    exact .blank hb ih
  | case3 column start c rest hb hd digits ih =>
    have hcs : c :: rest = digits ++ rest.dropWhile Char.isDigit := by
      simp [digits, List.takeWhile_append_dropWhile]
    have hdigits : ∀ d ∈ digits, d.isDigit = true := by
      intro d hmem
      rcases List.mem_cons.1 hmem with rfl | hmem
      · exact hd
      · exact List.mem_takeWhile_imp hmem
    have hapart : ¬BetweenDigits digits (rest.dropWhile Char.isDigit) := by
      rintro ⟨a, -, b, hfirst, -, hdigit⟩
      have hend := List.head?_dropWhile_not Char.isDigit rest
      rw [hfirst] at hend
      rw [hend] at hdigit
      cases hdigit
    rw [cut_digit (Bool.eq_false_iff.2 hb) hd, hcs]
    exact .token (.known (.integer (List.cons_ne_nil _ _) hdigits)) hapart ih
  | case4 column start c rest hb hd ih =>
    have hb := Bool.eq_false_iff.2 hb
    have hd := Bool.eq_false_iff.2 hd
    rw [cut_char hb hd]
    exact .token (Token.written_ofChar hb hd) (not_betweenDigits_singleton hd rest) ih

/-- The characters that are written for a token are cut into this token. -/
lemma cut_of_written {t : Token} {chars : List Char} (h : Token.Written t chars)
    (column start : Nat) : cut column start chars = [⟨t, chars, column, start⟩] := by
  cases h with
  | known hrule =>
    cases hrule with
    | @integer _ hne hdigits =>
      cases chars with
      | nil => exact absurd rfl hne
      | cons c rest =>
        have hc := hdigits c List.mem_cons_self
        have hrest : ∀ d ∈ rest, d.isDigit = true := fun d hd =>
          hdigits d (List.mem_cons_of_mem c hd)
        rw [cut_digit (Token.isBlank_of_isDigit hc) hc, List.takeWhile_eq_self_iff.2 hrest,
          List.dropWhile_eq_nil_iff.2 hrest, cut_nil, Token.ofDigits]
    | @mark m c hsymbol =>
      obtain ⟨hb, hd⟩ := Token.isBlank_and_isDigit_of_symbol hsymbol
      rw [cut_char hb hd, cut_nil, Token.ofChar, Mark.ofChar?_eq_some.2 hsymbol]
  | @unknown c hblank hrule =>
    obtain ⟨hd, htoken⟩ := Token.ofChar_eq_unknown hrule
    have hb : Token.isBlank c = false := Bool.eq_false_iff.2 fun h => hblank (Token.isBlank_iff.1 h)
    rw [cut_char hb hd, cut_nil, htoken]

namespace Tiles

/-- No token begins before the characters. -/
lemma start_le (h : Tiles column start cs ls) {l : Lexeme} (hl : l ∈ ls) : start ≤ l.start := by
  induction h with
  | nil column start => cases hl
  | blank hc htiles ih => exact Nat.le_trans (Nat.le_add_right _ _) (ih hl)
  | token hwritten hapart htiles ih =>
    rcases List.mem_cons.1 hl with rfl | hl
    · exact Nat.le_refl _
    · exact Nat.le_trans (Nat.le_add_right _ _) (ih hl)

/-- Each token ends before the next one begins. -/
lemma pairwise_stop_le_start (h : Tiles column start cs ls) :
    ls.Pairwise fun a b => a.stop ≤ b.start := by
  induction h with
  | nil column start => exact List.Pairwise.nil
  | blank hc htiles ih => exact ih
  | token hwritten hapart htiles ih =>
    exact List.pairwise_cons.2 ⟨fun b hb => htiles.start_le hb, ih⟩

/-- Each token is written with the characters that stand in its place, and with all the digits
there. -/
lemma exists_place (h : Tiles column start cs ls) {l : Lexeme} (hl : l ∈ ls) :
    Token.Written l.token l.chars ∧ ∃ before after, cs = before ++ l.chars ++ after ∧
      l.start = start + utf8Length before ∧ ¬BetweenDigits before l.chars ∧
      ¬BetweenDigits l.chars after := by
  induction h with
  | nil column start => cases hl
  | @blank column start c rest ls hc htiles ih =>
    obtain ⟨hwritten, before, after, rfl, hstart, hbefore, hafter⟩ := ih hl
    refine ⟨hwritten, c :: before, after, rfl, ?_, ?_, hafter⟩
    · rw [hstart, utf8Length, Nat.add_assoc]
    · exact not_betweenDigits_append hwritten.ne_nil
        (not_betweenDigits_singleton (Token.isDigit_of_isBlank hc) (before ++ l.chars ++ after))
        hbefore
  | @token column start t chars rest ls hwritten hapart htiles ih =>
    rcases List.mem_cons.1 hl with rfl | hl
    · exact ⟨hwritten, [], rest, rfl, rfl, not_betweenDigits_nil chars, hapart⟩
    · obtain ⟨hwritten', before, after, rfl, hstart, hbefore, hafter⟩ := ih hl
      refine ⟨hwritten', chars ++ before, after, ?_, ?_, ?_, hafter⟩
      · rw [List.append_assoc, List.append_assoc, List.append_assoc]
      · rw [hstart, utf8Length_append, Nat.add_assoc]
      · exact not_betweenDigits_append hwritten'.ne_nil hapart hbefore

/-- A character lies in a token if it is no blank. -/
lemma exists_covering_iff (h : Tiles column start cs ls) {before after : List Char} {c : Char}
    (hcs : cs = before ++ c :: after) :
    (∃ l ∈ ls, l.start ≤ start + utf8Length before ∧ start + utf8Length before < l.stop) ↔
      Token.isBlank c = false := by
  induction h generalizing before with
  | nil column start =>
    exact absurd hcs.symm (List.append_ne_nil_of_right_ne_nil before (List.cons_ne_nil c after))
  | @blank column start b rest ls hb htiles ih =>
    cases before with
    | nil =>
      obtain ⟨rfl, rfl⟩ := List.cons.inj hcs
      rw [hb]
      refine iff_of_false ?_ Bool.noConfusion
      rintro ⟨l, hl, hstart, -⟩
      have hle := htiles.start_le hl
      have hpos := b.utf8Size_pos
      rw [utf8Length] at hstart
      omega
    | cons d before =>
      obtain ⟨rfl, hrest⟩ := List.cons.inj hcs
      rw [utf8Length, ← Nat.add_assoc]
      exact ih hrest
  | @token column start t chars rest ls hwritten hapart htiles ih =>
    rcases exists_of_append_eq_append_cons hcs with ⟨more, rfl, hrest⟩ | ⟨more, rfl⟩
    · -- The character stands behind the first token.
      rw [List.exists_mem_cons_iff, utf8Length_append, ← Nat.add_assoc]
      refine (or_iff_right ?_).trans (ih hrest)
      rintro ⟨-, hstop⟩
      change _ < start + utf8Length chars at hstop
      omega
    · -- The character is one of the first token.
      have hlast := utf8Length_append before (c :: more)
      have hpos := c.utf8Size_pos
      rw [utf8Length] at hlast
      refine iff_of_true ⟨_, List.mem_cons_self, Nat.le_add_right _ _, ?_⟩
        (hwritten.isBlank_eq_false (List.mem_append_right _ List.mem_cons_self))
      change _ < start + utf8Length (before ++ c :: more)
      omega

end Tiles

end Lexeme

end DiceNotation
