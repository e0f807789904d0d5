import DiceNotation.Proofs.Token.Spelling
import Mathlib
/-!
# Respelled texts

A text is respelled (`Respelled`) one character at a time (`Respelled.Step`): a blank is put in
somewhere but between two digits, or a letter that is a mark is written in the other case.

The words of a text are its tokens with the characters that they were cut from, without regard to
case (`Token.words`). A text has the words of its parts unless they meet between two digits
(`Token.words_append`), so it keeps its words when it is respelled (`Respelled.words_eq`).
-/

namespace DiceNotation

/-! ## Parts of a text -/

/-- Two parts of a text meet between two digits. -/
def BetweenDigits (before after : List Char) : Prop :=
  ∃ a ∈ before.getLast?, ∃ b ∈ after.head?, a.isDigit = true ∧ b.isDigit = true

/-- What stands further in front is of no account. -/
lemma BetweenDigits.of_append (first : List Char) {before after : List Char}
    (h : BetweenDigits before after) : BetweenDigits (first ++ before) after := by
  obtain ⟨a, ha, hrest⟩ := h
  exact ⟨a, List.mem_getLast?_append_of_mem_getLast? ha, hrest⟩

/-- Parts do not meet between two digits where one of the characters is none. -/
lemma not_betweenDigits_cons {before after : List Char} {c : Char} (hc : c.isDigit = false) :
    ¬BetweenDigits before (c :: after) := by
  rintro ⟨a, -, b, ⟨⟩, -, hb⟩
  rw [hc] at hb
  cases hb

/-- A run of digits ends with the part in which it stands, or before. -/
lemma span_append {c : Char} {rest after : List Char} (hc : c.isDigit = true)
    (h : ¬BetweenDigits (c :: rest) after) :
    (rest ++ after).takeWhile Char.isDigit = rest.takeWhile Char.isDigit ∧
      (rest ++ after).dropWhile Char.isDigit = rest.dropWhile Char.isDigit ++ after := by
  induction rest generalizing c with
  | nil =>
    cases after with
    | nil => exact ⟨rfl, rfl⟩
    | cons b after =>
      have hb : ¬b.isDigit = true := fun hb => h ⟨c, rfl, b, rfl, hc, hb⟩
      rw [List.nil_append, List.takeWhile_cons_of_neg hb, List.dropWhile_cons_of_neg hb]
      exact ⟨rfl, rfl⟩
  | cons d rest ih =>
    rw [List.cons_append]
    by_cases hd : d.isDigit = true
    · obtain ⟨htake, hdrop⟩ := ih hd fun hbetween => h (hbetween.of_append [c])
      rw [List.takeWhile_cons_of_pos hd, List.dropWhile_cons_of_pos hd,
        List.takeWhile_cons_of_pos hd, List.dropWhile_cons_of_pos hd, htake, hdrop]
      exact ⟨rfl, rfl⟩
    · rw [List.takeWhile_cons_of_neg hd, List.dropWhile_cons_of_neg hd,
        List.takeWhile_cons_of_neg hd, List.dropWhile_cons_of_neg hd]
      exact ⟨rfl, rfl⟩

namespace Lexeme

lemma utf8Length_append (cs ds : List Char) :
    utf8Length (cs ++ ds) = utf8Length cs + utf8Length ds := by
  induction cs with
  | nil => exact (Nat.zero_add _).symm
  | cons c cs ih => rw [List.cons_append, utf8Length, utf8Length, ih, Nat.add_assoc]

/-- A text is cut into the tokens of its parts, unless they meet between two digits. -/
lemma cut_append {column start : Nat} {cs ds : List Char} (h : ¬BetweenDigits cs ds) :
    cut column start (cs ++ ds) =
      cut column start cs ++ cut (column + cs.length) (start + utf8Length cs) ds := by
  induction column, start, cs using cut.induct with
  | case1 column start => simp [utf8Length]
  | case2 column start c rest hb ih =>
    have hrest : ¬BetweenDigits rest ds := fun hbetween => h (hbetween.of_append [c])
    rw [List.cons_append, cut_blank hb, cut_blank hb, ih hrest, List.length_cons, utf8Length,
      Nat.add_assoc, Nat.add_assoc, Nat.add_comm 1]
  | case3 column start c rest hb hd digits ih =>
    have hb := Bool.eq_false_iff.2 hb
    have hdigits : c :: rest = digits ++ rest.dropWhile Char.isDigit := by
      simp [digits, List.takeWhile_append_dropWhile]
    have hrest : ¬BetweenDigits (rest.dropWhile Char.isDigit) ds := by
      rw [hdigits] at h
      exact fun hbetween => h (hbetween.of_append digits)
    have hlength := (congrArg List.length hdigits).trans List.length_append
    have hbytes := (congrArg utf8Length hdigits).trans (utf8Length_append _ _)
    obtain ⟨htake, hdrop⟩ := span_append hd h
    rw [List.cons_append, cut_digit hb hd, cut_digit hb hd, htake, hdrop, List.cons_append, hlength,
      hbytes, ← Nat.add_assoc, ← Nat.add_assoc]
    exact congrArg _ (ih hrest)
  | case4 column start c rest hb hd ih =>
    have hb := Bool.eq_false_iff.2 hb
    have hd := Bool.eq_false_iff.2 hd
    have hrest : ¬BetweenDigits rest ds := fun hbetween => h (hbetween.of_append [c])
    rw [List.cons_append, cut_char hb hd, cut_char hb hd, ih hrest, List.length_cons, utf8Length,
      List.cons_append, Nat.add_assoc, Nat.add_assoc, Nat.add_comm 1]

end Lexeme

/-! ## Words -/

namespace Token

/-- The words of a text: its tokens, each with the characters that it was cut from in lower case. -/
def words (cs : List Char) : List (Token × List Char) :=
  (Lexeme.cut 0 0 cs).map fun l => (l.token, l.chars.map Char.toLower)

/-- Words do not depend on where the characters stand. -/
lemma map_word_cut (column start : Nat) (cs : List Char) :
    (Lexeme.cut column start cs).map (fun l => (l.token, l.chars.map Char.toLower)) = words cs :=
  map_cut (fun t chars => (t, chars.map Char.toLower)) column start 0 0 cs

/-- A text has the words of its parts, unless they meet between two digits. -/
lemma words_append {cs ds : List Char} (h : ¬BetweenDigits cs ds) :
    words (cs ++ ds) = words cs ++ words ds := by
  rw [words, Lexeme.cut_append h, List.map_append, map_word_cut, map_word_cut]

/-- A blank is part of no word. -/
lemma words_blank {c : Char} (h : isBlank c = true) (cs : List Char) :
    words (c :: cs) = words cs := by
  rw [words, Lexeme.cut_blank h, map_word_cut]

/-- A character that is no digit is a word. -/
lemma words_char {c : Char} (hb : isBlank c = false) (hd : c.isDigit = false) (cs : List Char) :
    words (c :: cs) = (ofChar c, [c.toLower]) :: words cs := by
  rw [words, Lexeme.cut_char hb hd, List.map_cons, map_word_cut]
  rfl

end Token

/-! ## Letters -/

/-- The letters that are marks, in lower case. -/
def Mark.letters : List Char := ['d', 'f', 'k', 'h', 'l']

/-- A character is its own lower case, or the upper case of that. -/
lemma eq_toLower_or_eq_toUpper (c : Char) : c = c.toLower ∨ c = c.toLower.toUpper := by
  by_cases h : c.isUpper = true
  · have hupper := Char.toUpper_eq_of_not_isLower (Char.not_isLower_of_isUpper h)
    rw [Char.toUpper_toLower_eq_toUpper, hupper]
    exact .inr rfl
  · exact .inl (Char.toLower_eq_of_not_isUpper h).symm

/-- A letter that is a mark is neither a blank nor a digit, and it is the same token in either case.
-/
lemma Token.ofChar_of_letter {c : Char} (h : c.toLower ∈ Mark.letters) :
    isBlank c = false ∧ c.isDigit = false ∧ ofChar c = ofChar c.toLower := by
  have hcase := eq_toLower_or_eq_toUpper c
  generalize c.toLower = x at h hcase ⊢
  simp only [Mark.letters, List.mem_cons, List.not_mem_nil, or_false] at h
  rcases hcase with rfl | rfl
  · rcases h with rfl | rfl | rfl | rfl | rfl <;> decide
  · rcases h with rfl | rfl | rfl | rfl | rfl <;> decide

/-! ## Respellings -/

namespace Respelled

/-- One character of a text is respelled. -/
inductive Step : List Char → List Char → Prop
  /-- A blank is put in, but not between two digits. -/
  | blank {before after : List Char} {b : Char} (hb : b ∈ [' ', '\t', '\r', '\n'])
      (hpoint : ¬BetweenDigits before after) : Step (before ++ after) (before ++ b :: after)
  /-- A letter that is a mark is written in either case. -/
  | letter {before after : List Char} {c c' : Char} (hc : c.toLower ∈ Mark.letters)
      (hcase : c'.toLower = c.toLower) : Step (before ++ c :: after) (before ++ c' :: after)

end Respelled

/-- The second text is a respelling of the first one. -/
def Respelled : List Char → List Char → Prop := Relation.ReflTransGen Respelled.Step

namespace Respelled

variable {cs ds : List Char}

/-- A text keeps its words when one of its characters is respelled. -/
lemma Step.words_eq (h : Step cs ds) : Token.words ds = Token.words cs := by
  cases h with
  | @blank before after b hb hpoint =>
    have hblank : Token.isBlank b = true := Token.isBlank_iff.2 hb
    rw [Token.words_append (not_betweenDigits_cons (Token.isDigit_of_isBlank hblank)),
      Token.words_blank hblank, Token.words_append hpoint]
  | @letter before after c c' hc hcase =>
    obtain ⟨hb, hd, htoken⟩ := Token.ofChar_of_letter hc
    obtain ⟨hb', hd', htoken'⟩ := Token.ofChar_of_letter (c := c') (hcase ▸ hc)
    rw [Token.words_append (not_betweenDigits_cons hd), Token.words_char hb hd, htoken,
      Token.words_append (not_betweenDigits_cons hd'), Token.words_char hb' hd', htoken', hcase]

/-- A text keeps its words when it is respelled. -/
lemma words_eq (h : Respelled cs ds) : Token.words ds = Token.words cs := by
  induction h with
  | refl => rfl
  | tail h hstep ih => rw [hstep.words_eq, ih]

end Respelled

end DiceNotation
