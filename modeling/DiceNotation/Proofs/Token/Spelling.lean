import DiceNotation.Token.Lexer
import Mathlib.Tactic.Common
/-!
# The tokens of written characters

Where characters stand in a text makes no difference to their tokens (`Token.ofChars`): a space is
passed over, a symbol is the token of its mark, and the digits of a number are the token of the
number as long as no digit follows them.

So a spelling of tokens (`Token.Spells`) is a sequence of characters that stands for them wherever
no digit follows, and the spelling of a whole is put together from those of its parts.
-/

namespace DiceNotation

namespace Token

/-- The tokens of characters, wherever they stand. -/
def ofChars (cs : List Char) : List Token := (Lexeme.cut 0 0 cs).map Lexeme.token

/-- The characters begin with no digit. -/
def NoDigit (cs : List Char) : Prop := ∀ c ∈ cs.head?, c.isDigit = false

/-- A digit is no blank. -/
lemma isBlank_of_isDigit {c : Char} (h : c.isDigit = true) : isBlank c = false := by
  by_contra hblank
  rw [Bool.not_eq_false] at hblank
  simp only [isBlank, Bool.or_eq_true, beq_iff_eq, or_assoc] at hblank
  rcases hblank with rfl | rfl | rfl | rfl
  all_goals exact absurd h (by decide)

/-- A blank is no digit. -/
lemma isDigit_of_isBlank {c : Char} (h : isBlank c = true) : c.isDigit = false := by
  rw [← Bool.not_eq_true]
  intro hd
  rw [isBlank_of_isDigit hd] at h
  cases h

/-- Tokens, and what they were cut from, do not depend on where the characters stand. -/
lemma map_cut {α : Type} (f : Token → List Char → α) (column start column' start' : Nat)
    (cs : List Char) :
    (Lexeme.cut column start cs).map (fun l => f l.token l.chars) =
      (Lexeme.cut column' start' cs).map fun l => f l.token l.chars := by
  induction column, start, cs using Lexeme.cut.induct generalizing column' start' with
  | case1 column start => simp
  | case2 column start c rest hb ih =>
    rw [Lexeme.cut_blank hb, Lexeme.cut_blank hb]
    exact ih _ _
  | case3 column start c rest hb hd digits ih =>
    have hb := Bool.eq_false_iff.2 hb
    rw [Lexeme.cut_digit hb hd, Lexeme.cut_digit hb hd, List.map_cons, List.map_cons]
    exact congrArg _ (ih _ _)
  | case4 column start c rest hb hd ih =>
    have hb := Bool.eq_false_iff.2 hb
    have hd := Bool.eq_false_iff.2 hd
    rw [Lexeme.cut_char hb hd, Lexeme.cut_char hb hd, List.map_cons, List.map_cons]
    exact congrArg _ (ih _ _)

/-- Tokens do not depend on where the characters stand. -/
lemma map_token_cut (column start column' start' : Nat) (cs : List Char) :
    (Lexeme.cut column start cs).map Lexeme.token =
      (Lexeme.cut column' start' cs).map Lexeme.token :=
  map_cut (fun t _ => t) column start column' start' cs

/-- No characters are no tokens. -/
lemma ofChars_nil : ofChars [] = [] := by
  rw [ofChars, Lexeme.cut_nil, List.map_nil]

/-- A space parts tokens. -/
lemma ofChars_space (rest : List Char) : ofChars (' ' :: rest) = ofChars rest := by
  rw [ofChars, Lexeme.cut_blank (by decide)]
  exact map_token_cut _ _ _ _ rest

/-- A symbol is the token of its mark. -/
lemma ofChars_symbol (m : Mark) (rest : List Char) :
    ofChars (m.symbol :: rest) = .mark m :: ofChars rest := by
  have hb : isBlank m.symbol = false := by cases m <;> decide
  have hd : m.symbol.isDigit = false := by cases m <;> decide
  rw [ofChars, Lexeme.cut_char hb hd, List.map_cons, ofChar, Mark.ofChar?_symbol]
  exact congrArg _ (map_token_cut _ _ _ _ rest)

/-- The digits of a number are one integer, where no digit follows. -/
lemma ofChars_toDigits (n : Nat) {rest : List Char} (h : NoDigit rest) :
    ofChars (Nat.toDigits 10 n ++ rest) = .integer n :: ofChars rest := by
  have hall : ∀ c ∈ Nat.toDigits 10 n, c.isDigit = true := fun c hc =>
    Nat.isDigit_of_mem_toDigits (by decide) (by decide) hc
  have hnone : rest.takeWhile Char.isDigit = [] ∧ rest.dropWhile Char.isDigit = rest := by
    cases rest with
    | nil => exact ⟨rfl, rfl⟩
    | cons c rest =>
      have hc : c.isDigit = false := h c rfl
      simp [hc]
  have hvalue : ofDigits (Nat.toDigits 10 n) = .integer n := by
    rw [ofDigits, Nat.ofDigitChars_ten_toDigits]
  cases hdigits : Nat.toDigits 10 n with
  | nil => exact absurd hdigits Nat.toDigits_ne_nil
  | cons c digits =>
    rw [hdigits] at hall hvalue
    have hc := hall c List.mem_cons_self
    have hrest : ∀ d ∈ digits, d.isDigit = true := fun d hd => hall d (List.mem_cons_of_mem c hd)
    rw [ofChars, List.cons_append, Lexeme.cut_digit (isBlank_of_isDigit hc) hc,
      List.takeWhile_append_of_pos hrest, List.dropWhile_append_of_pos hrest, hnone.1, hnone.2,
      List.append_nil, List.map_cons, hvalue]
    exact congrArg _ (map_token_cut _ _ _ _ rest)

/-! ## Spellings -/

/-- The characters are a spelling of the tokens: they stand for them wherever no digit follows. -/
def Spells (cs : List Char) (ts : List Token) : Prop :=
  ∀ rest, NoDigit rest → ofChars (cs ++ rest) = ts ++ ofChars rest

/-- A symbol is no digit. -/
lemma noDigit_symbol (m : Mark) (rest : List Char) : NoDigit (m.symbol :: rest) := by
  rintro c ⟨⟩
  cases m <;> decide

/-- Where no digit comes first and none comes after it, there is none at the beginning. -/
lemma NoDigit.append {cs rest : List Char} (h : NoDigit cs) (hr : NoDigit rest) :
    NoDigit (cs ++ rest) := by
  cases cs with
  | nil => exact hr
  | cons c cs => exact h

namespace Spells

variable {cs ds : List Char} {ts us : List Token}

lemma nil : Spells [] [] := fun _ _ => rfl

lemma digits (n : Nat) : Spells (Nat.toDigits 10 n) [.integer n] :=
  fun _ h => ofChars_toDigits n h

/-- A symbol may be followed by anything. -/
lemma symbol (m : Mark) (h : Spells cs ts) : Spells (m.symbol :: cs) (.mark m :: ts) := by
  intro rest hr
  rw [List.cons_append, ofChars_symbol, h rest hr, List.cons_append]

/-- A space spells nothing. -/
lemma space (h : Spells cs ts) : Spells (' ' :: cs) ts := by
  intro rest hr
  rw [List.cons_append, ofChars_space, h rest hr]

/-- Spellings are put together where the second one does not begin with a digit. -/
lemma append (h : Spells cs ts) (hd : NoDigit ds) (h' : Spells ds us) :
    Spells (cs ++ ds) (ts ++ us) := by
  intro rest hr
  rw [List.append_assoc, h (ds ++ rest) (hd.append hr), h' rest hr, List.append_assoc]

/-- A whole text that is a spelling has the tokens that it spells. -/
lemma tokens_ofText {s : String} (h : Spells s.toList ts) :
    (Lexeme.ofText s).map Lexeme.token = ts := by
  have hall := h [] nofun
  rwa [List.append_nil, ofChars_nil, List.append_nil] at hall

/-- All known tokens have a spelling, with a space before each of them. -/
lemma exists_spells (h : .unknown ∉ ts) : ∃ cs, Spells cs ts ∧ NoDigit cs := by
  induction ts with
  | nil => exact ⟨[], nil, nofun⟩
  | cons t ts ih =>
    obtain ⟨cs, hcs, hfirst⟩ := ih fun hmem => h (List.mem_cons_of_mem t hmem)
    have hspace : ∀ rest, NoDigit (' ' :: rest) := by
      rintro rest c ⟨⟩
      decide
    cases t with
    | integer n =>
      exact ⟨' ' :: (Nat.toDigits 10 n ++ cs), ((digits n).append hfirst hcs).space, hspace _⟩
    | mark m => exact ⟨' ' :: m.symbol :: cs, (symbol m hcs).space, hspace _⟩
    | unknown => exact absurd List.mem_cons_self h

end Spells

end Token

end DiceNotation
