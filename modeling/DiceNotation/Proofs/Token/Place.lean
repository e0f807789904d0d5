import DiceNotation.Token.Lexer
import Mathlib.Tactic.Common
/-!
# The places of tokens

Every token of a text is a piece of it: the characters that it was cut from stand in the text, and
its column is the number of characters before them (`Lexeme.piece_of_mem_ofText`). The columns grow
from token to token (`Lexeme.pairwise_column`), so a position tells the token that stands there, and
no token stands at the end (`Lexeme.indexAt`).
-/

namespace DiceNotation

namespace Lexeme

variable {l : Lexeme} {column start : Nat} {cs : List Char}

/-! ## Pieces -/

/-- The token is a piece of the characters, when `column` characters stood before them. -/
structure Piece (column : Nat) (cs : List Char) (l : Lexeme) : Prop where
  /-- It was cut from at least one character. -/
  chars_ne_nil : l.chars ≠ []
  /-- Its characters stand where its column says. -/
  place : ∃ before after, cs = before ++ l.chars ++ after ∧ l.column = column + before.length

/-- A piece of characters is one of longer characters too. -/
lemma Piece.of_append (first : List Char) {rest : List Char}
    (h : Piece (column + first.length) rest l) : Piece column (first ++ rest) l := by
  obtain ⟨before, after, hrest, hcolumn⟩ := h.place
  refine ⟨h.chars_ne_nil, first ++ before, after, ?_, ?_⟩
  · rw [hrest, ← List.append_assoc, ← List.append_assoc]
  · rw [hcolumn, List.length_append, Nat.add_assoc]

/-- A piece does not begin before the characters and ends within them. -/
lemma Piece.bounds (h : Piece column cs l) :
    column ≤ l.column ∧ l.column < column + cs.length := by
  obtain ⟨before, after, hcs, hcolumn⟩ := h.place
  have hpos : 0 < l.chars.length := List.length_pos_iff.2 h.chars_ne_nil
  have hlength : cs.length = before.length + l.chars.length + after.length := by
    rw [hcs, List.length_append, List.length_append]
  omega

/-- All tokens are pieces of the characters that they were cut from. -/
lemma piece_of_mem_cut (h : l ∈ cut column start cs) : Piece column cs l := by
  induction column, start, cs using cut.induct with
  | case1 column start => simp at h
  | case2 column start c rest hb ih =>
    rw [cut_blank hb] at h
    exact (ih h).of_append [c]
  | case3 column start c rest hb hd digits ih =>
    have hdigits : c :: rest = digits ++ rest.dropWhile Char.isDigit := by
      simp [digits, List.takeWhile_append_dropWhile]
    rw [cut_digit (Bool.eq_false_iff.2 hb) hd] at h
    rcases List.mem_cons.1 h with rfl | h
    · exact ⟨List.cons_ne_nil _ _, [], _, hdigits, rfl⟩
    · rw [hdigits]
      exact (ih h).of_append digits
  | case4 column start c rest hb hd ih =>
    rw [cut_char (Bool.eq_false_iff.2 hb) (Bool.eq_false_iff.2 hd)] at h
    rcases List.mem_cons.1 h with rfl | h
    · exact ⟨List.cons_ne_nil _ _, [], rest, rfl, rfl⟩
    · exact (ih h).of_append [c]

/-- All tokens of a text are pieces of it. -/
lemma piece_of_mem_ofText {s : String} (h : l ∈ ofText s) : Piece 0 s.toList l :=
  piece_of_mem_cut h

/-! ## Columns -/

/-- The columns grow from token to token. -/
lemma pairwise_column_cut (column start : Nat) (cs : List Char) :
    (cut column start cs).Pairwise fun a b => a.column < b.column := by
  induction column, start, cs using cut.induct with
  | case1 column start => simp
  | case2 column start c rest hb ih =>
    rw [cut_blank hb]
    exact ih
  | case3 column start c rest hb hd digits ih =>
    rw [cut_digit (Bool.eq_false_iff.2 hb) hd]
    refine List.pairwise_cons.2 ⟨?_, ih⟩
    intro b hmem
    have hcolumn := (piece_of_mem_cut hmem).bounds.1
    change column < b.column
    omega
  | case4 column start c rest hb hd ih =>
    rw [cut_char (Bool.eq_false_iff.2 hb) (Bool.eq_false_iff.2 hd)]
    refine List.pairwise_cons.2 ⟨?_, ih⟩
    intro b hmem
    have hcolumn := (piece_of_mem_cut hmem).bounds.1
    change column < b.column
    omega

/-- The columns of a text grow from token to token. -/
lemma pairwise_column (s : String) : (ofText s).Pairwise fun a b => a.column < b.column :=
  pairwise_column_cut 0 0 s.toList

/-- A column belongs to one token at most. -/
lemma eq_of_column_eq {s : String} {i j : Nat} {a b : Lexeme} (ha : (ofText s)[i]? = some a)
    (hb : (ofText s)[j]? = some b) (h : a.column = b.column) : i = j := by
  obtain ⟨hi, rfl⟩ := List.getElem?_eq_some_iff.1 ha
  obtain ⟨hj, rfl⟩ := List.getElem?_eq_some_iff.1 hb
  have hgrow := List.pairwise_iff_getElem.1 (pairwise_column s)
  rcases Nat.lt_trichotomy i j with hij | hij | hji
  · have hlt := hgrow i j hi hj hij
    omega
  · exact hij
  · have hlt := hgrow j i hj hi hji
    omega

/-- The number of the token that stands at a position, or of all tokens where none stands there. -/
def indexAt (s : String) (position : Nat) : Nat :=
  (ofText s).findIdx fun l => l.column == position

/-- A token has its own number. -/
lemma indexAt_column {s : String} {i : Nat} (h : (ofText s)[i]? = some l) :
    indexAt s l.column = i := by
  obtain ⟨hi, hl⟩ := List.getElem?_eq_some_iff.1 h
  refine (List.findIdx_eq hi).2 ⟨?_, ?_⟩
  · rw [hl, beq_self_eq_true]
  · intro j hj
    have hj' : j < (ofText s).length := Nat.lt_trans hj hi
    rw [beq_eq_false_iff_ne]
    intro hcolumn
    have heq := eq_of_column_eq (List.getElem?_eq_getElem hj') h hcolumn
    omega

/-- No token stands at the end of the text. -/
lemma indexAt_length (s : String) : indexAt s s.length = (ofText s).length := by
  refine List.findIdx_eq_length_of_false ?_
  intro l hmem
  have hbounds := (piece_of_mem_ofText hmem).bounds
  rw [String.length_toList] at hbounds
  rw [beq_eq_false_iff_ne]
  omega

end Lexeme

end DiceNotation
