import DiceNotation.Proofs.Token.Tiling
/-!
# The tokens of a text partition it

A token takes up the bytes from its start to its end. Of what the tokens of a text are, all is said
here in terms of positions of the text, of which there is one in front of every character, one at
the end, and none within a character.

A token of a text (`Lexeme.StandsIn`) begins and ends at such positions, its own text stands between
them, and no digit stands next to an integer. The tokens stand one after the other, and a position
lies in one of them just if no blank stands there (`Lexeme.ofText_partitions`).
-/

namespace DiceNotation

namespace Lexeme

/-! ## Positions -/

/-- The bytes of characters are those of the string of them. -/
lemma utf8ByteSize_ofList (cs : List Char) : (String.ofList cs).utf8ByteSize = utf8Length cs := by
  induction cs with
  | nil => rfl
  | cons c cs ih =>
    rw [String.utf8ByteSize_ofList, String.utf8Len_cons, ← String.utf8ByteSize_ofList, ih,
      utf8Length, Nat.add_comm]

/-- Characters have bytes. -/
lemma utf8Length_pos {cs : List Char} (h : cs ≠ []) : 0 < utf8Length cs := by
  obtain ⟨c, rest, rfl⟩ := List.exists_cons_of_ne_nil h
  exact Nat.add_pos_left c.utf8Size_pos _

/-- The byte at which a position stands is the number of bytes before it. -/
lemma byteIdx_of_splits {s before after : String} {p : s.Pos} (h : p.Splits before after) :
    p.offset.byteIdx = utf8Length before.toList := by
  rw [h.offset_eq_rawEndPos, String.byteIdx_rawEndPos, ← utf8ByteSize_ofList, String.ofList_toList]

/-- The character in front of a position is the last one before it. -/
lemma getLast?_of_splits {s after : String} {before : List Char} {p r : s.Pos}
    (hp : p.Splits (String.ofList before) after) (hr : r ≠ s.endPos)
    (h : (r.next hr).offset.byteIdx = p.offset.byteIdx) :
    before.getLast? = some (r.get hr) := by
  have hpos : r.next hr = p := String.Pos.ext (String.Pos.Raw.ext h)
  have hbefore := (r.splits_next hr).eq_left (hpos ▸ hp)
  rw [← String.toList_ofList (l := before), ← hbefore, String.toList_append,
    String.toList_singleton, List.getLast?_concat]

/-- The character at a position is the first one behind it. -/
lemma head?_of_splits {s before : String} {after : List Char} {q r : s.Pos}
    (hq : q.Splits before (String.ofList after)) (hr : r ≠ s.endPos)
    (h : r.offset.byteIdx = q.offset.byteIdx) : after.head? = some (r.get hr) := by
  have hpos : r = q := String.Pos.ext (String.Pos.Raw.ext h)
  have hafter := (r.splits_next_right hr).eq_right (hpos ▸ hq)
  rw [← String.toList_ofList (l := after), ← hafter, String.toList_append,
    String.toList_singleton, List.singleton_append, List.head?_cons]

/-! ## The tokens of a text -/

/-- The token covers a position of a text. -/
def Covers (l : Lexeme) {s : String} (p : s.Pos) : Prop :=
  l.start ≤ p.offset.byteIdx ∧ p.offset.byteIdx < l.stop

/-- What it is to be one of the tokens of a text. -/
structure StandsIn (l : Lexeme) (s : String) : Prop where
  /-- It is not empty. -/
  start_lt_stop : l.start < l.stop
  /-- It begins and ends at positions of the text, and its own text stands between them. -/
  slice : ∃ (p q : s.Pos) (h : p ≤ q), p.offset.byteIdx = l.start ∧ q.offset.byteIdx = l.stop ∧
    (s.slice p q h).copy = l.text
  /-- It is written as its rule has it. -/
  written : Token.Written l.token l.chars
  /-- No digit stands next to an integer. -/
  maximal : ∀ n, l.token = .integer n → ∀ (p : s.Pos) (h : p ≠ s.endPos),
    (p.next h).offset.byteIdx = l.start ∨ p.offset.byteIdx = l.stop → (p.get h).isDigit = false
  /-- It is the only token of its own text. -/
  alone : ofText l.text = [⟨l.token, l.chars, 0, 0⟩]

/-- The tokens of a text stand in it. -/
lemma standsIn_of_mem_ofText {s : String} {l : Lexeme} (hl : l ∈ ofText s) : l.StandsIn s := by
  obtain ⟨hwritten, before, after, htext, hstart, hbefore, hafter⟩ :=
    (tiles_cut 0 0 s.toList).exists_place hl
  have hs : s = String.ofList before ++ (l.text ++ String.ofList after) := by
    rw [← String.ofList_toList (s := s), htext, List.append_assoc, String.ofList_append,
      String.ofList_append, text]
  have hs' : s = String.ofList before ++ l.text ++ String.ofList after := by
    rw [String.append_assoc, ← hs]
  have hp := String.Pos.splits_ofEqAppend hs
  have hq := String.Pos.splits_ofEqAppend hs'
  have hpstart : (String.Pos.ofEqAppend hs).offset.byteIdx = l.start := by
    rw [byteIdx_of_splits hp, String.toList_ofList, hstart, Nat.zero_add]
  have hqstop : (String.Pos.ofEqAppend hs').offset.byteIdx = l.stop := by
    rw [byteIdx_of_splits hq, String.toList_append, String.toList_ofList, text,
      String.toList_ofList, utf8Length_append, stop, hstart, Nat.zero_add]
  refine ⟨?_, ?_, hwritten, ?_, ?_⟩
  · exact Nat.lt_add_of_pos_right (utf8Length_pos hwritten.ne_nil)
  · obtain ⟨hle, hcopy⟩ := String.copy_slice_eq_iff_splits.2 ⟨_, _, hp, hq⟩
    exact ⟨_, _, hle, hpstart, hqstop, hcopy⟩
  · intro n hn r hr hnext
    rw [hn] at hwritten
    have hdigits : ∀ d ∈ l.chars, d.isDigit = true := fun d hd => hwritten.isDigit hd
    rcases hnext with hnext | hnext
    · exact isDigit_of_getLast? hwritten.ne_nil hdigits hbefore
        (getLast?_of_splits hp hr (hnext.trans hpstart.symm))
    · exact isDigit_of_head? hwritten.ne_nil hdigits hafter
        (head?_of_splits hq hr (hnext.trans hqstop.symm))
  · rw [ofText, text, String.toList_ofList, cut_of_written hwritten]

/-- A position is covered where no blank stands. -/
lemma exists_covers_iff {s : String} (p : s.Pos) (h : p ≠ s.endPos) :
    (∃ l ∈ ofText s, l.Covers p) ↔ p.get h ∉ [' ', '\t', '\r', '\n'] := by
  have hsplit := p.splits_next_right h
  have htext : s.toList =
      (s.sliceTo p).copy.toList ++ p.get h :: (s.sliceFrom (p.next h)).copy.toList := by
    conv_lhs => rw [hsplit.eq_append]
    rw [String.toList_append, String.toList_append, String.toList_singleton, List.singleton_append]
  have hcovered := (tiles_cut 0 0 s.toList).exists_covering_iff htext
  rw [Nat.zero_add, ← byteIdx_of_splits hsplit] at hcovered
  rw [← Token.isBlank_iff, Bool.not_eq_true]
  exact hcovered

/-- The tokens of a text partition it. Each of them stands in it and ends before the next one
begins, and the characters outside of all tokens are the blanks. -/
theorem ofText_partitions (s : String) :
    (ofText s).Pairwise (fun a b => a.stop ≤ b.start) ∧ (∀ l ∈ ofText s, l.StandsIn s) ∧
      ∀ (p : s.Pos) (h : p ≠ s.endPos),
        (∃ l ∈ ofText s, l.Covers p) ↔ p.get h ∉ [' ', '\t', '\r', '\n'] :=
  ⟨(tiles_cut 0 0 s.toList).pairwise_stop_le_start, fun _ => standsIn_of_mem_ofText,
    exists_covers_iff⟩

/-- In `7d٣⇥12`, with a tabulator where the arrow is, the foreign digit is unknown and is two bytes
long, the number behind it is one token as a whole, and the tabulator lies in no token. -/
theorem ofText_partitions_of_foreign_digit :
    (∃ a ∈ ofText "7d٣\t12", ∃ b ∈ ofText "7d٣\t12",
      (a.token, a.start, a.stop) = (.unknown, 2, 4) ∧ a.StandsIn "7d٣\t12" ∧
      (b.token, b.start, b.stop) = (.integer 12, 5, 7) ∧ b.StandsIn "7d٣\t12") ∧
    ∃ (p : "7d٣\t12".Pos) (h : p ≠ "7d٣\t12".endPos), p.offset.byteIdx = 4 ∧ p.get h = '\t' ∧
      ∀ l ∈ ofText "7d٣\t12", ¬l.Covers p := by
  have htokens : ofText "7d٣\t12" = [⟨.integer 7, ['7'], 0, 0⟩, ⟨.mark .d, ['d'], 1, 1⟩,
      ⟨.unknown, ['٣'], 2, 2⟩, ⟨.integer 12, ['1', '2'], 4, 5⟩] := by
    decide +kernel
  obtain ⟨-, hstand, hcover⟩ := ofText_partitions "7d٣\t12"
  constructor
  · refine ⟨⟨.unknown, ['٣'], 2, 2⟩, ?_, ⟨.integer 12, ['1', '2'], 4, 5⟩, ?_, rfl, hstand _ ?_, rfl,
      hstand _ ?_⟩
    all_goals
      rw [htokens]
      decide
  · obtain ⟨p, hend, hplace, hget⟩ : ∃ (p : "7d٣\t12".Pos) (h : p ≠ "7d٣\t12".endPos),
        p.offset.byteIdx = 4 ∧ p.get h = '\t' :=
      ⟨"7d٣\t12".pos ⟨4⟩ (by decide), by decide, by decide, by decide⟩
    refine ⟨p, hend, hplace, hget, fun l hl hcovers => ?_⟩
    have hnone := (hcover p hend).1 ⟨l, hl, hcovers⟩
    rw [hget] at hnone
    exact hnone (by decide)

end Lexeme

end DiceNotation
