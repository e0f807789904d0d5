import DiceNotation.Proofs.Expr.FirstFault
import DiceNotation.Proofs.Token.Respelling
import Mathlib
/-!
# Blanks and case make no difference

A respelled text is the same expression, or it is refused for the same fault at the same token
(`Expr.ofText_respelled`). Reading sees the tokens of a text only, and these are the same; the place
of the fault moves with its token.
-/

namespace DiceNotation

namespace ParseError

/-- The place of an error is the token number `i` of a text: the position is the column of this
token, which is the number of characters before it and belongs to no other token, and the slice is
its characters. -/
def IsAt (err : ParseError) (s : String) (i : Nat) : Prop :=
  ∃ l before after, (Lexeme.ofText s)[i]? = some l ∧ s.toList = before ++ l.chars ++ after ∧
    l.column = before.length ∧ err.position = before.length ∧
    Lexeme.indexAt s err.position = i ∧ err.slice = String.ofList l.chars

/-- The place of an error is the end of a text. -/
def IsAtEnd (err : ParseError) (s : String) : Prop := err.position = s.length ∧ err.slice = ""

variable {s : String} {i : Nat} {l : Lexeme}

/-- The fault of a token is placed at the token. -/
lemma isAt_locate (h : (Lexeme.ofText s)[i]? = some l) (fault : Fault) :
    (locate s (Lexeme.ofText s) i fault).IsAt s i := by
  obtain ⟨before, after, hplace, hcolumn⟩ :=
    (Lexeme.piece_of_mem_ofText (List.mem_of_getElem? h)).place
  rw [Nat.zero_add] at hcolumn
  rw [locate_of_getElem? h]
  exact ⟨l, before, after, h, hplace, hcolumn, hcolumn, Lexeme.indexAt_column h, rfl⟩

/-- The fault of a missing token is placed at the end. -/
lemma isAtEnd_locate (h : (Lexeme.ofText s)[i]? = none) (fault : Fault) :
    (locate s (Lexeme.ofText s) i fault).IsAtEnd s := by
  rw [locate, h]
  exact ⟨rfl, rfl⟩

end ParseError

namespace Lexeme

variable {s s' : String}

/-- Texts with the same words have the same tokens. -/
lemma map_token_of_words_eq (h : Token.words s'.toList = Token.words s.toList) :
    (ofText s').map Lexeme.token = (ofText s).map Lexeme.token := by
  have hfst := congrArg (List.map Prod.fst) h
  rwa [Token.words, Token.words, List.map_map, List.map_map] at hfst

/-- Texts with the same words have, at each number, tokens that were cut from the same characters,
without regard to case. -/
lemma exists_of_words_eq (h : Token.words s'.toList = Token.words s.toList) {i : Nat} {l : Lexeme}
    (hl : (ofText s)[i]? = some l) :
    ∃ l', (ofText s')[i]? = some l' ∧ l'.text.toLower = l.text.toLower := by
  have hword : (Token.words s'.toList)[i]? = some (l.token, l.chars.map Char.toLower) := by
    have hl' : (cut 0 0 s.toList)[i]? = some l := hl
    rw [h, Token.words, List.getElem?_map, hl']
    rfl
  rw [Token.words, List.getElem?_map, Option.map_eq_some_iff] at hword
  obtain ⟨l', hl', hsame⟩ := hword
  refine ⟨l', hl', String.toList_inj.1 ?_⟩
  rw [String.toLower, String.toLower, String.toList_map, String.toList_map, text, text,
    String.toList_ofList, String.toList_ofList]
  exact congrArg Prod.snd hsame

end Lexeme

namespace Expr

variable {s s' : String}

/-- A text whose tokens cannot be read to their end is refused where reading fails. -/
lemma ofText_of_error {i : Nat} {fault : Fault}
    (h : ofTokens ((Lexeme.ofText s).map Lexeme.token) = .error (i, fault)) :
    ofText s = .error (.locate s (Lexeme.ofText s) i fault) := by
  simp only [ofText, h]

/-- Blanks and the case of letters make no difference. A respelled text has the same tokens and is
the same expression, or both texts are refused for the same fault: either at the same token, of
which the slices differ in case only, or at their ends, where a token is missing. -/
theorem ofText_respelled (h : Respelled s.toList s'.toList) :
    (Lexeme.ofText s').map Lexeme.token = (Lexeme.ofText s).map Lexeme.token ∧
      ((∃ e, ofText s = .ok e ∧ ofText s' = .ok e) ∨
        ∃ err err', ofText s = .error err ∧ ofText s' = .error err' ∧ err'.fault = err.fault ∧
          ((∃ i, err.IsAt s i ∧ err'.IsAt s' i ∧ err'.slice.toLower = err.slice.toLower) ∨
            err.IsAtEnd s ∧ err'.IsAtEnd s' ∧
              ∃ expected, err.fault = .unexpected none expected)) := by
  have hwords := h.words_eq
  have htokens := Lexeme.map_token_of_words_eq hwords
  refine ⟨htokens, ?_⟩
  cases hread : ofTokens ((Lexeme.ofText s).map Lexeme.token) with
  | ok e => exact .inl ⟨e, ofText_eq_ok.2 hread, ofText_eq_ok.2 (htokens ▸ hread)⟩
  | error located =>
    obtain ⟨i, fault⟩ := located
    refine .inr ⟨_, _, ofText_of_error hread, ofText_of_error (htokens ▸ hread), ?_, ?_⟩
    · rw [ParseError.fault_locate, ParseError.fault_locate]
    · obtain ⟨before, after, r, hsplit, hi, -, hfails⟩ := Reading.exists_fails hread
      rw [Nat.zero_add] at hi
      have hi' : ((Lexeme.ofText s).map Lexeme.token)[i]? = after.head? := by
        rw [hsplit, hi, List.getElem?_append_right (Nat.le_refl _), Nat.sub_self,
          List.head?_eq_getElem?]
      rw [List.getElem?_map] at hi'
      cases hfails with
      | token hstep =>
        obtain ⟨l, hl, -⟩ := Option.map_eq_some_iff.1 hi'
        obtain ⟨l', hl', hslice⟩ := Lexeme.exists_of_words_eq hwords hl
        refine .inl ⟨i, ParseError.isAt_locate hl fault, ParseError.isAt_locate hl' fault, ?_⟩
        rwa [ParseError.locate_of_getElem? hl, ParseError.locate_of_getElem? hl']
      | atEnd hfinish =>
        have hnone := Option.map_eq_none_iff.1 hi'
        have hnone' : (Lexeme.ofText s')[i]? = none := by
          rw [← Option.map_eq_none_iff, ← List.getElem?_map, htokens, List.getElem?_map, hnone]
          rfl
        refine .inr ⟨ParseError.isAtEnd_locate hnone fault, ParseError.isAtEnd_locate hnone' fault,
          ?_⟩
        rw [ParseError.fault_locate]
        exact ⟨_, Reading.fault_of_finish hfinish⟩

/-- Where a selector is missing, a tab before the throw goes on moves the fault by one, and the
letter that stands there is told in its own case. -/
theorem ofText_respelled_of_selector :
    ∃ err err', ofText "2d20kd6" = .error err ∧ ofText "2d20\tkD6" = .error err' ∧
      err'.fault = err.fault ∧ (err.position, err.slice) = (5, "d") ∧
      (err'.position, err'.slice) = (6, "D") ∧
      ∃ i, err.IsAt "2d20kd6" i ∧ err'.IsAt "2d20\tkD6" i := by
  have hrespelled : Respelled "2d20kd6".toList "2d20\tkD6".toList := by
    have htab : Respelled.Step "2d20kd6".toList "2d20\tkd6".toList :=
      @Respelled.Step.blank ['2', 'd', '2', '0'] ['k', 'd', '6'] '\t' (by decide)
        (not_betweenDigits_cons (by decide))
    have hletter : Respelled.Step "2d20\tkd6".toList "2d20\tkD6".toList :=
      @Respelled.Step.letter ['2', 'd', '2', '0', '\t', 'k'] ['6'] 'd' 'D' (by decide) (by decide)
    exact .tail (.single htab) hletter
  have hread : ofText "2d20kd6" =
      .error ⟨.unexpected (some (.mark .d)) [.mark .highest, .mark .lowest], 5, "d"⟩ := by
    decide +kernel
  have hread' : ofText "2d20\tkD6" =
      .error ⟨.unexpected (some (.mark .d)) [.mark .highest, .mark .lowest], 6, "D"⟩ := by
    decide +kernel
  obtain ⟨-, ⟨e, hok, -⟩ | ⟨err, err', herr, herr', hfault, hplace⟩⟩ := ofText_respelled hrespelled
  · rw [hread] at hok
    cases hok
  · rw [hread] at herr
    rw [hread'] at herr'
    cases herr
    cases herr'
    refine ⟨_, _, hread, hread', hfault, rfl, rfl, ?_⟩
    rcases hplace with ⟨i, hat, hat', -⟩ | ⟨⟨hend, -⟩, -⟩
    · exact ⟨i, hat, hat'⟩
    · exact absurd hend (by decide)

end Expr

end DiceNotation
