import DiceNotation.Proofs.Descent.Throw
import DiceNotation.Proofs.Grammar.Complete
import Mathlib.Tactic.Common
/-!
# Recursive descent agrees with reading token by token

Reading by recursive descent gives the same answer for every text as reading token by token
(`Descent.ofText_eq`): the same expression, or the same failure at the same place.

The two part where an integer comes before a `d` and the throw fails. The one reader goes back then
and takes the integer for a number, while the other one has failed. But nothing goes on with the `d`
behind the number, and whatever is recorded there is not as far (`Descent.Lost`). In all other cases
both readers have read the same part of the text, in the same way (`Descent.Behind`).
-/

namespace DiceNotation

open Grammar

/-- All operators bind at least as tightly as those of an expression. -/
lemma Operator.not_precedence_lt_one (op : Operator) :
    ¬op.precedence < Part.expression.precedence := by
  cases op <;> decide

namespace Descent

variable {s : String} {st : State} {r : Reading} {outer : List Waiting} {inner : Waiting}

/-! ## Behind a part -/

/-- The reader has gone back before a failure that was told, and a `d` comes next. That nothing goes
on with it does not matter any more. -/
structure Lost (s : String) (st : State) : Prop where
  /-- The `d` of the throw that failed. -/
  next : tokenAt (Lexeme.ofText s) st.pos = some (.mark .d)
  /-- What is recorded here is not as far. -/
  told : ∀ expected, Told s st.pos (st.record
    (.locate s (Lexeme.ofText s) st.pos (refusal (some (.mark .d)) expected)))

/-- Nothing goes on here, and what is told stays as it is. -/
lemma Lost.unexpected {α : Type} {expected : List Token.Kind} {post : α → State → Prop}
    (h : Lost s st) : Answer.Meets s (unexpected s (Lexeme.ofText s) expected st) post := by
  have htold := h.told expected
  rwa [← h.next] at htold

/-- The reader has gone back before the place of the failure. -/
lemma Told.lost (h : Told s (st.pos + 1) st)
    (ht : tokenAt (Lexeme.ofText s) st.pos = some (.mark .d)) : Lost s st :=
  ⟨ht, fun _ => (h.record (Nat.lt_succ_self _) _).mono (Nat.le_succ _)⟩

/-- Where the reader may stand when a part of the grammar has given `e`. -/
inductive Behind (s : String) (part : Part) (n : Nat) (outer : List Waiting) (inner : Waiting)
    (e : Expr) (st : State) : Prop
  /-- The text is refused, and this has been told. -/
  | lost (h : Lost s st)
  /-- Both readers have read `e`, and no operator comes next that binds as tightly as `n`. -/
  | read {last : Waiting} {phase : Phase} {f : Expr} (hf : phase.factor? = some f)
      (hclose : part.Closes inner last f e) (hripe : Ripe s ⟨outer, last, phase⟩ st)
      (hstop : ∀ op, tokenAt (Lexeme.ofText s) st.pos = some (.mark (.ofOperator op)) →
        op.precedence < n)

lemma Behind.of_operand {part : Part} {n : Nat} {e : Expr}
    (h : Behind s part.operand n outer inner e st) (ho : part.Opens inner) :
    Behind s part n outer inner e st := by
  cases h with
  | lost h => exact .lost h
  | read hf hclose hripe hstop => exact .read hf (hclose.of_operand ho) hripe hstop

/-- What is read as a factor ends there. -/
lemma Ripe.behind {phase : Phase} {e : Expr} (hf : phase.factor? = some e)
    (h : Ripe s ⟨outer, inner, phase⟩ st) :
    Behind s .factor Part.factor.precedence outer inner e st := by
  refine .read hf ⟨rfl, rfl⟩ h fun op _ => ?_
  cases op <;> decide

lemma Thrown.behind {d : Dice} (h : Thrown s outer inner d st) :
    Behind s .factor Part.factor.precedence outer inner (.dice d) st := by
  obtain ⟨phase, hf, hripe⟩ := h
  exact hripe.behind hf

/-! ## Integers -/

/-- An integer that is too large for a count is a number. -/
lemma ripe_integer_of_le {n : Nat} {fits : n < 0x8000000000000000} (hn : UInt32.size ≤ n)
    (h : Stands s ⟨outer, inner, .integer n fits⟩ st) :
    Ripe s ⟨outer, inner, .integer n fits⟩ st := by
  have hcount : ¬n < UInt32.size := Nat.not_lt_of_le hn
  refine h.ripe (if_neg hcount) fun t _ => ?_
  cases t with
  | mark m => cases m <;> first | rfl | exact dif_neg hcount
  | _ => rfl

/-- Behind a count all rules that are open are on record: first that of the throw, and then that of
the expression around. -/
lemma join_refusal (hr : r.expected = [[.mark .d], r.following]) (found : Option Token) :
    (refusal found [.mark .d]).join (refusal found r.following) = r.refusal found := by
  have hpush : r.following.foldl Fault.push [.mark .d] = .mark .d :: r.following := by
    unfold Reading.following
    split <;> rfl
  rcases found with _ | t
  · simp [refusal, Fault.join, hpush, Reading.refusal, hr]
  · cases t <;> simp [refusal, Fault.join, hpush, Reading.refusal, Reading.refuse, hr]

/-- An integer that might be a count is a number where no `d` follows. -/
lemma ripe_integer_of_ne {n : Nat} {fits : n < 0x8000000000000000} (hn : n < UInt32.size)
    (h : Stands s ⟨outer, inner, .integer n fits⟩ st)
    (hd : tokenAt (Lexeme.ofText s) st.pos ≠ some (.mark .d)) :
    Ripe s ⟨outer, inner, .integer n fits⟩ (st.record (.locate s (Lexeme.ofText s) st.pos
      (refusal (tokenAt (Lexeme.ofText s) st.pos) [.mark .d]))) := by
  refine ⟨h.reading, fun t ht => ?_, h.before.record h.reading.le_length _, ?_⟩
  · cases t with
    | mark m => cases m <;> first | rfl | exact absurd ht hd
    | _ => rfl
  · have hfirst := h.before.furthest_record h.reading.le_length
      (refusal (tokenAt (Lexeme.ofText s) st.pos) [.mark .d])
    have hjoin := join_refusal (r := ⟨outer, inner, .integer n fits⟩) (if_pos hn)
      (tokenAt (Lexeme.ofText s) st.pos)
    refine (furthest_record_of_eq hfirst _).trans ?_
    rw [State.record, ParseError.merge_locate_self, hjoin]

/-! ## Throws and numbers -/

/-- A throw whose sides come next is read alike. Where it fails, that it has failed is told. -/
lemma meets_throwOrNumber_of_throw {count : UInt32} {there : State} (hle : st.pos ≤ there.pos)
    (hdice : dice s (Lexeme.ofText s) st = (throw s (Lexeme.ofText s) count there).since hle)
    (h : Stands s ⟨outer, inner, .sides count⟩ there)
    (hnumber : ∀ after : State, Told s there.pos after →
      (number s (Lexeme.ofText s) { after with pos := st.pos }).Meets s
        (Behind s .factor Part.factor.precedence outer inner)) :
    (throwOrNumber s (Lexeme.ofText s) st).Meets s
      (Behind s .factor Part.factor.precedence outer inner) := by
  have hthrow := meets_throw h
  rw [throwOrNumber, hdice]
  generalize throw s (Lexeme.ofText s) count there = answer at hthrow ⊢
  obtain ⟨d | e, after, hafter⟩ := answer
  · exact hnumber after hthrow
  · exact Thrown.behind hthrow

/-- An integer that may be the count of a throw is read alike. -/
lemma meets_throwOrNumber_of_lt {n : Nat} (h : Stands s ⟨outer, inner, .operand⟩ st)
    (ht : tokenAt (Lexeme.ofText s) st.pos = some (.integer n)) (hn : n < UInt32.size) :
    (throwOrNumber s (Lexeme.ofText s) st).Meets s
      (Behind s .factor Part.factor.precedence outer inner) := by
  have hfits : n < 0x8000000000000000 := Nat.lt_trans hn (by decide)
  have hinteger := h.step ht (.integer outer inner hfits)
  have hdice := dice_of_lt (s := s) ht hn
  by_cases hd : tokenAt (Lexeme.ofText s) st.behind.pos = some (.mark .d)
  · rcases Nat.eq_zero_or_pos n with rfl | hpos
    -- No dice are thrown.
    · rw [show UInt32.ofNatLT 0 hn = 0 from rfl, counted_of_zero hd] at hdice
      rw [throwOrNumber_of_error hdice, number_of_lt ht hfits]
      exact .lost ⟨hd, fun expected => hinteger.told_record hd rfl rfl⟩
    -- What comes behind the `d` decides.
    · have hne : UInt32.ofNatLT n hn ≠ 0 := by
        intro hzero
        have hval := congrArg UInt32.toNat hzero
        exact Nat.ne_of_gt hpos hval
      have hsides := hinteger.step hd (.counted outer inner hfits hpos hn)
      have hle : st.pos ≤ st.behind.behind.pos := Nat.le_add_right st.pos 2
      rw [counted_of_ne_zero hd hne] at hdice
      refine meets_throwOrNumber_of_throw hle hdice hsides ?_
      intro after htold
      rw [number_of_lt ht hfits]
      have hlost : Lost s { after with pos := st.pos + 1 } := Told.lost htold hd
      exact .lost hlost
  -- It is a number.
  · rw [counted_of_ne hd] at hdice
    rw [throwOrNumber_of_error hdice, number_of_lt ht hfits]
    exact (ripe_integer_of_ne hn hinteger hd).behind rfl

/-- An integer that is too large for the count of a throw is read alike. -/
lemma meets_throwOrNumber_of_le {n : Nat} (h : Stands s ⟨outer, inner, .operand⟩ st)
    (ht : tokenAt (Lexeme.ofText s) st.pos = some (.integer n)) (hn : UInt32.size ≤ n) :
    (throwOrNumber s (Lexeme.ofText s) st).Meets s
      (Behind s .factor Part.factor.precedence outer inner) := by
  rw [throwOrNumber_of_error (dice_of_le ht hn)]
  rcases Nat.lt_or_ge n 0x8000000000000000 with hfits | hlarge
  · rw [number_of_lt ht hfits]
    have hinteger := h.reading.step ht (.integer outer inner hfits)
    refine Ripe.behind rfl (ripe_integer_of_le hn ⟨hinteger, ?_⟩)
    exact h.before.record h.reading.le_length _
  · rw [number_of_le ht hlarge]
    exact h.told_record ht (dif_neg (Nat.not_lt_of_le hlarge)) rfl

/-- A throw of one die is read alike. -/
lemma meets_throwOrNumber_of_d (h : Stands s ⟨outer, inner, .operand⟩ st)
    (ht : tokenAt (Lexeme.ofText s) st.pos = some (.mark .d)) :
    (throwOrNumber s (Lexeme.ofText s) st).Meets s
      (Behind s .factor Part.factor.precedence outer inner) := by
  refine meets_throwOrNumber_of_throw _ (dice_of_d ht) (h.step ht (.single outer inner)) ?_
  intro after htold
  -- There is no number either, but this failure is not as far.
  rw [number_of_d ht]
  exact (htold.record (Nat.lt_succ_self st.pos) _).mono (Nat.le_succ _)

/-! ## Parts of the grammar -/

/-- In parentheses an expression is read as a factor. -/
lemma Behind.close {e : Expr}
    (h : Behind s .expression Part.expression.precedence (inner :: outer) .nothing e st) :
    ((do consume s (Lexeme.ofText s) .rightParen; pure e : Rule Expr) st).Meets s
      (Behind s .factor Part.factor.precedence outer inner) := by
  rw [bind_apply]
  by_cases ht : tokenAt (Lexeme.ofText s) st.pos = some (.mark .rightParen)
  · rw [consume_of_eq ht]
    cases h with
    | lost h => exact absurd (h.next.symm.trans ht) (by decide)
    | @read last phase f hf hclose hripe hstop =>
      obtain rfl : last.close f = e := hclose
      have hstands := hripe.step ht (.rightParen outer inner last hf)
      have hcomplete : (Phase.complete (last.close f)).factor? = some (last.close f) := rfl
      exact Ripe.behind hcomplete (hstands.ripe rfl fun t _ => rfl)
  · rw [consume_of_ne ht]
    cases h with
    | lost h => exact h.unexpected
    | read hf hclose hripe hstop =>
      refine hripe.told hf (fun op hop => ?_) (fun hparen => absurd hparen ht) fun _ => nofun
      exact op.not_precedence_lt_one (hstop op hop)

/-- The chain is at its end. -/
lemma Behind.stop {part : Part} {e : Expr}
    (h : Behind s part part.operand.precedence outer inner e st)
    (hnone : operatorAt (Lexeme.ofText s) part st.pos = none) :
    Behind s part part.precedence outer inner e st := by
  cases h with
  | lost h => exact .lost h
  | read hf hclose hripe hstop =>
    refine .read hf hclose hripe fun op ht => ?_
    have hlt := hstop op ht
    have hne : op.precedence ≠ part.precedence := by
      intro hop
      rw [operatorAt_eq_some.2 ⟨ht, hop⟩] at hnone
      cases hnone
    cases part <;> simp only [Part.operand, Part.precedence] at hlt hne ⊢ <;> omega

/-- A chain goes on with the right operand of an operator. -/
lemma Behind.grow {part : Part} {n : Nat} {last : Waiting} {f left right : Expr} {op : Operator}
    (h : Behind s part.operand n outer (last.follow f op) right st)
    (hl : part.Closes inner last f left) (hop : op.precedence = part.precedence) :
    Behind s part n outer inner (.binary left op right) st := by
  cases h with
  | lost h => exact .lost h
  | read hf hclose hripe hstop => exact .read hf (hl.grow hop hclose) hripe hstop

/-- All parts of the grammar are read alike. -/
theorem meets_parts (s : String) :
    (∀ st outer inner, Stands s ⟨outer, inner, .operand⟩ st →
      (factor s (Lexeme.ofText s) st).Meets s
        (Behind s .factor Part.factor.precedence outer inner)) ∧
    (∀ part st outer inner, part.Opens inner → Stands s ⟨outer, inner, .operand⟩ st →
      (read s (Lexeme.ofText s) part st).Meets s (Behind s part part.precedence outer inner)) ∧
    (∀ part left st outer inner, Behind s part part.operand.precedence outer inner left st →
      (links s (Lexeme.ofText s) part left st).Meets s
        (Behind s part part.precedence outer inner)) := by
  refine factor.mutual_induct (Lexeme.ofText s) _ _ _ ?_ ?_ ?_ ?_ ?_ ?_ ?_ ?_
  -- A factor.
  · intro st ht ih outer inner h
    rw [factor_of_leftParen ht]
    have hread := ih (inner :: outer) .nothing rfl (h.step ht (.leftParen outer inner))
    exact (hread.andThen fun e after _ hbehind => hbehind.close).since (Nat.le_succ _)
  · intro st n ht outer inner h
    rw [factor_of_throwOrNumber (.inl ht)]
    rcases Nat.lt_or_ge n UInt32.size with hn | hn
    · exact meets_throwOrNumber_of_lt h ht hn
    · exact meets_throwOrNumber_of_le h ht hn
  · intro st ht outer inner h
    rw [factor_of_throwOrNumber (n := 0) (.inr ht)]
    exact meets_throwOrNumber_of_d h ht
  · intro st hparen hinteger hd outer inner h
    rw [factor_of_ne hparen hinteger hd]
    exact h.unexpected (Reading.refuses_operand hparen hinteger hd)
  -- A part.
  · intro st ih outer inner _ h
    rw [read, dif_pos rfl]
    exact ih outer inner h
  · intro part st hp ihFirst ihRest outer inner ho h
    rw [read_of_ne hp]
    exact (ihFirst outer inner ho.operand h).andThen fun left after hle hbehind =>
      ihRest left after hle outer inner (hbehind.of_operand ho)
  -- Operators and operands.
  · intro part left st op hop ihRight ihRest outer inner h
    obtain ⟨ht, hprecedence⟩ := operatorAt_eq_some.1 hop
    rw [links_of_some hop]
    cases h with
    | lost h =>
      have hmark := h.next.symm.trans ht
      cases op <;> cases hmark
    | @read last phase f hf hclose hripe hstop =>
      have hstands := hripe.step ht (.operator outer last hf op)
      have hright := ihRight outer _ (Part.opens_follow hprecedence last f) hstands
      refine (hright.andThen fun right after hle hbehind => ?_).since (Nat.le_succ _)
      exact ihRest right after hle outer inner (hbehind.grow hclose hprecedence)
  · intro part left st hnone outer inner h
    rw [links_of_none hnone]
    exact h.stop hnone

/-! ## Whole texts -/

/-- A whole text is read alike. -/
lemma meets_expression (s : String) :
    (expression s (Lexeme.ofText s) ⟨0, none⟩).Meets s fun e _ =>
      Expr.ofTokens ((Lexeme.ofText s).map Lexeme.token) = .ok e := by
  obtain ⟨-, hread, -⟩ := meets_parts s
  have hstart : Stands s .start ⟨0, none⟩ := ⟨at_start s, before_nil s 0⟩
  refine (hread .expression ⟨0, none⟩ [] .nothing rfl hstart).andThen fun e after _ hbehind => ?_
  split
  -- The text ends here.
  · rename_i hend
    cases hbehind with
    | lost h => exact absurd hend (Nat.not_le_of_lt (lt_of_tokenAt _ h.next))
    | read hf hclose hripe hstop =>
      exact hripe.reading.finished hend (Reading.finish_eq_ok.2 ⟨rfl, _, hf, hclose⟩)
  -- What comes next belongs to no expression.
  · rename_i hmore
    cases hbehind with
    | lost h => exact h.unexpected
    | read hf hclose hripe hstop =>
      refine hripe.told hf (fun op hop => ?_) (fun _ => rfl) fun hnone => ?_
      · exact op.not_precedence_lt_one (hstop op hop)
      · exact absurd (length_le_of_tokenAt hnone) hmore

/-- Reading by recursive descent gives the answer of reading token by token. -/
theorem ofText_eq (s : String) : ofText s = Expr.ofText s := by
  have hmeets := meets_expression s
  rw [ofText, Expr.ofText]
  generalize expression s (Lexeme.ofText s) ⟨0, none⟩ = result at hmeets
  obtain ⟨answer, after, hle⟩ := result
  cases answer with
  | ok e =>
    have hread : Expr.ofTokens ((Lexeme.ofText s).map Lexeme.token) = .ok e := hmeets
    simp only [hread, Except.mapError]
  | error e =>
    obtain ⟨i, fault, -, -, hread, hfurthest⟩ := hmeets
    have hfurthest : after.furthest = some (.locate s (Lexeme.ofText s) i fault) := hfurthest
    simp only [hread, Except.mapError, hfurthest, Option.getD_some]

end Descent

end DiceNotation
