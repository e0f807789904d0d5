import DiceNotation.Expr.Descent
import Mathlib.Tactic.Common
/-!
# The rules of recursive descent

What each rule does, told by the token that comes next: the value or the failure that it gives, and
where it leaves the reader.
-/

namespace DiceNotation

open Grammar

namespace Descent

variable {s : String} {lexemes : List Lexeme} {st : State} {m : Mark} {t : Token} {n bound i : Nat}
  {furthest : Option ParseError} {part : Part} {left e : Expr} {op : Operator} {α β : Type}

/-! ## Tokens -/

/-- The tokens from one on. -/
lemma drop_of_tokenAt (h : tokenAt lexemes i = some t) :
    (lexemes.map Lexeme.token).drop i = t :: (lexemes.map Lexeme.token).drop (i + 1) := by
  rw [tokenAt, ← List.getElem?_map] at h
  obtain ⟨hi, rfl⟩ := List.getElem?_eq_some_iff.1 h
  exact List.drop_eq_getElem_cons hi

lemma length_le_of_tokenAt (h : tokenAt lexemes i = none) :
    lexemes.length ≤ i :=
  List.getElem?_eq_none_iff.1 (Option.map_eq_none_iff.1 h)

lemma ne_integer_of_mark (ht : tokenAt lexemes i = some (.mark m)) (n : Nat) :
    tokenAt lexemes i ≠ some (.integer n) := by
  rw [ht]
  exact nofun

/-! ## Rules in a row -/

lemma bind_apply (r : Rule α) (f : α → Rule β) (st : State) :
    (r >>= f) st = (r st).andThen fun x next _ => f x next := rfl

lemma position_bind (f : Nat → Rule α) (st : State) : (position >>= f) st = f st.pos st := rfl

lemma peek_bind (f : Option Token → Rule α) (st : State) :
    (peek lexemes >>= f) st = f (tokenAt lexemes st.pos) st := rfl

lemma advance_bind (f : Unit → Rule α) (st : State) :
    (advance >>= f) st = (f () st.behind).since (Nat.le_succ _) := rfl

/-! ## Marks and integers -/

lemma eat_of_eq (ht : tokenAt lexemes st.pos = some (.mark m)) :
    eat lexemes m st = (.ok true, ⟨st.behind, Nat.le_succ _⟩) := by
  simp only [eat, peek_bind, if_pos ht]
  rfl

lemma eat_of_ne (ht : tokenAt lexemes st.pos ≠ some (.mark m)) :
    eat lexemes m st = (.ok false, ⟨st, Nat.le_refl _⟩) := by
  simp only [eat, peek_bind, if_neg ht]
  rfl

lemma consume_of_eq (ht : tokenAt lexemes st.pos = some (.mark m)) :
    consume s lexemes m st = (.ok (), ⟨st.behind, Nat.le_succ _⟩) := by
  rw [consume, bind_apply, eat_of_eq ht]
  rfl

lemma consume_of_ne (ht : tokenAt lexemes st.pos ≠ some (.mark m)) :
    consume s lexemes m st = unexpected s lexemes [.mark m] st := by
  rw [consume, bind_apply, eat_of_ne ht]
  rfl

lemma integer_of_lt (ht : tokenAt lexemes st.pos = some (.integer n)) (h : n < bound) :
    integer s lexemes bound st = (.ok ⟨n, h⟩, ⟨st.behind, Nat.le_succ _⟩) := by
  simp only [integer, position_bind, peek_bind, ht, advance_bind, dif_pos h]
  rfl

lemma integer_of_le (ht : tokenAt lexemes st.pos = some (.integer n)) (h : bound ≤ n) :
    integer s lexemes bound st = (.error (.locate s lexemes st.pos .numberTooLarge),
      ⟨st.behind.record (.locate s lexemes st.pos .numberTooLarge), Nat.le_succ _⟩) := by
  simp only [integer, position_bind, peek_bind, ht, advance_bind, dif_neg (Nat.not_lt_of_le h)]
  rfl

lemma integer_of_ne (ht : ∀ n, tokenAt lexemes st.pos ≠ some (.integer n)) :
    integer s lexemes bound st = unexpected s lexemes [.integer] st := by
  simp only [integer, position_bind, peek_bind]

lemma word_of_lt (ht : tokenAt lexemes st.pos = some (.integer n)) (h : n < UInt32.size) :
    word s lexemes st = (.ok (.ofNatLT n h), ⟨st.behind, Nat.le_succ _⟩) := by
  rw [word, bind_apply, integer_of_lt ht h]
  rfl

lemma word_of_le (ht : tokenAt lexemes st.pos = some (.integer n)) (h : UInt32.size ≤ n) :
    word s lexemes st = (.error (.locate s lexemes st.pos .numberTooLarge),
      ⟨st.behind.record (.locate s lexemes st.pos .numberTooLarge), Nat.le_succ _⟩) := by
  rw [word, bind_apply, integer_of_le ht h]
  rfl

lemma wordOrOne_of_integer (ht : tokenAt lexemes st.pos = some (.integer n)) :
    wordOrOne s lexemes st = word s lexemes st := by
  simp only [wordOrOne, peek_bind, ht]

lemma wordOrOne_of_ne (ht : ∀ n, tokenAt lexemes st.pos ≠ some (.integer n)) :
    wordOrOne s lexemes st = (.ok 1, ⟨st, Nat.le_refl _⟩) := by
  simp only [wordOrOne, peek_bind]
  rfl

/-! ## Throws and numbers -/

lemma number_of_lt (ht : tokenAt lexemes i = some (.integer n)) (h : n < 0x8000000000000000) :
    number s lexemes ⟨i, furthest⟩ =
      (.ok (.number (.ofNat n h)), ⟨⟨i + 1, furthest⟩, Nat.le_succ i⟩) := by
  have hnext : tokenAt lexemes (State.mk i furthest).pos = some (.integer n) := ht
  rw [number, bind_apply, integer_of_lt hnext h]
  rfl

lemma number_of_le (ht : tokenAt lexemes i = some (.integer n)) (h : 0x8000000000000000 ≤ n) :
    number s lexemes ⟨i, furthest⟩ = (.error (.locate s lexemes i .numberTooLarge),
      ⟨(State.mk (i + 1) furthest).record (.locate s lexemes i .numberTooLarge),
        Nat.le_succ i⟩) := by
  have hnext : tokenAt lexemes (State.mk i furthest).pos = some (.integer n) := ht
  rw [number, bind_apply, integer_of_le hnext h]
  rfl

lemma number_of_d (ht : tokenAt lexemes i = some (.mark .d)) :
    number s lexemes ⟨i, furthest⟩ =
      (.error (.locate s lexemes i (refusal (some (.mark .d)) [.integer])),
        ⟨(State.mk i furthest).record
          (.locate s lexemes i (refusal (some (.mark .d)) [.integer])), Nat.le_refl i⟩) := by
  have hnext : tokenAt lexemes (State.mk i furthest).pos = some (.mark .d) := ht
  rw [number, bind_apply, integer_of_ne (ne_integer_of_mark hnext), ← ht]
  rfl

lemma counted_of_ne {count : UInt32} (hd : tokenAt lexemes st.pos ≠ some (.mark .d)) :
    counted s lexemes count st = unexpected s lexemes [.mark .d] st := by
  simp only [counted, position_bind]
  rw [bind_apply, consume_of_ne hd]
  rfl

lemma counted_of_zero (hd : tokenAt lexemes st.pos = some (.mark .d)) :
    counted s lexemes 0 st = (.error (.locate s lexemes st.pos .zeroDice),
      ⟨st.behind.record (.locate s lexemes st.pos .zeroDice), Nat.le_succ _⟩) := by
  simp only [counted, position_bind]
  rw [bind_apply, consume_of_eq hd]
  rfl

lemma counted_of_ne_zero {count : UInt32} (hd : tokenAt lexemes st.pos = some (.mark .d))
    (hcount : count ≠ 0) :
    counted s lexemes count st = (throw s lexemes count st.behind).since (Nat.le_succ _) := by
  simp only [counted, position_bind]
  rw [bind_apply, consume_of_eq hd]
  simp only [Answer.andThen, if_neg hcount]

lemma dice_of_le (ht : tokenAt lexemes st.pos = some (.integer n)) (h : UInt32.size ≤ n) :
    dice s lexemes st = (.error (.locate s lexemes st.pos .numberTooLarge),
      ⟨st.behind.record (.locate s lexemes st.pos .numberTooLarge), Nat.le_succ _⟩) := by
  rw [dice, bind_apply, wordOrOne_of_integer ht, word_of_le ht h]
  rfl

lemma dice_of_lt (ht : tokenAt lexemes st.pos = some (.integer n)) (h : n < UInt32.size) :
    dice s lexemes st = (counted s lexemes (.ofNatLT n h) st.behind).since (Nat.le_succ _) := by
  rw [dice, bind_apply, wordOrOne_of_integer ht, word_of_lt ht h]
  rfl

lemma dice_of_d (ht : tokenAt lexemes st.pos = some (.mark .d)) :
    dice s lexemes st = (throw s lexemes 1 st.behind).since (Nat.le_succ _) := by
  rw [dice, bind_apply, wordOrOne_of_ne (ne_integer_of_mark ht)]
  exact counted_of_ne_zero ht (by decide)

/-- Where no throw is read, the reader goes back and reads a number. -/
lemma throwOrNumber_of_error {e : ParseError} {after : State}
    {hle : st.pos ≤ after.pos} (h : dice s lexemes st = (.error e, ⟨after, hle⟩)) :
    throwOrNumber s lexemes st = number s lexemes { after with pos := st.pos } := by
  rw [throwOrNumber, h]

/-! ## Parts of the grammar -/

/-- The operator of a part that comes next. -/
lemma operatorAt_eq_some :
    operatorAt lexemes part i = some op ↔
      tokenAt lexemes i = some (.mark (.ofOperator op)) ∧ op.precedence = part.precedence := by
  unfold operatorAt
  split
  · rename_i m ht
    rw [ht, Option.filter_eq_some_iff, Mark.operator?_eq_some, decide_eq_true_eq]
    simp
  · rename_i hmark
    simp only [reduceCtorEq, false_iff, not_and]
    exact fun ht => absurd ht (hmark _)

lemma factor_of_leftParen (ht : tokenAt lexemes st.pos = some (.mark .leftParen)) :
    factor s lexemes st = ((read s lexemes .expression st.behind).andThen fun e next _ =>
      (do consume s lexemes .rightParen; pure e : Rule Expr) next).since (Nat.le_succ _) := by
  rw [factor]
  split <;> simp_all

lemma factor_of_throwOrNumber
    (ht : tokenAt lexemes st.pos = some (.integer n) ∨ tokenAt lexemes st.pos = some (.mark .d)) :
    factor s lexemes st = throwOrNumber s lexemes st := by
  rw [factor]
  split <;> simp_all

lemma factor_of_ne (hparen : tokenAt lexemes st.pos ≠ some (.mark .leftParen))
    (hinteger : ∀ n, tokenAt lexemes st.pos ≠ some (.integer n))
    (hd : tokenAt lexemes st.pos ≠ some (.mark .d)) :
    factor s lexemes st = unexpected s lexemes [.mark .leftParen, .integer, .mark .d] st := by
  rw [factor]
  split <;> simp_all

lemma read_of_ne (hp : part ≠ .factor) :
    read s lexemes part st = (read s lexemes part.operand st).andThen
      fun left next _ => links s lexemes part left next := by
  rw [read, dif_neg hp]

lemma links_of_some
    (hop : operatorAt lexemes part st.pos = some op) :
    links s lexemes part left st = ((read s lexemes part.operand st.behind).andThen
      fun right next _ => links s lexemes part (.binary left op right) next).since
        (Nat.le_succ _) := by
  rw [links]
  split <;> simp_all

lemma links_of_none (hop : operatorAt lexemes part st.pos = none) :
    links s lexemes part left st = (.ok left, ⟨st, Nat.le_refl _⟩) := by
  rw [links]
  split <;> simp_all

end Descent

end DiceNotation
