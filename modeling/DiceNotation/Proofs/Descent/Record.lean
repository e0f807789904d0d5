import DiceNotation.Proofs.Descent.Rules
import DiceNotation.Proofs.Expr.FirstFault
import DiceNotation.Proofs.Grammar.Step
import Mathlib.Tactic.Common
/-!
# What a reader by recursive descent has recorded

The reader by recursive descent is compared with reading token by token. Mostly both stand at the
same place, and all failures on record are before it (`Descent.Stands`). Where reading token by
token fails, the failure is on record as the furthest one (`Descent.Told`). A failure that is not as
far does not change this.

What a rule does is stated by what holds after it, where it gives a value and where it fails
(`Descent.Answer.Meets`).
-/

namespace DiceNotation

/-! ## The order of places -/

namespace ParseError

variable {s : String} {i j : Nat}

/-- A fault at an earlier token is located further in front. -/
lemma position_locate_lt (hij : i < j) (hj : j ≤ (Lexeme.ofText s).length) (fault other : Fault) :
    (locate s (Lexeme.ofText s) i fault).position <
      (locate s (Lexeme.ofText s) j other).position := by
  have hi : i < (Lexeme.ofText s).length := Nat.lt_of_lt_of_le hij hj
  rw [locate_of_getElem? (List.getElem?_eq_getElem hi)]
  rcases Nat.lt_or_eq_of_le hj with hlt | hlast
  · rw [locate_of_getElem? (List.getElem?_eq_getElem hlt)]
    exact List.pairwise_iff_getElem.1 (Lexeme.pairwise_column s) i j hi hlt hij
  · rw [hlast, locate_length]
    have hbounds := (Lexeme.piece_of_mem_ofText (List.getElem_mem hi)).bounds.2
    rwa [Nat.zero_add, String.length_toList] at hbounds

/-- Of two failures the one at the later token remains, here the second. -/
lemma merge_locate_of_lt (hij : i < j) (hj : j ≤ (Lexeme.ofText s).length) (fault other : Fault) :
    (locate s (Lexeme.ofText s) i fault).merge (locate s (Lexeme.ofText s) j other) =
      locate s (Lexeme.ofText s) j other :=
  if_pos (position_locate_lt hij hj fault other)

/-- Of two failures the one at the later token remains, here the first. -/
lemma merge_locate_of_gt (hij : i < j) (hj : j ≤ (Lexeme.ofText s).length) (fault other : Fault) :
    (locate s (Lexeme.ofText s) j fault).merge (locate s (Lexeme.ofText s) i other) =
      locate s (Lexeme.ofText s) j fault := by
  have hlt := position_locate_lt hij hj other fault
  exact (if_neg (Nat.lt_asymm hlt)).trans (if_pos hlt)

/-- Two failures at one token are joined there. -/
lemma merge_locate_self (s : String) (lexemes : List Lexeme) (i : Nat) (fault other : Fault) :
    (locate s lexemes i fault).merge (locate s lexemes i other) =
      locate s lexemes i (fault.join other) := by
  unfold merge locate
  split <;> simp

end ParseError

/-! ## Where reading stands -/

/-- Reading cannot go on with the token that comes next, or with the end. -/
def Reading.Refuses (r : Reading) : Option Token → Fault → Prop
  | some t, fault => r.step t = .error fault
  | none, fault => r.finish = .error fault

lemma Reading.refuses_of_step {r : Reading} {found : Option Token} {t : Token} {fault : Fault}
    (ht : found = some t) (hstep : r.step t = .error fault) : r.Refuses found fault := by
  rw [ht]
  exact hstep

namespace Descent

variable {s : String} {st : State} {r next : Reading} {t : Token} {i j start : Nat} {α β : Type}

/-- Reading token by token comes to `r` behind `i` tokens of the text. -/
structure At (s : String) (r : Reading) (i : Nat) : Prop where
  /-- The text has so many tokens. -/
  le_length : i ≤ (Lexeme.ofText s).length
  /-- What the tokens are is found by going on from `r` with those that are left. -/
  run_eq : Expr.ofTokens ((Lexeme.ofText s).map Lexeme.token) =
    r.run i (((Lexeme.ofText s).map Lexeme.token).drop i)

/-- Reading begins at the start of the text. -/
lemma at_start (s : String) : At s .start 0 := ⟨Nat.zero_le _, rfl⟩

/-- Reading goes on with the next token. -/
lemma At.step (h : At s r i) (ht : tokenAt (Lexeme.ofText s) i = some t) (hs : r.Step t next) :
    At s next (i + 1) := by
  refine ⟨lt_of_tokenAt _ ht, ?_⟩
  rw [h.run_eq, drop_of_tokenAt ht, Reading.run_of_ok (Reading.eq_ok_of_step hs)]

/-- The text is refused where reading cannot go on. -/
lemma At.refused {fault : Fault} (h : At s r i)
    (hr : r.Refuses (tokenAt (Lexeme.ofText s) i) fault) :
    Expr.ofTokens ((Lexeme.ofText s).map Lexeme.token) = .error (i, fault) := by
  cases htoken : tokenAt (Lexeme.ofText s) i with
  | some t =>
    rw [htoken] at hr
    rw [h.run_eq, drop_of_tokenAt htoken, Reading.run_of_error hr]
  | none =>
    rw [htoken] at hr
    have hfinish : r.finish = .error fault := hr
    have hend := length_le_of_tokenAt htoken
    rw [h.run_eq, List.drop_of_length_le (by rwa [List.length_map]), Reading.run_nil, hfinish]
    rfl

/-- The text is read where it ends behind a whole expression. -/
lemma At.finished {e : Expr} (h : At s r i) (hend : (Lexeme.ofText s).length ≤ i)
    (hr : r.finish = .ok e) : Expr.ofTokens ((Lexeme.ofText s).map Lexeme.token) = .ok e := by
  rw [h.run_eq, List.drop_of_length_le (by rwa [List.length_map]), Reading.run_nil, hr]
  rfl

/-! ## What is on record -/

/-- All failures on record are at tokens before the number `i`. -/
def Before (s : String) (i : Nat) (st : State) : Prop :=
  ∀ e, st.furthest = some e → ∃ j fault, j < i ∧ e = .locate s (Lexeme.ofText s) j fault

/-- Nothing is on record at first. -/
lemma before_nil (s : String) (i : Nat) : Before s i ⟨0, none⟩ := nofun

lemma Before.mono (h : Before s i st) (hij : i ≤ j) : Before s j st := by
  intro e he
  obtain ⟨k, fault, hk, rfl⟩ := h e he
  exact ⟨k, fault, Nat.lt_of_lt_of_le hk hij, rfl⟩

lemma furthest_record_of_eq {e : ParseError} (h : st.furthest = some e) (e' : ParseError) :
    (st.record e').furthest = some (e.merge e') := by
  rw [State.record, h]

/-- A failure behind all others becomes the furthest one. -/
lemma Before.furthest_record (h : Before s i st) (hi : i ≤ (Lexeme.ofText s).length)
    (fault : Fault) : (st.record (.locate s (Lexeme.ofText s) i fault)).furthest =
      some (.locate s (Lexeme.ofText s) i fault) := by
  cases hfurthest : st.furthest with
  | none => simp only [State.record, hfurthest]
  | some e =>
    obtain ⟨j, other, hj, rfl⟩ := h e hfurthest
    rw [furthest_record_of_eq hfurthest, ParseError.merge_locate_of_lt hj hi]

/-- Failures at tokens before the number `i` may be recorded. -/
lemma Before.record (h : Before s i st) (hi : i ≤ (Lexeme.ofText s).length) (fault : Fault) :
    Before s (i + 1) (st.record (.locate s (Lexeme.ofText s) i fault)) := by
  intro e he
  rw [h.furthest_record hi, Option.some_inj] at he
  exact ⟨i, fault, Nat.lt_succ_self i, he.symm⟩

/-- Reading token by token fails, not before the token number `start`, and its failure is the
furthest one on record. -/
def Told (s : String) (start : Nat) (st : State) : Prop :=
  ∃ i fault, start ≤ i ∧ i ≤ (Lexeme.ofText s).length ∧
    Expr.ofTokens ((Lexeme.ofText s).map Lexeme.token) = .error (i, fault) ∧
    st.furthest = some (.locate s (Lexeme.ofText s) i fault)

lemma Told.mono (h : Told s i st) (hij : start ≤ i) : Told s start st := by
  obtain ⟨k, fault, hk, hlength, hread, hfurthest⟩ := h
  exact ⟨k, fault, Nat.le_trans hij hk, hlength, hread, hfurthest⟩

/-- A failure further in front is not told. -/
lemma Told.record (h : Told s start st) (hi : i < start) (fault : Fault) :
    Told s start (st.record (.locate s (Lexeme.ofText s) i fault)) := by
  obtain ⟨k, found, hk, hlength, hread, hfurthest⟩ := h
  refine ⟨k, found, hk, hlength, hread, ?_⟩
  have hik : i < k := Nat.lt_of_lt_of_le hi hk
  rw [furthest_record_of_eq hfurthest, ParseError.merge_locate_of_gt hik hlength]

/-- Where reading cannot go on, its failure is recorded. -/
lemma At.told {fault : Fault} (h : At s r i) (hb : Before s i st)
    (hr : r.Refuses (tokenAt (Lexeme.ofText s) i) fault) :
    Told s i (st.record (.locate s (Lexeme.ofText s) i fault)) :=
  ⟨i, fault, Nat.le_refl i, h.le_length, h.refused hr, hb.furthest_record h.le_length fault⟩

/-! ## Answers of rules -/

/-- A rule agrees with reading token by token: what is said of its value holds where it gives one,
and where it fails, so has reading token by token, not before the place where the rule began. -/
def Answer.Meets (s : String) (a : Answer start α) (post : α → State → Prop) : Prop :=
  match a.1 with
  | .ok x => post x a.2.1
  | .error _ => Told s start a.2.1

/-- A rule may be part of one that began earlier. -/
lemma Answer.Meets.since {earlier : Nat} {a : Answer start α} {post : α → State → Prop}
    (h : a.Meets s post) (hle : earlier ≤ start) : (a.since hle).Meets s post := by
  obtain ⟨answer, after⟩ := a
  cases answer with
  | ok x => exact h
  | error e => exact Told.mono h hle

/-- A rule goes on where the one before it has left the reader. -/
lemma Answer.Meets.andThen {a : Answer start α} {f : α → (after : State) → start ≤ after.pos →
      Answer after.pos β} {mid : α → State → Prop} {post : β → State → Prop} (h : a.Meets s mid)
    (hf : ∀ x after hle, mid x after → (f x after hle).Meets s post) :
    (a.andThen f).Meets s post := by
  obtain ⟨answer, after, hle⟩ := a
  cases answer with
  | ok x => exact (hf x after hle h).since hle
  | error e => exact h

/-- A rule may give a value at once. -/
lemma Answer.Meets.pure {x : α} {post : α → State → Prop} (h : post x st) :
    Answer.Meets s ((pure x : Rule α) st) post := h

/-- Rules in a row. -/
lemma Answer.Meets.bind {r : Rule α} {f : α → Rule β} {mid : α → State → Prop}
    {post : β → State → Prop} (h : (r st).Meets s mid)
    (hf : ∀ x after, mid x after → (f x after).Meets s post) : ((r >>= f) st).Meets s post :=
  h.andThen fun x after _ => hf x after

/-! ## Readers at one place -/

/-- Both readers stand at the same place, and all failures on record are before it. -/
structure Stands (s : String) (r : Reading) (st : State) : Prop where
  /-- Reading token by token stands there. -/
  reading : At s r st.pos
  /-- Nothing has failed there yet. -/
  before : Before s st.pos st

/-- Both go on with the next token. -/
lemma Stands.step (h : Stands s r st) (ht : tokenAt (Lexeme.ofText s) st.pos = some t)
    (hs : r.Step t next) : Stands s next st.behind :=
  ⟨h.reading.step ht hs, h.before.mono (Nat.le_succ _)⟩

/-- Where reading token by token refuses the next token, both fail. -/
lemma Stands.refused {fault : Fault} (h : Stands s r st)
    (ht : tokenAt (Lexeme.ofText s) st.pos = some t) (hstep : r.step t = .error fault) :
    Told s st.pos (st.record (.locate s (Lexeme.ofText s) st.pos fault)) :=
  h.reading.told h.before (Reading.refuses_of_step ht hstep)

/-- What is recorded at the place of a failure that is not joined with others changes nothing. -/
lemma Stands.told_record {fault other : Fault} (h : Stands s r st)
    (ht : tokenAt (Lexeme.ofText s) st.pos = some t) (hstep : r.step t = .error fault)
    (hjoin : fault.join other = fault) :
    Told s st.pos ((st.record (.locate s (Lexeme.ofText s) st.pos fault)).record
      (.locate s (Lexeme.ofText s) st.pos other)) := by
  have hread := Reading.refuses_of_step ht hstep
  have hfirst := h.before.furthest_record h.reading.le_length fault
  refine ⟨st.pos, fault, Nat.le_refl _, h.reading.le_length, h.reading.refused hread, ?_⟩
  rw [furthest_record_of_eq hfirst, ParseError.merge_locate_self, hjoin]

/-- Both refuse what comes next. -/
lemma Stands.unexpected {expected : List Token.Kind} {post : α → State → Prop}
    (h : Stands s r st) (hr : r.Refuses (tokenAt (Lexeme.ofText s) st.pos)
      (refusal (tokenAt (Lexeme.ofText s) st.pos) expected)) :
    Answer.Meets s (unexpected s (Lexeme.ofText s) expected st) post :=
  h.reading.told h.before hr

end Descent

end DiceNotation
