import DiceNotation.Proofs.Descent.Record
import DiceNotation.Proofs.Grammar.Viable
import Mathlib.Tactic.Common
/-!
# Throws by recursive descent

From the sides of a throw on, both readers go the same way, token by token (`Descent.meets_throw`).
The throw is at its end where no rule for it goes on with the token that comes next. There the
failure of the one reader, if it goes on with no other rule either, is that of the other
(`Descent.Ripe`).
-/

namespace DiceNotation

open Grammar

/-! ## Refusals -/

namespace Reading

variable {r : Reading} {outer : List Waiting} {inner : Waiting} {found : Option Token}

/-- The fault of what comes next, where it cannot stand. -/
def refusal (r : Reading) : Option Token → Fault
  | some t => r.refuse t
  | none => .unexpected none r.expected.flatten

/-- Where one rule only is open, it says what is expected. -/
lemma refusal_of_expected {expected : List Token.Kind} (h : r.expected = [expected])
    (found : Option Token) : r.refusal found = Descent.refusal found expected := by
  rcases found with _ | t
  · simp [refusal, Descent.refusal, h]
  · cases t <;> simp [refusal, refuse, Descent.refusal, h]

/-- Behind no factor, what no rule goes on with is refused. -/
lemma refuses_of_otherwise (hf : r.phase.factor? = none)
    (hstep : ∀ t, found = some t → r.step t = r.otherwise t) :
    r.Refuses found (r.refusal found) := by
  rcases found with _ | t
  · simp [Refuses, finish, hf, refusal]
  · have hstep := hstep t rfl
    simpa [Refuses, otherwise, hf, refusal] using hstep

/-- Where a factor has to come, all else is refused. -/
lemma refuses_operand (hparen : found ≠ some (.mark .leftParen))
    (hinteger : ∀ n, found ≠ some (.integer n)) (hd : found ≠ some (.mark .d)) :
    Refuses ⟨outer, inner, .operand⟩ found
      (Descent.refusal found [.mark .leftParen, .integer, .mark .d]) := by
  rw [← refusal_of_expected (r := ⟨outer, inner, .operand⟩) rfl]
  refine refuses_of_otherwise rfl ?_
  rintro t rfl
  cases t with
  | integer n => exact absurd rfl (hinteger n)
  | mark m => cases m <;> first | rfl | exact absurd rfl hparen | exact absurd rfl hd
  | unknown => rfl

/-- Where sides have to come, all else is refused. -/
lemma refuses_sides {count : UInt32} (hfate : found ≠ some (.mark .fate))
    (hinteger : ∀ n, found ≠ some (.integer n)) :
    Refuses ⟨outer, inner, .sides count⟩ found
      (Descent.refusal found [.integer, .mark .fate]) := by
  rw [← refusal_of_expected (r := ⟨outer, inner, .sides count⟩) rfl]
  refine refuses_of_otherwise rfl ?_
  rintro t rfl
  cases t with
  | integer n => exact absurd rfl (hinteger n)
  | mark m => cases m <;> first | rfl | exact absurd rfl hfate
  | unknown => rfl

/-- Behind the `k` or `d` of a throw, all but `h` and `l` is refused. -/
lemma refuses_selector {d : Dice} {keep : Bool} (hhighest : found ≠ some (.mark .highest))
    (hlowest : found ≠ some (.mark .lowest)) :
    Refuses ⟨outer, inner, .selector d keep⟩ found
      (Descent.refusal found [.mark .highest, .mark .lowest]) := by
  rw [← refusal_of_expected (r := ⟨outer, inner, .selector d keep⟩) rfl]
  refine refuses_of_otherwise rfl ?_
  rintro t rfl
  cases t with
  | integer n => rfl
  | mark m => cases m <;> first | rfl | exact absurd rfl hhighest | exact absurd rfl hlowest
  | unknown => rfl

/-- An integer that is no word cannot be the number of sides. -/
lemma step_sides_of_le {count : UInt32} {n : Nat} (h : UInt32.size ≤ n) :
    step ⟨outer, inner, .sides count⟩ (.integer n) = .error .numberTooLarge :=
  bind_eq_error.2 (.inl (word?_eq_error.2 ⟨rfl, h⟩))

/-- There are no dice without sides. -/
lemma step_sides_of_not_pos {count : UInt32} {n : Nat} (fits : n < UInt32.size)
    (h : ¬0 < UInt32.ofNatLT n fits) :
    step ⟨outer, inner, .sides count⟩ (.integer n) = .error .zeroDice :=
  bind_eq_error.2 (.inr ⟨_, word?_eq_ok.2 ⟨fits, rfl⟩, dif_neg h⟩)

/-- An integer that is no word cannot be the number of selected dice. -/
lemma step_selected_of_le {d : Dice} {n : Nat} (h : UInt32.size ≤ n) :
    step ⟨outer, inner, .selected d⟩ (.integer n) = .error .numberTooLarge :=
  bind_eq_error.2 (.inl (word?_eq_error.2 ⟨rfl, h⟩))

/-- A throw that does not go on is followed by the token. -/
lemma step_dice {d : Dice} {t : Token} (hkeep : some t ≠ some (.mark .keep))
    (hdrop : some t ≠ some (.mark .d)) (hbang : d.explodes = true ∨ some t ≠ some (.mark .bang)) :
    step ⟨outer, inner, .dice d⟩ t = otherwise ⟨outer, inner, .dice d⟩ t := by
  cases t with
  | mark m =>
    cases m with
    | keep => exact absurd rfl hkeep
    | d => exact absurd rfl hdrop
    | bang => exact if_pos (hbang.resolve_right (not_not_intro rfl))
    | _ => rfl
  | _ => rfl

lemma afterFactor_of_ne {f : Expr} {t : Token} (hop : ∀ op, t ≠ .mark (.ofOperator op))
    (hparen : t = .mark .rightParen → r.outer = []) : r.afterFactor f t = .error (r.refuse t) := by
  unfold afterFactor
  split
  · rename_i m
    split
    · rename_i op hm
      exact absurd (congrArg Token.mark (Mark.operator?_eq_some.1 hm)) (hop op)
    · rename_i waiting outer houter _
      rw [hparen rfl] at houter
      cases houter
    · rfl
  · rfl

/-- Behind a factor that may end, reading refuses what is no operator and closes no parenthesis. -/
lemma refuses_of_factor {f : Expr} {found : Option Token} (hf : r.phase.factor? = some f)
    (hstep : ∀ t, found = some t → r.step t = r.otherwise t)
    (hop : ∀ op, found ≠ some (.mark (.ofOperator op)))
    (hparen : found = some (.mark .rightParen) → r.outer = [])
    (hend : found = none → r.outer ≠ []) : r.Refuses found (r.refusal found) := by
  cases found with
  | none =>
    obtain ⟨outer, inner, phase⟩ := r
    cases outer with
    | nil => exact absurd rfl (hend rfl)
    | cons waiting outer => simp [Refuses, finish, refusal]
  | some t =>
    refine (hstep t rfl).trans ?_
    rw [otherwise, hf]
    refine afterFactor_of_ne (fun op ht => ?_) fun ht => ?_
    · exact hop op (congrArg some ht)
    · exact hparen (congrArg some ht)

end Reading

namespace Descent

variable {s : String} {st : State} {r : Reading} {outer : List Waiting} {inner : Waiting}

/-! ## Sides -/

/-- The sides of a throw are read alike. -/
lemma meets_sides {count : UInt32} (h : Stands s ⟨outer, inner, .sides count⟩ st) :
    (sides s (Lexeme.ofText s) st).Meets s
      fun x next => Stands s ⟨outer, inner, .dice (.plain count x)⟩ next := by
  simp only [sides, position_bind, peek_bind]
  generalize htoken : tokenAt (Lexeme.ofText s) st.pos = found
  split
  · exact h.step htoken (.faces outer inner count .fate)
  · rename_i n
    rw [bind_apply]
    rcases Nat.lt_or_ge n UInt32.size with hlt | hge
    · rw [word_of_lt htoken hlt]
      simp only [Answer.andThen]
      split
      · rename_i hpos
        exact h.step htoken (.faces outer inner count (.poly hlt hpos))
      · rename_i hzero
        exact h.refused htoken (Reading.step_sides_of_not_pos hlt hzero)
    · rw [word_of_le htoken hge]
      exact h.refused htoken (Reading.step_sides_of_le hge)
  · rename_i hfate hinteger
    subst htoken
    exact h.unexpected (Reading.refuses_sides hfate hinteger)

/-! ## Where a factor ends -/

/-- Reading token by token stands behind a factor that the next token does not continue. If no other
rule goes on with it either, the failure that is then recorded is that of the reading. -/
structure Ripe (s : String) (r : Reading) (st : State) : Prop where
  /-- Reading stands there. -/
  reading : At s r st.pos
  /-- The factor does not go on. -/
  ends : ∀ t, tokenAt (Lexeme.ofText s) st.pos = some t → r.step t = r.otherwise t
  /-- Nothing has failed further on. -/
  before : Before s (st.pos + 1) st
  /-- What is recorded if the token is refused. -/
  recorded : (st.record (.locate s (Lexeme.ofText s) st.pos
      (refusal (tokenAt (Lexeme.ofText s) st.pos) r.following))).furthest =
    some (.locate s (Lexeme.ofText s) st.pos (r.refusal (tokenAt (Lexeme.ofText s) st.pos)))

/-- Where nothing has failed yet and the factor cannot go on, it is at its end. -/
lemma Stands.ripe (h : Stands s r st) (hr : r.expected = [r.following])
    (hends : ∀ t, tokenAt (Lexeme.ofText s) st.pos = some t → r.step t = r.otherwise t) :
    Ripe s r st := by
  refine ⟨h.reading, hends, h.before.mono (Nat.le_succ _), ?_⟩
  rw [Reading.refusal_of_expected hr]
  exact h.before.furthest_record h.reading.le_length _

/-- Where both readers stand behind the same factor and neither goes on, they fail alike. -/
lemma Ripe.told {f : Expr} (h : Ripe s r st) (hf : r.phase.factor? = some f)
    (hop : ∀ op, tokenAt (Lexeme.ofText s) st.pos ≠ some (.mark (.ofOperator op)))
    (hparen : tokenAt (Lexeme.ofText s) st.pos = some (.mark .rightParen) → r.outer = [])
    (hend : tokenAt (Lexeme.ofText s) st.pos = none → r.outer ≠ []) :
    Told s st.pos (st.record (.locate s (Lexeme.ofText s) st.pos
      (refusal (tokenAt (Lexeme.ofText s) st.pos) r.following))) :=
  ⟨st.pos, _, Nat.le_refl _, h.reading.le_length,
    h.reading.refused (Reading.refuses_of_factor hf h.ends hop hparen hend), h.recorded⟩

/-- Both readers go on behind a factor. -/
lemma Ripe.step {t : Token} {next : Reading} (h : Ripe s r st)
    (ht : tokenAt (Lexeme.ofText s) st.pos = some t) (hs : r.Step t next) :
    Stands s next st.behind :=
  ⟨h.reading.step ht hs, h.before⟩

/-- A throw ends here, which both readers have read as `d`. -/
def Thrown (s : String) (outer : List Waiting) (inner : Waiting) (d : Dice) (st : State) : Prop :=
  ∃ phase : Phase, phase.factor? = some (.dice d) ∧ Ripe s ⟨outer, inner, phase⟩ st

/-! ## Selections -/

/-- How many dice are selected is read alike. -/
lemma meets_selected {d : Dice} (h : Stands s ⟨outer, inner, .selected d⟩ st)
    (hone : d.selected = 1) :
    (wordOrOne s (Lexeme.ofText s) st).Meets s
      fun n next => Thrown s outer inner { d with selected := n } next := by
  by_cases hinteger : ∃ n, tokenAt (Lexeme.ofText s) st.pos = some (.integer n)
  · obtain ⟨n, ht⟩ := hinteger
    rw [wordOrOne_of_integer ht]
    rcases Nat.lt_or_ge n UInt32.size with hlt | hge
    · rw [word_of_lt ht hlt]
      exact ⟨_, rfl, (h.step ht (.selected outer inner d hlt)).ripe rfl fun t _ => rfl⟩
    · rw [word_of_le ht hge]
      exact h.refused ht (Reading.step_selected_of_le hge)
  · rw [not_exists] at hinteger
    rw [wordOrOne_of_ne hinteger]
    refine ⟨.selected d, ?_, h.ripe rfl ?_⟩
    · rw [Phase.factor?, ← hone]
    · intro t ht
      cases t with
      | integer n => exact absurd ht (hinteger n)
      | _ => rfl

lemma meets_ranked {d : Dice} {keep : Bool} (highest : Bool)
    (h : Stands s ⟨outer, inner, .selector d keep⟩ st) (hone : d.selected = 1)
    (ht : tokenAt (Lexeme.ofText s) st.pos = some (.mark (rankMark highest))) :
    (ranked s (Lexeme.ofText s) d keep highest st).Meets s (Thrown s outer inner) := by
  rw [ranked, advance_bind]
  have hselected := h.step ht (.rank outer inner d keep highest)
  have hcount := meets_selected hselected hone
  exact (hcount.bind fun n next hthrown => .pure hthrown).since (Nat.le_succ _)

/-- Which dice are selected is read alike. -/
lemma meets_choice {d : Dice} (keep : Bool) (h : Stands s ⟨outer, inner, .dice d⟩ st)
    (hone : d.selected = 1)
    (ht : tokenAt (Lexeme.ofText s) st.pos = some (.mark (keepMark keep))) :
    (choice s (Lexeme.ofText s) d keep st).Meets s (Thrown s outer inner) := by
  have hselector := h.step ht (.keep outer inner d keep)
  rw [choice, advance_bind]
  refine Answer.Meets.since ?_ _
  simp only [peek_bind]
  generalize hnext : tokenAt (Lexeme.ofText s) st.behind.pos = found
  split
  · exact meets_ranked true hselector hone hnext
  · exact meets_ranked false hselector hone hnext
  · rename_i hhighest hlowest
    subst hnext
    exact hselector.unexpected (Reading.refuses_selector hhighest hlowest)

/-- A selection is read alike, if there is one. -/
lemma meets_selection {d : Dice} (h : Stands s ⟨outer, inner, .dice d⟩ st) (hone : d.selected = 1)
    (hbang : d.explodes = true ∨ tokenAt (Lexeme.ofText s) st.pos ≠ some (.mark .bang)) :
    (selection s (Lexeme.ofText s) d st).Meets s (Thrown s outer inner) := by
  simp only [selection, peek_bind]
  generalize hnext : tokenAt (Lexeme.ofText s) st.pos = found
  split
  · exact meets_choice true h hone hnext
  · exact meets_choice false h hone hnext
  · rename_i hkeep hdrop
    subst hnext
    refine ⟨.dice d, rfl, h.ripe rfl fun t ht => ?_⟩
    rw [ht] at hkeep hdrop hbang
    exact Reading.step_dice hkeep hdrop hbang

/-! ## Throws -/

/-- From its sides on, a throw is read alike. -/
theorem meets_throw {count : UInt32} (h : Stands s ⟨outer, inner, .sides count⟩ st) :
    (throw s (Lexeme.ofText s) count st).Meets s (Thrown s outer inner) := by
  refine (meets_sides h).bind fun x after hsides => ?_
  by_cases hbang : tokenAt (Lexeme.ofText s) after.pos = some (.mark .bang)
  · rw [bind_apply, eat_of_eq hbang]
    have hexplodes := hsides.step hbang (.bang outer inner rfl)
    exact (meets_selection hexplodes rfl (.inl rfl)).since (Nat.le_succ _)
  · rw [bind_apply, eat_of_ne hbang]
    exact meets_selection hsides rfl (.inr hbang)

end Descent

end DiceNotation
