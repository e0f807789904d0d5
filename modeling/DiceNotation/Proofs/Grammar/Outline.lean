import DiceNotation.Proofs.Grammar.Recognition
import DiceNotation.Proofs.Grammar.Viable
/-!
# Outlines of readings

Of a partly read expression, an `Outline` has only how many parentheses are open and what may come
next by its sort. The numbers and the trees that were read are left out, and so are the limits on
integers: `Outline.step` takes every integer where one may stand.

A step of a reading is a step of its outline (`Reading.Step.outline`). Conversely, where the outline
can go on the reading can, or else an integer is at fault (`Reading.step_of_outline`): it is too
large or zero, or it was read as a number and a `d` comes for which it is too large as a count.

The place also shows in the last tokens: whether a factor is due
(`Reading.Runs.phase_eq_operand_iff`) and whether an integer was read as one
(`Reading.Runs.phase_eq_integer_iff`).
-/

namespace DiceNotation

open Token (Kind)

/-- Where reading stands inside the innermost open parentheses, without what was read. -/
inductive Place where
  | operand
  | integer
  | sides
  | dice (explodes : Bool)
  | selector
  | selected
  | complete

/-- The place of a phase. -/
def Phase.place : Phase → Place
  | .operand => .operand
  | .integer _ _ => .integer
  | .sides _ => .sides
  | .dice d => .dice d.explodes
  | .selector _ _ => .selector
  | .selected _ => .selected
  | .complete _ => .complete

/-- Whether a factor may end. -/
def Place.mayEnd : Place → Bool
  | .operand | .sides | .selector => false
  | .integer | .dice _ | .selected | .complete => true

lemma Phase.mayEnd_place (phase : Phase) : phase.place.mayEnd = phase.factor?.isSome := by
  cases phase <;> rfl

/-- How many parentheses are open, and where reading stands inside them. -/
structure Outline where
  /-- How many parentheses are open. -/
  depth : Nat
  /-- Where reading stands inside the innermost ones. -/
  place : Place

/-- The outline of a partly read expression. -/
def Reading.outline (r : Reading) : Outline := ⟨r.outer.length, r.phase.place⟩

namespace Outline

/-- The outline after a sort of token that follows a factor. -/
def afterFactor (depth : Nat) : Kind → Option Outline
  | .mark m =>
    match m.operator?, m, depth with
    | some _, _, _ => some ⟨depth, .operand⟩
    | none, .rightParen, outer + 1 => some ⟨outer, .complete⟩
    | none, _, _ => none
  | _ => none

/-- The outline after one more token of a sort. -/
def step : Outline → Kind → Option Outline
  | ⟨depth, .operand⟩, .mark .leftParen => some ⟨depth + 1, .operand⟩
  | ⟨depth, .operand⟩, .mark .d => some ⟨depth, .sides⟩
  | ⟨depth, .operand⟩, .integer => some ⟨depth, .integer⟩
  | ⟨depth, .integer⟩, .mark .d => some ⟨depth, .sides⟩
  | ⟨depth, .sides⟩, .mark .fate => some ⟨depth, .dice false⟩
  | ⟨depth, .sides⟩, .integer => some ⟨depth, .dice false⟩
  | ⟨depth, .dice false⟩, .mark .bang => some ⟨depth, .dice true⟩
  | ⟨depth, .dice _⟩, .mark .keep => some ⟨depth, .selector⟩
  | ⟨depth, .dice _⟩, .mark .d => some ⟨depth, .selector⟩
  | ⟨depth, .selector⟩, .mark .highest => some ⟨depth, .selected⟩
  | ⟨depth, .selector⟩, .mark .lowest => some ⟨depth, .selected⟩
  | ⟨depth, .selected⟩, .integer => some ⟨depth, .complete⟩
  | ⟨depth, place⟩, k => if place.mayEnd then afterFactor depth k else none

/-- The outline after the sorts of some tokens. -/
def run (o : Outline) (ks : List Kind) : Option Outline := ks.foldlM step o

end Outline

/-! ## Steps of a reading -/

namespace Reading

open Grammar

/-- A factor that may end is followed alike in the outline. -/
lemma outline_step_of_factor {place : Place} (hplace : place.mayEnd) (depth : Nat) {m : Mark}
    (hm : m = .rightParen ∨ ∃ op, m = .ofOperator op) :
    Outline.step ⟨depth, place⟩ (.mark m) = Outline.afterFactor depth (.mark m) := by
  have hne : m ≠ .d ∧ m ≠ .bang ∧ m ≠ .keep := by
    rcases hm with rfl | ⟨op, rfl⟩
    · decide
    · cases op <;> decide
  cases place with
  | operand | sides | selector => cases hplace
  | integer => cases m <;> simp_all [Outline.step, Place.mayEnd]
  | dice explodes => cases explodes <;> cases m <;> simp_all [Outline.step, Place.mayEnd]
  | selected | complete => rfl

/-- A step of a reading is a step of its outline. -/
lemma Step.outline {r next : Reading} {t : Token} (h : Step r t next) :
    r.outline.step t.kind = some next.outline := by
  cases h with
  | leftParen outer inner => rfl
  | integer outer inner fits => rfl
  | single outer inner => rfl
  | counted outer inner fits pos fits' => rfl
  | faces outer inner count h => cases h <;> rfl
  | @bang outer inner d h =>
    obtain ⟨count, sides, explodes, selection, selected⟩ := d
    cases h
    rfl
  | keep outer inner d keep =>
    obtain ⟨count, sides, explodes, selection, selected⟩ := d
    cases explodes <;> cases keep <;> rfl
  | rank outer inner d keep highest => cases highest <;> rfl
  | selected outer inner d fits => rfl
  | @operator outer inner phase f h op =>
    have hplace : phase.place.mayEnd := by rw [phase.mayEnd_place, h]; rfl
    exact (outline_step_of_factor hplace _ (.inr ⟨op, rfl⟩)).trans (by cases op <;> rfl)
  | @rightParen outer waiting inner phase f h =>
    have hplace : phase.place.mayEnd := by rw [phase.mayEnd_place, h]; rfl
    exact (outline_step_of_factor hplace _ (.inl rfl)).trans rfl

/-- A run of a reading is a run of its outline. -/
lemma Runs.outline {r last : Reading} {ts : List Token} (h : Runs r ts last) :
    r.outline.run (ts.map Token.kind) = some last.outline := by
  induction ts generalizing r with
  | nil =>
    rw [runs_nil.1 h]
    rfl
  | cons t ts ih =>
    obtain ⟨middle, hstep, hrest⟩ := runs_cons.1 h
    rw [List.map_cons, Outline.run, List.foldlM_cons, hstep.outline]
    exact ih hrest

/-! ## Where the outline goes on -/

/-- An integer was read as a number, and a `d` comes for which it is too large as a count. -/
def ExceedsCount (r : Reading) (t : Token) : Prop :=
  t = .mark .d ∧ ∃ n fits, r.phase = .integer n fits ∧ UInt32.size ≤ n

/-- What may follow a factor in the outline may follow it. -/
lemma exists_step_of_afterFactor {outer : List Waiting} {inner : Waiting} {phase : Phase} {f : Expr}
    (hf : phase.factor? = some f) {t : Token} {o : Outline}
    (h : Outline.afterFactor outer.length t.kind = some o) :
    ∃ next, Step ⟨outer, inner, phase⟩ t next := by
  cases t with
  | integer n => cases h
  | unknown => cases h
  | mark m =>
    cases hop : m.operator? with
    | some op =>
      rw [Mark.operator?_eq_some.1 hop]
      exact ⟨_, .operator outer inner hf op⟩
    | none =>
      cases m with
      | rightParen =>
        cases outer with
        | nil => cases h
        | cons waiting outer => exact ⟨_, .rightParen outer waiting inner hf⟩
      | plus | minus | star | slash => cases hop
      | _ => cases h

/-- Where its outline can go on with the sort of a token, a reading can go on with the token, or an
integer is at fault. -/
lemma step_of_outline {r : Reading} {t : Token} {o : Outline}
    (h : r.outline.step t.kind = some o) :
    (∃ next, Step r t next) ∨ r.step t = .error .numberTooLarge ∨ r.step t = .error .zeroDice ∨
      r.ExceedsCount t := by
  obtain ⟨outer, inner, phase⟩ := r
  cases phase with
  | operand =>
    cases t with
    | unknown => cases h
    | integer n =>
      by_cases fits : n < 0x8000000000000000
      · exact .inl ⟨_, .integer outer inner fits⟩
      · exact .inr (.inl (dif_neg fits))
    | mark m =>
      cases m with
      | leftParen => exact .inl ⟨_, .leftParen outer inner⟩
      | d => exact .inl ⟨_, .single outer inner⟩
      | _ => cases h
  | integer n fits =>
    by_cases hd : t = .mark .d
    · subst hd
      by_cases fits' : n < UInt32.size
      · by_cases hzero : n = 0
        · exact .inr (.inr (.inl ((dif_pos fits').trans (if_pos hzero))))
        · exact .inl ⟨_, .counted outer inner fits (Nat.pos_of_ne_zero hzero) fits'⟩
      · exact .inr (.inr (.inr ⟨rfl, n, fits, rfl, Nat.le_of_not_lt fits'⟩))
    · have hfollow : Outline.afterFactor outer.length t.kind = some o := by
        cases t with
        | mark m => cases m <;> first | exact h | exact absurd rfl hd
        | _ => exact h
      exact .inl (exists_step_of_afterFactor rfl hfollow)
  | sides count =>
    cases t with
    | unknown => cases h
    | integer n =>
      by_cases fits : n < UInt32.size
      · by_cases pos : 0 < UInt32.ofNatLT n fits
        · exact .inl ⟨_, .faces outer inner count (.poly fits pos)⟩
        · have hword : word? n = .ok (.ofNatLT n fits) := word?_eq_ok.2 ⟨fits, rfl⟩
          refine .inr (.inr (.inl ?_))
          simp only [step, hword]
          exact dif_neg pos
      · refine .inr (.inl ?_)
        simp only [step, word?_eq_error.2 ⟨rfl, Nat.le_of_not_lt fits⟩]
        rfl
    | mark m =>
      cases m with
      | fate => exact .inl ⟨_, .faces outer inner count .fate⟩
      | _ => cases h
  | dice d =>
    obtain ⟨count, sides, explodes, selection, selected⟩ := d
    cases t with
    | integer n => cases explodes <;> cases h
    | unknown => cases explodes <;> cases h
    | mark m =>
      cases m with
      | bang =>
        cases explodes with
        | false => exact .inl ⟨_, .bang outer inner rfl⟩
        | true => cases h
      | keep => exact .inl ⟨_, .keep outer inner _ true⟩
      | d => exact .inl ⟨_, .keep outer inner _ false⟩
      | _ => cases explodes <;> exact .inl (exists_step_of_afterFactor rfl h)
  | selector d keep =>
    cases t with
    | integer n => cases h
    | unknown => cases h
    | mark m =>
      cases m with
      | highest => exact .inl ⟨_, .rank outer inner d keep true⟩
      | lowest => exact .inl ⟨_, .rank outer inner d keep false⟩
      | _ => cases h
  | selected d =>
    cases t with
    | integer n =>
      by_cases fits : n < UInt32.size
      · exact .inl ⟨_, .selected outer inner d fits⟩
      · refine .inr (.inl ?_)
        simp only [step, word?_eq_error.2 ⟨rfl, Nat.le_of_not_lt fits⟩]
        rfl
    | _ => exact .inl (exists_step_of_afterFactor rfl h)
  | complete e => exact .inl (exists_step_of_afterFactor rfl h)

/-- A `d` that comes after too large a count is refused as a token that cannot follow a number. -/
lemma ExceedsCount.fault_eq {r : Reading} {t : Token} {rest : List Token} {fault : Fault}
    (h : r.ExceedsCount t) (hfails : r.Fails (t :: rest) fault) :
    fault = .unexpected (some (.mark .d)) r.expected.flatten := by
  obtain ⟨outer, inner, phase⟩ := r
  obtain ⟨rfl, n, fits, hphase, hlarge⟩ := h
  cases hphase
  cases hfails with
  | token hstep =>
    have hother : step ⟨outer, inner, .integer n fits⟩ (.mark .d) =
        otherwise ⟨outer, inner, .integer n fits⟩ (.mark .d) :=
      dif_neg (Nat.not_lt_of_le hlarge)
    rw [hother] at hstep
    exact eq_refuse_of_otherwise hstep

/-- What has been read may end where its outline may, outside of all parentheses. -/
lemma exists_finish_of_outline {r last : Reading} {e : Expr} (h : r.outline = last.outline)
    (hends : last.Ends [] e) : ∃ e', r.finish = .ok e' := by
  obtain ⟨outer, inner, phase⟩ := r
  obtain ⟨houter, f, hf, -⟩ := hends
  have hdepth : outer.length = last.outer.length := congrArg Outline.depth h
  have hplace : phase.place = last.phase.place := congrArg Outline.place h
  rw [houter, List.length_nil, List.length_eq_zero_iff] at hdepth
  subst hdepth
  have hsome : phase.factor?.isSome := by
    rw [← phase.mayEnd_place, hplace, last.phase.mayEnd_place, hf]
    rfl
  obtain ⟨f', hf'⟩ := Option.isSome_iff_exists.1 hsome
  exact ⟨_, finish_eq_ok.2 ⟨rfl, f', hf', rfl⟩⟩

end Reading

/-! ## Expressions but for the sizes of integers -/

namespace Grammar

/-- The tokens are an expression but for the sizes of their integers: with others in their places
they derive from the grammar as an expression. -/
def Formed (ts : List Token) : Prop :=
  ∃ us e, us.map Token.kind = ts.map Token.kind ∧ Derives .expression us e

end Grammar

namespace Reading

open Grammar

/-- Where tokens that are an expression but for the sizes of their integers cannot be read on, an
integer is at fault. -/
lemma Fails.of_formed {r : Reading} {before after : List Token} {fault : Fault}
    (h : r.Fails after fault) (hrun : start.Runs before r) (hformed : Formed (before ++ after)) :
    fault = .numberTooLarge ∨ fault = .zeroDice ∨
      ∃ t rest, after = t :: rest ∧ r.ExceedsCount t := by
  obtain ⟨us, e, hkinds, hderives⟩ := hformed
  obtain ⟨last, hlast, hends⟩ := Expr.ofTokens_eq_ok.1 (Expr.ofTokens_eq_ok_iff.2 hderives)
  -- The outline of what was read goes on to that of the expression with other integers.
  have hrest : r.outline.run (after.map Token.kind) = some last.outline := by
    have hall := hlast.outline
    rw [hkinds, List.map_append, Outline.run, List.foldlM_append] at hall
    have hbefore := hrun.outline
    rw [Outline.run] at hbefore
    rw [hbefore] at hall
    exact hall
  cases h with
  | @token t rest _ hstep =>
    rw [List.map_cons, Outline.run, List.foldlM_cons] at hrest
    obtain ⟨o, ho, -⟩ := Option.bind_eq_some_iff.1 hrest
    rcases step_of_outline ho with ⟨next, hnext⟩ | hlarge | hzero | hexceeds
    · rw [step_eq_ok.2 hnext] at hstep
      cases hstep
    · rw [hlarge] at hstep
      cases hstep
      exact .inl rfl
    · rw [hzero] at hstep
      cases hstep
      exact .inr (.inl rfl)
    · exact .inr (.inr ⟨t, rest, rfl, hexceeds⟩)
  | atEnd hfinish =>
    obtain ⟨e', he'⟩ := exists_finish_of_outline (Option.some.inj hrest) hends
    rw [he'] at hfinish
    cases hfinish

end Reading

/-! ## Where a factor is due -/

/-- Whether a factor has to follow: it does after an opening parenthesis and after an operator. -/
def Token.Kind.awaitsFactor (k : Kind) : Bool := k = .mark .leftParen || k.operator?.isSome

/-- A factor is due: at the beginning, and where the last token awaits one. -/
def Grammar.FactorDue (ts : List Token) : Prop := ∀ t ∈ ts.getLast?, t.kind.awaitsFactor

namespace Reading

open Grammar

/-- A factor has to come just after a token that awaits one. -/
lemma Step.phase_eq_operand_iff {r next : Reading} {t : Token} (h : Step r t next) :
    next.phase = .operand ↔ t.kind.awaitsFactor := by
  cases h with
  | leftParen => exact iff_of_true rfl rfl
  | operator _ _ _ op => exact iff_of_true rfl (by cases op <;> rfl)
  | faces _ _ _ hfaces => cases hfaces <;> exact iff_of_false nofun Bool.false_ne_true
  | keep _ _ _ keep => cases keep <;> exact iff_of_false nofun Bool.false_ne_true
  | rank _ _ _ _ highest => cases highest <;> exact iff_of_false nofun Bool.false_ne_true
  | _ => exact iff_of_false nofun Bool.false_ne_true

/-- Reading waits for a factor where one is due. -/
lemma Runs.phase_eq_operand_iff {r : Reading} {ts : List Token} (h : start.Runs ts r) :
    r.phase = .operand ↔ FactorDue ts := by
  cases ts using List.reverseRecOn with
  | nil =>
    rw [← runs_nil.1 h]
    exact iff_of_true rfl nofun
  | append_singleton front t =>
    obtain ⟨middle, -, hstep⟩ := runs_concat.1 h
    simp [hstep.phase_eq_operand_iff, FactorDue]

/-- Reading is after an integer that is a number or a count just where it was read as a factor. -/
lemma Step.phase_eq_integer_iff {r next : Reading} {t : Token} {n : Nat} (h : Step r t next) :
    (∃ fits, next.phase = .integer n fits) ↔ t = .integer n ∧ r.phase = .operand := by
  constructor
  · rintro ⟨fits, hphase⟩
    cases h with
    | integer =>
      cases hphase
      exact ⟨rfl, rfl⟩
    | _ => cases hphase
  · rintro ⟨rfl, hphase⟩
    cases h with
    | integer _ _ fits => exact ⟨fits, rfl⟩
    | _ => cases hphase

/-- An integer that is too large for a throw is read as a number. -/
lemma Step.phase_of_large {r next : Reading} {n : Nat} (h : Step r (.integer n) next)
    (hlarge : UInt32.size ≤ n) : ∃ fits, next.phase = .integer n fits := by
  cases h with
  | integer _ _ fits => exact ⟨fits, rfl⟩
  | selected _ _ _ fits => exact absurd fits (Nat.not_lt_of_le hlarge)
  | faces _ _ _ hfaces =>
    cases hfaces with
    | poly fits pos => exact absurd fits (Nat.not_lt_of_le hlarge)

/-- After an integer that is a number or a count, a factor was due before it. -/
lemma Runs.phase_eq_integer_iff {r : Reading} {ts : List Token} {n : Nat} (h : start.Runs ts r) :
    (∃ fits, r.phase = .integer n fits) ↔
      ∃ front, ts = front ++ [.integer n] ∧ FactorDue front := by
  cases ts using List.reverseRecOn with
  | nil =>
    rw [← runs_nil.1 h]
    refine iff_of_false nofun ?_
    rintro ⟨front, hnil, -⟩
    exact List.append_ne_nil_of_right_ne_nil front (List.cons_ne_nil _ _) hnil.symm
  | append_singleton front t =>
    obtain ⟨middle, hfront, hstep⟩ := runs_concat.1 h
    rw [hstep.phase_eq_integer_iff, hfront.phase_eq_operand_iff]
    constructor
    · rintro ⟨rfl, hdue⟩
      exact ⟨front, rfl, hdue⟩
    · rintro ⟨front', heq, hdue⟩
      obtain ⟨rfl, hsame⟩ := List.append_inj' heq rfl
      exact ⟨List.singleton_inj.1 hsame, hdue⟩

end Reading

end DiceNotation
