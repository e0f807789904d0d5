import DiceNotation.Expr.Eval
import DiceNotation.Proofs.Answers
import DiceNotation.Proofs.Source.Rule
import Mathlib.Tactic.Common
/-!
# Evaluation along a trace

What an evaluation answers depends on its source only through the dice that the source gives. A
`Trace` lists the draws of an evaluation, each with the kind asked for and the die that came, and
`Expr.Gives` says what an expression answers along a trace, without source, table or limit.

The two halves of the correspondence are `Expr.gives_of_eval` and `Expr.eval_of_gives`: evaluation
on a table answers what the expression gives along the trace that the source deals, as long as the
limit affords the dice of the trace. `Expr.evaluate_eq_ok` puts them together for evaluations that
succeed.
-/

namespace DiceNotation

variable {σ : Type}

/-! ## Traces -/

/-- The draws of an evaluation: each kind of die that was asked for, and the die that came. -/
abbrev Trace := List (Sides × Die)

namespace Trace

/-- The kinds of dice that were asked for. -/
def kinds (trace : Trace) : List Sides := trace.map Prod.fst

/-- The dice that came. -/
def dice (trace : Trace) : List Die := trace.map Prod.snd

/-- The trace of dice that were all asked for as one kind. -/
def ofDice (sides : Sides) (dice : List Die) : Trace := dice.map fun die => (sides, die)

@[simp] lemma dice_nil : dice [] = [] := rfl

@[simp] lemma dice_cons (draw : Sides × Die) (trace : Trace) :
    dice (draw :: trace) = draw.2 :: trace.dice := rfl

@[simp] lemma dice_append (first second : Trace) :
    (first ++ second).dice = first.dice ++ second.dice :=
  List.map_append

@[simp] lemma length_dice (trace : Trace) : trace.dice.length = trace.length :=
  List.length_map _

@[simp] lemma length_kinds (trace : Trace) : trace.kinds.length = trace.length :=
  List.length_map _

@[simp] lemma ofDice_nil (sides : Sides) : ofDice sides [] = [] := rfl

@[simp] lemma ofDice_cons (sides : Sides) (die : Die) (dice : List Die) :
    ofDice sides (die :: dice) = (sides, die) :: ofDice sides dice := rfl

@[simp] lemma dice_ofDice (sides : Sides) (dice : List Die) : (ofDice sides dice).dice = dice := by
  simp [ofDice, Trace.dice, Function.comp_def]

@[simp] lemma length_ofDice (sides : Sides) (dice : List Die) :
    (ofDice sides dice).length = dice.length :=
  List.length_map _

/-- The draws of a trace of one kind. -/
lemma mem_ofDice {sides : Sides} {dice : List Die} {draw : Sides × Die} :
    draw ∈ ofDice sides dice ↔ draw.1 = sides ∧ draw.2 ∈ dice := by
  obtain ⟨kind, die⟩ := draw
  simp only [ofDice, List.mem_map, Prod.mk.injEq]
  constructor
  · rintro ⟨d, hd, rfl, rfl⟩
    exact ⟨rfl, hd⟩
  · rintro ⟨rfl, hd⟩
    exact ⟨die, hd, rfl, rfl⟩

end Trace

namespace Source

variable {source : Source σ}

/-- Asked for the kinds of a trace, the source gives its dice and comes from `state` to `next`. -/
def Deals (source : Source σ) (state : σ) (trace : Trace) (next : σ) : Prop :=
  source.draws state trace.kinds = (trace.dice, next)

@[simp] lemma deals_nil {state next : σ} : source.Deals state [] next ↔ state = next := by
  simp [Deals, Trace.kinds, Trace.dice]

@[simp] lemma deals_cons {state next : σ} {draw : Sides × Die} {trace : Trace} :
    source.Deals state (draw :: trace) next ↔
      (source state draw.1).1 = draw.2 ∧ source.Deals (source state draw.1).2 trace next := by
  simp [Deals, Trace.kinds, Trace.dice, Prod.ext_iff, and_assoc]

/-- Two traces are dealt one after the other. -/
lemma deals_append {state next : σ} {first second : Trace} :
    source.Deals state (first ++ second) next ↔
      ∃ middle, source.Deals state first middle ∧ source.Deals middle second next := by
  induction first generalizing state with
  | nil => simp
  | cons draw rest ih => simp [ih, and_assoc]

/-- Every draw of a trace that is dealt fits the rules that the source keeps. -/
lemma Keeps.of_deals {rule : Sides → Die → Prop} {state next : σ} {trace : Trace}
    (h : source.Keeps rule state) (hd : source.Deals state trace next) :
    ∀ draw ∈ trace, rule draw.1 draw.2 := by
  induction trace generalizing state with
  | nil => simp
  | cons first rest ih =>
    rw [deals_cons] at hd
    intro draw hdraw
    rcases List.mem_cons.1 hdraw with rfl | hdraw
    · rw [← hd.1]
      exact h.draw draw.1
    · exact ih (h.next first.1) hd.2 draw hdraw

end Source

/-! ## Limits -/

/-- A limit affords the count `n`: `n` can be counted and is not beyond the limit. -/
def Affords (limit : Option Nat) (n : Nat) : Prop :=
  n ≤ maxCount ∧ ∀ max, limit = some max → n ≤ max

/-- A limit affords every lower count. -/
lemma Affords.of_le {limit : Option Nat} {m n : Nat} (h : Affords limit n) (hmn : m ≤ n) :
    Affords limit m :=
  ⟨Nat.le_trans hmn h.1, fun max hmax => Nat.le_trans hmn (h.2 max hmax)⟩

/-- Every limit affords no dice at all. -/
lemma affords_zero (limit : Option Nat) : Affords limit 0 :=
  ⟨Nat.zero_le _, fun _ _ => Nat.zero_le _⟩

/-- The greatest count that a limit affords. -/
def greatest (limit : Option Nat) : Nat := min (limit.getD maxCount) maxCount

/-- A limit affords the counts up to the greatest one. -/
lemma affords_iff {limit : Option Nat} {n : Nat} : Affords limit n ↔ n ≤ greatest limit := by
  cases limit with
  | none => simp [Affords, greatest]
  | some max =>
    rw [greatest, Option.getD_some, Nat.le_min]
    simp [Affords, and_comm]

/-! ## Passages -/

namespace Table

variable {source : Source σ} {limit : Option Nat} {sides : Sides}

/-- A table passes through a trace: the source deals the trace, and its dice are counted within
the limit. -/
structure Passes (source : Source σ) (limit : Option Nat) (t : Table σ) (trace : Trace)
    (next : Table σ) : Prop where
  /-- The source deals the trace. -/
  deals : source.Deals t.state trace next.state
  /-- Every die of the trace is counted. -/
  rolls_eq : next.rolls = t.rolls + trace.length
  /-- The limit affords the count. -/
  affords : Affords limit next.rolls

/-- A table stays where nothing is drawn. -/
lemma Passes.refl {t : Table σ} (h : Affords limit t.rolls) : Passes source limit t [] t :=
  ⟨Source.deals_nil.2 rfl, rfl, h⟩

/-- Where nothing is drawn a table stays. -/
lemma Passes.eq_of_nil {t next : Table σ} (h : Passes source limit t [] next) : next = t := by
  have hrolls : next.rolls = t.rolls := h.rolls_eq
  have hstate : t.state = next.state := Source.deals_nil.1 h.deals
  cases t
  cases next
  simp_all

/-- Passages follow one another. -/
lemma passes_append {t next : Table σ} {first second : Trace} :
    Passes source limit t (first ++ second) next ↔
      ∃ middle, Passes source limit t first middle ∧ Passes source limit middle second next := by
  constructor
  · rintro ⟨hd, hr, ha⟩
    obtain ⟨state, hfirst, hsecond⟩ := Source.deals_append.1 hd
    rw [List.length_append] at hr
    have hle : t.rolls + first.length ≤ next.rolls := by omega
    refine ⟨⟨t.rolls + first.length, state⟩, ⟨hfirst, rfl, ha.of_le hle⟩, ⟨hsecond, ?_, ha⟩⟩
    change next.rolls = t.rolls + first.length + second.length
    omega
  · rintro ⟨middle, hfirst, hsecond⟩
    refine ⟨Source.deals_append.2 ⟨_, hfirst.deals, hsecond.deals⟩, ?_, hsecond.affords⟩
    rw [List.length_append, hsecond.rolls_eq, hfirst.rolls_eq]
    omega

/-- A passage begins with its first draw. -/
lemma passes_cons {t next : Table σ} {draw : Sides × Die} {trace : Trace} :
    Passes source limit t (draw :: trace) next ↔
      ∃ middle, Passes source limit t [draw] middle ∧ Passes source limit middle trace next := by
  rw [← passes_append, List.singleton_append]

/-- Dice can be reserved as far as the limit affords them. -/
lemma reserve_of_affords {n : Nat} {t : Table σ} (h : Affords limit (t.rolls + n)) :
    t.reserve limit n = .ok () := by
  cases limit with
  | none => rfl
  | some max =>
    have := h.2 max rfl
    rw [reserve, if_neg (by omega)]

/-- Only the limit makes a reservation fail. -/
lemma reserve_eq_error {n : Nat} {t : Table σ} {e : EvalError}
    (h : t.reserve limit n = .error e) : e = .tooManyRolls (greatest limit) := by
  cases limit with
  | none => cases h
  | some max =>
    rw [reserve] at h
    split at h
    · rename_i hmax
      have hle : max ≤ maxCount := by omega
      have hgreatest : greatest (some max) = max := Nat.min_eq_left hle
      cases h
      rw [hgreatest]
    · cases h

/-- A draw passes through the next die of the source, or the limit does not afford it. -/
lemma draw_cases (source : Source σ) (limit : Option Nat) (sides : Sides) (t : Table σ) :
    (Affords limit (t.rolls + 1) ∧ t.draw source limit sides =
        (.ok (source t.state sides).1, ⟨t.rolls + 1, (source t.state sides).2⟩)) ∨
      ¬Affords limit (t.rolls + 1) ∧
        t.draw source limit sides = (.error (.tooManyRolls (greatest limit)), t) := by
  cases hreserve : t.reserve limit 1 with
  | error e =>
    have hdraw : t.draw source limit sides = (.error e, t) := by rw [draw, hreserve]
    rw [reserve_eq_error hreserve] at hdraw
    refine .inr ⟨fun h => ?_, hdraw⟩
    rw [reserve_of_affords h] at hreserve
    cases hreserve
  | ok _ =>
    have hlimit : ∀ max, limit = some max → min (t.rolls + 1) maxCount ≤ max := by
      rintro max rfl
      by_contra hlt
      rw [reserve, if_pos (Nat.lt_of_not_le hlt)] at hreserve
      cases hreserve
    by_cases hc : t.rolls < maxCount
    · refine .inl ⟨⟨hc, fun max hmax => ?_⟩, by simp only [draw, hreserve, if_pos hc]⟩
      have hle := hlimit max hmax
      omega
    · -- The count is at its end, so the limit, if there is one, lies beyond it.
      have hgreatest : greatest limit = maxCount := by
        cases limit with
        | none => exact Nat.min_self _
        | some max =>
          have hle := hlimit max rfl
          have hmax : maxCount ≤ max := by omega
          exact Nat.min_eq_right hmax
      refine .inr ⟨fun h => hc h.1, ?_⟩
      rw [hgreatest]
      simp only [draw, hreserve, if_neg hc]

/-- A draw gives the die that the table passes through. -/
lemma draw_eq_ok {t next : Table σ} {die : Die} :
    t.draw source limit sides = (.ok die, next) ↔ Passes source limit t [(sides, die)] next := by
  constructor
  · intro h
    rcases draw_cases source limit sides t with ⟨ha, hd⟩ | ⟨-, hd⟩
    · rw [hd] at h
      cases h
      exact ⟨by simp, rfl, ha⟩
    · rw [hd] at h
      cases h
  · rintro ⟨hd, hr, ha⟩
    rw [Source.deals_cons, Source.deals_nil] at hd
    rcases draw_cases source limit sides t with ⟨-, h⟩ | ⟨hn, -⟩
    · cases next
      simp_all
    · exact absurd (hr ▸ ha) hn

/-- Only the limit makes a draw fail, and then nothing is drawn. -/
lemma draw_eq_error {t next : Table σ} {e : EvalError}
    (h : t.draw source limit sides = (.error e, next)) :
    e = .tooManyRolls (greatest limit) ∧ next = t := by
  rcases draw_cases source limit sides t with ⟨-, hd⟩ | ⟨-, hd⟩
  · rw [hd] at h
    cases h
  · rw [hd] at h
    cases h
    exact ⟨rfl, rfl⟩

end Table

/-! ## Throws -/

/-- The dice of a throw in their order, `n` of them final: each of these comes after the dice that
exploded into it. -/
inductive Thrown (sides : Sides) (explodes : Bool) : Nat → List Die → Prop
  | none : Thrown sides explodes 0 []
  | exploding {n : Nat} {die : Die} {dice : List Die}
      (hd : explodes = true ∧ die.value = sides.highest)
      (rest : Thrown sides explodes (n + 1) dice) : Thrown sides explodes (n + 1) (die :: dice)
  | final {n : Nat} {die : Die} {dice : List Die}
      (hd : ¬(explodes = true ∧ die.value = sides.highest))
      (rest : Thrown sides explodes n dice) : Thrown sides explodes (n + 1) (die :: dice)

/-- A throw has at least its final dice. -/
lemma Thrown.le_length {sides : Sides} {explodes : Bool} {n : Nat} {dice : List Die}
    (h : Thrown sides explodes n dice) : n ≤ dice.length := by
  induction h with
  | none => exact Nat.le_refl 0
  | exploding hd rest ih => exact Nat.le_succ_of_le ih
  | final hd rest ih => exact Nat.succ_le_succ ih

namespace Table

variable {source : Source σ} {limit : Option Nat} {sides : Sides} {explodes : Bool}

/-- A table that passes through the dice of a throw gathers them. -/
lemma gather_of_thrown {n : Nat} {dice : List Die} (h : Thrown sides explodes n dice)
    {t next : Table σ} (hp : Passes source limit t (Trace.ofDice sides dice) next)
    (thrown : List Die) :
    t.gather source limit sides explodes n thrown = (.ok (thrown.reverse ++ dice), next) := by
  induction h generalizing t thrown with
  | none =>
    rw [gather_zero, hp.eq_of_nil, List.append_nil]
  | @exploding n die dice hd rest ih =>
    obtain ⟨middle, hdraw, hrest⟩ := passes_cons.1 hp
    rw [hd.1] at ih ⊢
    rw [gather_of_exploding (draw_eq_ok.2 hdraw) hd.2, ih hrest]
    simp
  | @final n die dice hd rest ih =>
    obtain ⟨middle, hdraw, hrest⟩ := passes_cons.1 hp
    rw [gather_of_final (draw_eq_ok.2 hdraw) hd, ih hrest]
    simp

/-- Gathering passes the table through the dice that are drawn. They are the dice of a throw and all
of them are gathered, unless the limit stops the throw among them. -/
lemma thrown_of_gather {n : Nat} {t next : Table σ} {thrown : List Die}
    {answer : Except EvalError (List Die)}
    (h : t.gather source limit sides explodes n thrown = (answer, next))
    (ha : Affords limit t.rolls) :
    ∃ dice, Passes source limit t (Trace.ofDice sides dice) next ∧
      (answer = .error (.tooManyRolls (greatest limit)) ∨
        answer = .ok (thrown.reverse ++ dice) ∧ Thrown sides explodes n dice) := by
  fun_induction gather source limit sides explodes n t thrown with
  | case1 t thrown =>
    cases h
    exact ⟨[], .refl ha, .inr ⟨by simp, .none⟩⟩
  | case2 t thrown m e last hdraw =>
    cases h
    obtain ⟨rfl, rfl⟩ := draw_eq_error hdraw
    exact ⟨[], .refl ha, .inl rfl⟩
  | case3 t thrown m die last hdraw hd ih =>
    have hpass := draw_eq_ok.1 hdraw
    obtain ⟨dice, hrest, hanswer⟩ := ih h hpass.affords
    refine ⟨die :: dice, passes_cons.2 ⟨last, hpass, hrest⟩, hanswer.imp_right ?_⟩
    rintro ⟨hok, hthrown⟩
    exact ⟨by simpa using hok, .exploding hd hthrown⟩
  | case4 t thrown m die last hdraw hd ih =>
    have hpass := draw_eq_ok.1 hdraw
    obtain ⟨dice, hrest, hanswer⟩ := ih h hpass.affords
    refine ⟨die :: dice, passes_cons.2 ⟨last, hpass, hrest⟩, hanswer.imp_right ?_⟩
    rintro ⟨hok, hthrown⟩
    exact ⟨by simpa using hok, .final hd hthrown⟩

end Table

/-! ## Outcomes -/

namespace Outcome

/-- What a throw has come to: its dice, those of them that are kept, their sum, and the bounds and
the average for as many dice. -/
lemma ofThrow_eq_ok {d : Dice} {raw : List Die} {o : Outcome} :
    ofThrow d raw = .ok o ↔
      o.raw = raw ∧ o.kept = d.selection.select d.selected.toNat raw ∧
        sum? .zero o.kept = some o.total ∧
        o.minimum.val = o.kept.length * d.sides.lowest.val ∧
        o.maximum.val = o.kept.length * d.sides.highest.val ∧
        o.average =
          (if d.selection = .all then d.count.toFloat else o.kept.length.toUInt64.toFloat) *
            d.sides.average := by
  constructor
  · intro h
    cases htotal : sum? .zero (d.selection.select d.selected.toNat raw) with
    | none =>
      rw [ofThrow, htotal] at h
      cases h
    | some total =>
      rw [ofThrow, htotal] at h
      split at h
      · rename_i minimum maximum hsum hmin hmax
        cases hsum
        cases h
        exact ⟨rfl, rfl, htotal, Amount.ofInt?_eq_some.1 hmin, Amount.ofInt?_eq_some.1 hmax, rfl⟩
      · cases h
  · obtain ⟨total, minimum, maximum, average, raw', kept⟩ := o
    rintro ⟨hraw, hkept, htotal, hmin, hmax, haverage⟩
    dsimp only at hraw hkept htotal hmin hmax haverage
    subst hraw hkept haverage
    simp only [ofThrow, htotal, ← hmin, ← hmax, Amount.ofInt?_val]

/-- What an operation has come to, part by part. -/
lemma combine_eq_ok {op : Operator} {l r o : Outcome} :
    combine op l r = .ok o ↔
      op.apply l.total r.total = .ok o.total ∧ Bounds.combine op l.bounds r.bounds = .ok o.bounds ∧
        o.average = op.applyFloat l.average r.average ∧ o.raw = l.raw ++ r.raw ∧
        o.kept = l.kept ++ r.kept := by
  unfold combine
  constructor
  · intro h
    obtain ⟨total, htotal, hrest⟩ := bind_eq_ok.1 h
    obtain ⟨bounds, hbounds, ho⟩ := bind_eq_ok.1 hrest
    cases ho
    exact ⟨htotal, hbounds, rfl, rfl, rfl⟩
  · obtain ⟨total, minimum, maximum, average, raw, kept⟩ := o
    rintro ⟨htotal, hbounds, rfl, rfl, rfl⟩
    rw [htotal, hbounds]
    rfl

end Outcome

/-! ## Expressions -/

namespace Expr

/-- What an expression answers along a trace. The operands of an operation take one part of the
trace each; where the left one fails, the trace ends. -/
inductive Gives : Expr → Trace → Except EvalError Outcome → Prop
  | number (value : Amount) : Gives (.number value) [] (.ok (.constant value))
  | dice {d : Dice} {raw : List Die} (h : Thrown d.sides d.explodes d.count.toNat raw) :
      Gives (.dice d) (Trace.ofDice d.sides raw) (Outcome.ofThrow d raw)
  | left {left right : Expr} {op : Operator} {trace : Trace} {e : EvalError}
      (hl : Gives left trace (.error e)) : Gives (.binary left op right) trace (.error e)
  | right {left right : Expr} {op : Operator} {first second : Trace} {l : Outcome} {e : EvalError}
      (hl : Gives left first (.ok l)) (hr : Gives right second (.error e)) :
      Gives (.binary left op right) (first ++ second) (.error e)
  | binary {left right : Expr} {op : Operator} {first second : Trace} {l r : Outcome}
      (hl : Gives left first (.ok l)) (hr : Gives right second (.ok r)) :
      Gives (.binary left op right) (first ++ second) (Outcome.combine op l r)

/-- Induction on the traces along which an expression has an outcome. -/
@[elab_as_elim]
theorem Gives.ok_induction
    {motive : ∀ (e : Expr) (trace : Trace) (o : Outcome), Gives e trace (.ok o) → Prop}
    (number : ∀ value, motive (.number value) [] (.constant value) (.number value))
    (dice : ∀ d raw o (ht : Thrown d.sides d.explodes d.count.toNat raw)
      (ho : Outcome.ofThrow d raw = .ok o),
      motive (.dice d) (Trace.ofDice d.sides raw) o (ho ▸ .dice ht))
    (binary : ∀ left op right first second l r o (hl : Gives left first (.ok l))
      (hr : Gives right second (.ok r)) (ho : Outcome.combine op l r = .ok o),
      motive left first l hl → motive right second r hr →
        motive (.binary left op right) (first ++ second) o (ho ▸ .binary hl hr))
    {e : Expr} {trace : Trace} {o : Outcome} (h : Gives e trace (.ok o)) :
    motive e trace o h := by
  suffices hall : ∀ answer (h : Gives e trace answer) o (ho : answer = .ok o),
      motive e trace o (ho ▸ h) by
    exact hall _ h o rfl
  clear h
  intro answer h
  induction h with
  | number value =>
    rintro o ⟨⟩
    exact number value
  | dice ht =>
    intro o ho
    exact dice _ _ o ht ho
  | left hl => rintro o ⟨⟩
  | right hl hr => rintro o ⟨⟩
  | binary hl hr ihl ihr =>
    intro o ho
    exact binary _ _ _ _ _ _ _ o hl hr ho (ihl _ rfl) (ihr _ rfl)

/-- The dice of an outcome are those of its trace. -/
lemma Gives.raw_eq {e : Expr} {trace : Trace} {o : Outcome} (h : Gives e trace (.ok o)) :
    o.raw = trace.dice := by
  induction h using Gives.ok_induction with
  | number value => rfl
  | dice d raw o ht ho => rw [(Outcome.ofThrow_eq_ok.1 ho).1, Trace.dice_ofDice]
  | binary left op right first second l r o hl hr ho ihl ihr =>
    obtain ⟨-, -, -, hraw, -⟩ := Outcome.combine_eq_ok.1 ho
    rw [hraw, ihl, ihr, Trace.dice_append]

variable {source : Source σ} {limit : Option Nat}

/-- A table that passes through a trace answers what the expression gives along it. -/
lemma eval_of_gives {e : Expr} {trace : Trace} {answer : Except EvalError Outcome}
    (h : Gives e trace answer) {t next : Table σ} (hp : Table.Passes source limit t trace next) :
    e.eval source limit t = (answer, next) := by
  induction h generalizing t next with
  | number value => rw [hp.eq_of_nil, eval]
  | @dice d raw hthrown =>
    have hcount : t.rolls + d.count.toNat ≤ next.rolls := by
      have := hp.rolls_eq
      have := hthrown.le_length
      rw [Trace.length_ofDice] at *
      omega
    rw [eval, Dice.eval, Table.reserve_of_affords (hp.affords.of_le hcount)]
    simp [Table.gather_of_thrown hthrown hp]
  | left hl ih => rw [eval, ih hp]
  | right hl hr ihl ihr =>
    obtain ⟨middle, hfirst, hsecond⟩ := Table.passes_append.1 hp
    rw [eval, ihl hfirst]
    simp only [ihr hsecond]
  | binary hl hr ihl ihr =>
    obtain ⟨middle, hfirst, hsecond⟩ := Table.passes_append.1 hp
    rw [eval, ihl hfirst]
    simp only [ihr hsecond]

/-- An evaluation passes the table through the dice that are drawn, and answers what the expression
gives along them, unless the limit stops it among them. -/
lemma gives_of_eval {e : Expr} {answer : Except EvalError Outcome} {t next : Table σ}
    (h : e.eval source limit t = (answer, next)) (ha : Affords limit t.rolls) :
    ∃ trace, Table.Passes source limit t trace next ∧
      (answer = .error (.tooManyRolls (greatest limit)) ∨ Gives e trace answer) := by
  induction e generalizing answer t next with
  | number value =>
    cases h
    exact ⟨[], .refl ha, .inr (.number value)⟩
  | dice d =>
    rw [eval, Dice.eval] at h
    cases hreserve : t.reserve limit d.count.toNat with
    | error e =>
      rw [hreserve] at h
      cases h
      exact ⟨[], .refl ha, .inl (congrArg _ (Table.reserve_eq_error hreserve))⟩
    | ok _ =>
      rw [hreserve] at h
      cases hgather : t.gather source limit d.sides d.explodes d.count.toNat [] with
      | mk gathered last =>
        simp only [hgather] at h
        obtain ⟨raw, hpass, rfl | ⟨rfl, hthrown⟩⟩ := Table.thrown_of_gather hgather ha
        · cases h
          exact ⟨_, hpass, .inl rfl⟩
        · cases h
          exact ⟨_, hpass, .inr (.dice hthrown)⟩
  | binary left op right ihl ihr =>
    rw [eval] at h
    cases hleft : left.eval source limit t with
    | mk l middle =>
      rw [hleft] at h
      obtain ⟨first, hp, rfl | hfirst⟩ := ihl hleft ha
      · cases h
        exact ⟨first, hp, .inl rfl⟩
      · cases l with
        | error e =>
          cases h
          exact ⟨first, hp, .inr (.left hfirst)⟩
        | ok l =>
          cases hright : right.eval source limit middle with
          | mk r last =>
            simp only [hright] at h
            obtain ⟨second, hp', hsecond⟩ := ihr hright hp.affords
            have hpass := Table.passes_append.2 ⟨middle, hp, hp'⟩
            rcases hsecond with rfl | hsecond
            · cases h
              exact ⟨_, hpass, .inl rfl⟩
            · cases r with
              | error e =>
                cases h
                exact ⟨_, hpass, .inr (.right hfirst hsecond)⟩
              | ok r =>
                cases h
                exact ⟨_, hpass, .inr (.binary hfirst hsecond)⟩

/-- An evaluation answers what the expression gives along the trace that the source deals, provided
that the limit affords the dice of the trace. -/
lemma evaluate_of_gives {e : Expr} {trace : Trace} {answer : Except EvalError Outcome}
    {state next : σ} (h : Gives e trace answer) (hd : source.Deals state trace next)
    (ha : Affords limit trace.length) : e.evaluate source limit state = (answer, next) := by
  have hpass : Table.Passes source limit (.start state) trace ⟨trace.length, next⟩ :=
    ⟨hd, (Nat.zero_add _).symm, ha⟩
  rw [evaluate, eval_of_gives h hpass]

/-- An evaluation succeeds with the outcome that the expression has along the trace that the source
deals, provided that the limit affords the dice of the trace. -/
theorem evaluate_eq_ok {e : Expr} {o : Outcome} {state next : σ} :
    e.evaluate source limit state = (.ok o, next) ↔
      ∃ trace, Gives e trace (.ok o) ∧ source.Deals state trace next ∧
        Affords limit trace.length := by
  constructor
  · intro h
    rw [evaluate] at h
    cases he : e.eval source limit (.start state) with
    | mk answer table =>
      rw [he] at h
      cases h
      obtain ⟨trace, hpass, hrefused | hgives⟩ := gives_of_eval he (affords_zero limit)
      · cases hrefused
      · refine ⟨trace, hgives, hpass.deals, ?_⟩
        have : table.rolls = trace.length := by simpa [Table.start] using hpass.rolls_eq
        exact this ▸ hpass.affords
  · rintro ⟨trace, hgives, hdeals, ha⟩
    exact evaluate_of_gives hgives hdeals ha

/-- Whether an evaluation succeeds and its outcome and the state after it pass a test. -/
def succeeds (e : Expr) (source : Source σ) (limit : Option Nat) (state : σ)
    (test : Outcome → σ → Bool) : Bool :=
  match e.evaluate source limit state with
  | (.ok o, next) => test o next
  | (.error _, _) => false

/-- An evaluation that succeeds has an outcome. -/
lemma exists_of_succeeds {e : Expr} {state : σ} {test : Outcome → σ → Bool}
    (h : e.succeeds source limit state test = true) :
    ∃ o next, e.evaluate source limit state = (.ok o, next) ∧ test o next = true := by
  unfold succeeds at h
  split at h
  · rename_i o next heval
    exact ⟨o, next, heval, h⟩
  · cases h

/-- Whether an evaluation fails with an error. -/
def failsWith (e : Expr) (source : Source σ) (limit : Option Nat) (state : σ) (err : EvalError) :
    Bool :=
  match (e.evaluate source limit state).1 with
  | .ok _ => false
  | .error found => found = err

/-- An evaluation that fails has no outcome. -/
lemma exists_of_failsWith {e : Expr} {state : σ} {err : EvalError}
    (h : e.failsWith source limit state err = true) :
    ∃ next, e.evaluate source limit state = (.error err, next) := by
  unfold failsWith at h
  split at h
  · cases h
  · rename_i found hfound
    rw [← of_decide_eq_true h, ← hfound]
    exact ⟨_, rfl⟩

end Expr

end DiceNotation
