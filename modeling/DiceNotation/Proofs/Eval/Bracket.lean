import DiceNotation.Proofs.Bounds.Interval
import DiceNotation.Proofs.Eval.Trace
import DiceNotation.Proofs.Roll.Making
import Mathlib
/-!
# Totals within their bounds

With honest dice the total of an outcome lies within its bounds (`Expr.Gives.bracketed`): a throw is
a sum of faces, and an operation stays within the bounds combined from those of its operands.

The same holds for every roll of a line that was thrown with honest dice from its first roll on
(`Roll.Honest`). What such a line hands down is that each die on record is a proper die of the kind
whose label it bears; a replay of it is then as honest as the source of its fresh dice, even if it
asks for other kinds of dice than the throw that is replayed, or for more or fewer of them.
-/

namespace DiceNotation

/-! ## Throws -/

namespace Selection

/-- Dice that are put back in order were among those placed. -/
lemma mem_of_mem_inOrder {die : Die} {placed : List Placed} (h : die ∈ inOrder placed) :
    die ∈ placed.map Prod.fst := by
  rw [inOrder, List.mem_map] at h
  obtain ⟨p, hp, rfl⟩ := h
  exact List.mem_map_of_mem (List.mem_mergeSort.1 hp)

/-- Dice in any ranking are those that were thrown. -/
lemma mem_of_mem_ranked {die : Die} {dice : List Die} {le : Placed → Placed → Bool}
    (h : die ∈ (dice.zipIdx.mergeSort le).map Prod.fst) : die ∈ dice := by
  obtain ⟨p, hp, rfl⟩ := List.mem_map.1 h
  exact List.fst_mem_of_mem_zipIdx (List.mem_mergeSort.1 hp)

/-- Only thrown dice are selected. -/
lemma mem_of_mem_select {selection : Selection} {n : Nat} {dice : List Die} {die : Die}
    (h : die ∈ selection.select n dice) : die ∈ dice := by
  cases selection with
  | all => exact h
  | keepHighest | keepLowest =>
    exact mem_of_mem_ranked (List.map_subset _ (List.take_subset n _) (mem_of_mem_inOrder h))
  | dropHighest | dropLowest =>
    exact mem_of_mem_ranked (List.map_subset _ (List.drop_subset n _) (mem_of_mem_inOrder h))

end Selection

namespace Outcome

/-- A sum of dice is the exact sum of what they show. -/
lemma sum?_eq_some {start total : Amount} {dice : List Die} (h : sum? start dice = some total) :
    total.val = start.val + (dice.map fun die => die.value.val).sum := by
  induction dice generalizing start with
  | nil =>
    cases h
    simp
  | cons die rest ih =>
    rw [sum?, Option.bind_eq_some_iff] at h
    obtain ⟨next, hnext, hrest⟩ := h
    rw [ih hrest, Amount.ofInt?_eq_some.1 hnext, List.map_cons, List.sum_cons, add_assoc]

/-- The total lies within the bounds. -/
def Bracketed (o : Outcome) : Prop :=
  o.minimum.val ≤ o.total.val ∧ o.total.val ≤ o.maximum.val

/-- The total of a throw of proper dice lies within the bounds for as many dice. -/
lemma bracketed_of_ofThrow {d : Dice} {raw : List Die} {o : Outcome} (h : ofThrow d raw = .ok o)
    (hraw : ∀ die ∈ raw, die.Legal d.sides) : o.Bracketed := by
  obtain ⟨-, hkept, hsum, hmin, hmax, -⟩ := ofThrow_eq_ok.1 h
  have hlegal : ∀ die ∈ o.kept, die.Legal d.sides := fun die hdie =>
    hraw die (Selection.mem_of_mem_select (hkept ▸ hdie))
  have htotal : o.total.val = (o.kept.map fun die => die.value.val).sum := by
    rw [sum?_eq_some hsum]
    exact zero_add _
  constructor
  · rw [hmin, htotal]
    have := List.card_nsmul_le_sum (o.kept.map fun die => die.value.val) d.sides.lowest.val
      (by simpa using fun die hdie => (hlegal die hdie).lowest_le)
    simpa using this
  · rw [hmax, htotal]
    have := List.sum_le_card_nsmul (o.kept.map fun die => die.value.val) d.sides.highest.val
      (by simpa using fun die hdie => (hlegal die hdie).le_highest)
    simpa using this

end Outcome

/-! ## Expressions -/

namespace Expr

/-- Along a trace of proper dice the total lies within the bounds. -/
lemma Gives.bracketed {e : Expr} {trace : Trace} {o : Outcome} (h : Gives e trace (.ok o))
    (hlegal : ∀ draw ∈ trace, draw.2.Legal draw.1) : o.Bracketed := by
  induction h using Gives.ok_induction with
  | number value => exact ⟨le_rfl, le_rfl⟩
  | dice d raw o ht ho =>
    refine Outcome.bracketed_of_ofThrow ho fun die hdie => ?_
    exact hlegal (d.sides, die) (Trace.mem_ofDice.2 ⟨rfl, hdie⟩)
  | binary left op right first second l r o hl hr ho ihl ihr =>
    obtain ⟨htotal, hbounds, -⟩ := Outcome.combine_eq_ok.1 ho
    obtain ⟨hzero, hexact⟩ := Operator.apply_eq_ok.1 htotal
    have hleft := ihl fun draw hdraw => hlegal draw (List.mem_append_left second hdraw)
    have hright := ihr fun draw hdraw => hlegal draw (List.mem_append_right first hdraw)
    have := Bounds.exact_mem_of_combine hbounds hleft hright hzero
    rw [← hexact] at this
    exact this

/-- An outcome of honest dice is bracketed, and each of its dice is a proper die of some kind. -/
lemma bracketed_of_evaluate {σ : Type} {source : Source σ} {state next : σ} {limit : Option Nat}
    {e : Expr} {o : Outcome} (honest : source.Honest state)
    (h : e.evaluate source limit state = (.ok o, next)) :
    o.Bracketed ∧ ∀ die ∈ o.raw, ∃ sides, die.Legal sides := by
  obtain ⟨trace, hgives, hdeals, -⟩ := evaluate_eq_ok.1 h
  have hlegal := Source.Keeps.of_deals honest hdeals
  refine ⟨hgives.bracketed hlegal, ?_⟩
  rw [hgives.raw_eq]
  intro die hdie
  obtain ⟨draw, hdraw, rfl⟩ := List.mem_map.1 hdie
  exact ⟨draw.1, hlegal draw hdraw⟩

end Expr

/-! ## Lines of rolls -/

namespace Roll

/-- The roll belongs to a line that was thrown with honest dice: it is a first roll from an honest
source, or it was made from such a roll with fresh dice of an honest source. -/
inductive Honest : Roll → Prop
  | throw {σ : Type} {source : Source σ} {state next : σ} {limit : Option Nat} {expression : String}
      {context : Option String} {id : RollId} {now : Instant} {roll : Roll}
      (honest : source.Honest state)
      (h : throw source limit expression context id now state = (.ok roll, next)) : Honest roll
  | rethrow {σ : Type} {source : Source σ} {state next : σ} {limit : Option Nat} {earlier : Roll}
      {positions : List Nat} {id : RollId} {now : Instant} {roll : Roll} (before : Honest earlier)
      (honest : source.Honest state)
      (h : earlier.rethrow source limit positions id now state = (.ok roll, next)) : Honest roll

/-- A first roll has the outcome of its expression. -/
lemma evaluate_of_throw {σ : Type} {source : Source σ} {state next : σ} {limit : Option Nat}
    {expression : String} {context : Option String} {id : RollId} {now : Instant} {roll : Roll}
    (h : throw source limit expression context id now state = (.ok roll, next)) :
    ∃ e : Expr, Expr.ofText expression = .ok e ∧
      e.evaluate source limit state = (.ok roll.outcome, next) := by
  obtain ⟨e, outcome, he, heval, rfl⟩ := throw_eq_ok h
  exact ⟨e, he, heval⟩

/-- A roll that is made from another one has the outcome of a replay of that one's dice. -/
lemma evaluate_of_rethrow {σ : Type} {source : Source σ} {state next : σ} {limit : Option Nat}
    {earlier : Roll} {positions : List Nat} {id : RollId} {now : Instant} {roll : Roll}
    (h : earlier.rethrow source limit positions id now state = (.ok roll, next)) :
    ∃ (e : Expr) (last : Replay σ), Expr.ofText earlier.expression = .ok e ∧
      e.evaluate (Replay.source positions source) limit (.start earlier.outcome.raw state) =
        (.ok roll.outcome, last) := by
  obtain ⟨e, outcome, last, he, heval, rfl⟩ := rethrow_eq_ok h
  exact ⟨e, last, he, heval⟩

/-- A roll of an honest line is bracketed, and each of its dice is a proper die of some kind. -/
lemma Honest.bracketed {roll : Roll} (h : roll.Honest) :
    roll.outcome.Bracketed ∧ ∀ die ∈ roll.outcome.raw, ∃ sides, die.Legal sides := by
  induction h with
  | throw honest h =>
    obtain ⟨e, -, heval⟩ := evaluate_of_throw h
    exact Expr.bracketed_of_evaluate honest heval
  | rethrow before honest h ih =>
    obtain ⟨e, last, -, heval⟩ := evaluate_of_rethrow h
    exact Expr.bracketed_of_evaluate (Replay.honest_source _ ih.2 honest) heval

end Roll

/-- The total lies within the bounds of the outcome: of every evaluation with an honest source, and
of every roll of an honest line, whatever dice were replayed in it. -/
theorem total_within_bounds :
    (∀ {σ : Type} (source : Source σ) (state next : σ) (e : Expr) (limit : Option Nat)
        (o : Outcome), source.Honest state → e.evaluate source limit state = (.ok o, next) →
          o.minimum.val ≤ o.total.val ∧ o.total.val ≤ o.maximum.val) ∧
      ∀ roll : Roll, roll.Honest →
        roll.outcome.minimum.val ≤ roll.outcome.total.val ∧
          roll.outcome.total.val ≤ roll.outcome.maximum.val := by
  constructor
  · intro σ source state next e limit o honest h
    exact (Expr.bracketed_of_evaluate honest h).1
  · intro roll h
    exact h.bracketed.1

/-- A throw and its repetition, in which the die that is thrown anew explodes: there is one die
more, and neither of the recorded dice stands where the other kind is asked for. -/
theorem total_within_bounds_of_new_explosion :
    ∃ first second : Roll, first.Honest ∧ second.Honest ∧
      first.outcome.raw.map Die.text = ["1", "1"] ∧
      second.outcome.raw.map Die.text = ["6", "1", "1"] ∧
      (first.outcome.minimum.val ≤ first.outcome.total.val ∧
        first.outcome.total.val ≤ first.outcome.maximum.val) ∧
      second.outcome.minimum.val ≤ second.outcome.total.val ∧
        second.outcome.total.val ≤ second.outcome.maximum.val := by
  have hruns :
      (match Roll.throw Source.highFirst none "1d6! * 2 - 1d100" none ⟨1⟩ .epoch false with
      | (.ok first, _) =>
        match first.rethrow Source.highFirst (some 3) [0] ⟨2⟩ .epoch true with
        | (.ok second, _) => first.outcome.raw.map Die.text = ["1", "1"] ∧
            second.outcome.raw.map Die.text = ["6", "1", "1"]
        | _ => false
      | _ => false) = true := by
    decide +kernel
  split at hruns
  · rename_i first next hfirst
    split at hruns
    · rename_i second last hsecond
      obtain ⟨hraw, hraw'⟩ := of_decide_eq_true hruns
      have honest := Source.honest_highFirst false
      have h₁ := Roll.Honest.throw honest hfirst
      have h₂ := Roll.Honest.rethrow h₁ (Source.honest_highFirst true) hsecond
      obtain ⟨e, -, heval⟩ := Roll.evaluate_of_throw hfirst
      exact ⟨first, second, h₁, h₂, hraw, hraw',
        total_within_bounds.1 _ _ _ e none _ honest heval, total_within_bounds.2 second h₂⟩
    · cases hruns
  · cases hruns

end DiceNotation
