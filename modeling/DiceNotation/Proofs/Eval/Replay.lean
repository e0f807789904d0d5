import DiceNotation.Expr.Text
import DiceNotation.Proofs.Eval.Redraw
import Mathlib.Tactic.Common
/-!
# Exact replays

The dice of an outcome are the draws of an evaluation in their order, so all of them stay in a
replay and it deals the same trace again (`Replay.deals_source`), and an expression has one outcome
along one trace. That an exploding throw decides by each die whether there will be another one makes
no difference: what the dice decide is decided by the trace.

The one thing that a replay needs is that each recorded die bears the label of the kind it was
asked for. The outcome of a replay is again such an outcome, whatever dice were recorded before.
-/

namespace DiceNotation

/-! ## Laxer limits -/

/-- The limit `lax` allows whatever `limit` allows: it is no lower limit, or none at all. -/
def Laxer (limit lax : Option Nat) : Prop :=
  ∀ max, lax = some max → ∃ least, limit = some least ∧ least ≤ max

/-- What a limit affords, a laxer limit affords too. -/
lemma Affords.of_laxer {limit lax : Option Nat} {n : Nat} (h : Affords limit n)
    (hl : Laxer limit lax) : Affords lax n := by
  refine ⟨h.1, ?_⟩
  intro max hmax
  obtain ⟨least, hleast, hle⟩ := hl max hmax
  exact Nat.le_trans (h.2 least hleast) hle

/-! ## Replays -/

namespace Replay

variable {σ : Type}

/-- A replay of the dice of a trace deals the trace again and leaves the other source alone, where
the dice bear the labels of their kinds and every chosen position comes after the trace. -/
lemma deals_source {trace : Trace} (hlabel : ∀ draw ∈ trace, draw.2.Bears draw.1)
    {positions : List Nat} (hp : ∀ p ∈ positions, trace.length ≤ p) (other : Source σ)
    (fallback : σ) :
    (source positions other).Deals (.start trace.dice fallback) trace
      ⟨[], trace.length, fallback⟩ := by
  have hstays : ∀ i die, trace.dice[i]? = some die → Stays trace.dice positions i die := by
    intro i die hdie
    obtain ⟨hi, -⟩ := List.getElem?_eq_some_iff.1 hdie
    rw [Trace.length_dice] at hi
    refine ⟨fun hmem => ?_, by rw [hdie, Option.map_some]⟩
    have hle := hp i hmem
    omega
  have hfresh : (fresh trace.dice positions 0 trace).dice = [] := by
    rw [dice_fresh, redrawn_eq_nil hstays, List.map_nil]
  refine (deals_start_iff hlabel).2 ⟨fun i die hdie _ => hdie, ?_, ?_, rfl⟩
  · rw [List.map_eq_nil_iff.1 hfresh]
    exact Source.deals_nil.2 rfl
  · rw [← Trace.length_dice, List.drop_length]

end Replay

/-! ## Outcomes -/

namespace Expr

/-- Replayed with any other source, from the first die on and at no chosen position among the dice,
`e` has the outcome `o` again under every laxer limit. As many dice are drawn as there were, and
none of them from the other source. -/
def ReplaysExactly (e : Expr) (limit : Option Nat) (o : Outcome) : Prop :=
  ∀ (τ : Type) (other : Source τ) (fallback : τ) (positions : List Nat) (lax : Option Nat),
    (∀ p ∈ positions, o.raw.length ≤ p) → Laxer limit lax →
      e.evaluate (Replay.source positions other) lax (.start o.raw fallback) =
          (.ok o, ⟨[], o.raw.length, fallback⟩) ∧
        e.evaluate (Replay.source positions other.counted) lax (.start o.raw (fallback, 0)) =
          (.ok o, ⟨[], o.raw.length, (fallback, 0)⟩)

variable {σ : Type} {source : Source σ} {state next : σ} {limit : Option Nat} {e : Expr}
  {o : Outcome}

/-- An outcome of labelled dice comes again when they are replayed. -/
lemma evaluate_replay {τ : Type} (labelled : source.Labelled state)
    (h : e.evaluate source limit state = (.ok o, next)) {positions : List Nat} {lax : Option Nat}
    (hp : ∀ p ∈ positions, o.raw.length ≤ p) (hl : Laxer limit lax) (other : Source τ)
    (fallback : τ) :
    e.evaluate (Replay.source positions other) lax (.start o.raw fallback) =
      (.ok o, ⟨[], o.raw.length, fallback⟩) := by
  obtain ⟨trace, hgives, hdeals, hafford⟩ := evaluate_eq_ok.1 h
  have hraw : o.raw = trace.dice := hgives.raw_eq
  have hlength : o.raw.length = trace.length := by rw [hraw, Trace.length_dice]
  have hlabel : ∀ draw ∈ trace, draw.2.Bears draw.1 := Source.Keeps.of_deals labelled hdeals
  have hpast : ∀ p ∈ positions, trace.length ≤ p := by
    intro p hmem
    rw [← hlength]
    exact hp p hmem
  refine evaluate_eq_ok.2 ⟨trace, hgives, ?_, hafford.of_laxer hl⟩
  have hagain := Replay.deals_source hlabel hpast other fallback
  rw [← hlength, ← hraw] at hagain
  exact hagain

/-- An outcome of labelled dice is replayed exactly. -/
lemma replaysExactly_of_labelled (labelled : source.Labelled state)
    (h : e.evaluate source limit state = (.ok o, next)) : e.ReplaysExactly limit o := by
  intro τ other fallback positions lax hp hl
  exact ⟨evaluate_replay labelled h hp hl other fallback,
    evaluate_replay labelled h hp hl other.counted (fallback, 0)⟩

end Expr

/-- Every outcome of an expression is replayed exactly, be it from a source that labels its dice or
itself from a replay of whatever dice together with such a source. -/
theorem replay_exact (e : Expr) (limit : Option Nat) (o : Outcome) :
    (∀ {σ : Type} (source : Source σ) (state next : σ), source.Labelled state →
        e.evaluate source limit state = (.ok o, next) → e.ReplaysExactly limit o) ∧
      ∀ {σ : Type} (source : Source σ) (state : σ) (recorded : List Die) (positions : List Nat)
        (last : Replay σ), source.Labelled state →
          e.evaluate (Replay.source positions source) limit (.start recorded state) =
              (.ok o, last) →
            e.ReplaysExactly limit o := by
  constructor
  · intro σ source state next labelled h
    exact Expr.replaysExactly_of_labelled labelled h
  · intro σ source state recorded positions last labelled h
    have hreplay := Replay.labelled_source recorded positions labelled
    exact Expr.replaysExactly_of_labelled hreplay h

/-- A throw whose average is not a number: one die is thrown anew, explodes and so moves the others
on, and what comes of it is replayed without a limit. -/
theorem replay_exact_of_explosion :
    ∃ (e : Expr) (first second : Outcome) (last : Replay Bool),
      Expr.ofText "2d6! - 1df / 1df" = .ok e ∧
      e.evaluate Source.highFirst (some 4) false = (.ok first, false) ∧
      first.raw.map Die.text = ["1", "1", "-1", "-1"] ∧
      e.evaluate (Replay.source [1] Source.highFirst) (some 5) (.start first.raw true) =
        (.ok second, last) ∧
      second.raw.map Die.text = ["1", "6", "1", "-1", "-1"] ∧
      e.ReplaysExactly (some 4) first ∧
      e.evaluate (Replay.source [5, 9] Source.highFirst.counted) none
        (.start second.raw (true, 0)) = (.ok second, ⟨[], 5, (true, 0)⟩) := by
  have hruns :
      (match Expr.ofText "2d6! - 1df / 1df" with
      | .ok e =>
        match e.evaluate Source.highFirst (some 4) false with
        | (.ok first, next) =>
          match e.evaluate (Replay.source [1] Source.highFirst) (some 5)
              (.start first.raw true) with
          | (.ok second, _) => next = false ∧
              first.raw.map Die.text = ["1", "1", "-1", "-1"] ∧
              second.raw.map Die.text = ["1", "6", "1", "-1", "-1"]
          | _ => false
        | _ => false
      | _ => false) = true := by
    decide +kernel
  split at hruns
  · rename_i e he
    split at hruns
    · rename_i first next hfirst
      split at hruns
      · rename_i second last hsecond
        obtain ⟨rfl, hraw, hraw'⟩ := of_decide_eq_true hruns
        have honest := Source.honest_highFirst true
        have hlength : second.raw.length = 5 := by
          rw [← List.length_map Die.text, hraw']
          rfl
        have hfar : ∀ p ∈ [5, 9], second.raw.length ≤ p := by
          rw [hlength]
          decide
        have hlax : Laxer (some 5) none := fun max hmax => nomatch hmax
        have hagain := ((replay_exact e (some 5) second).2 _ _ _ _ last honest.labelled hsecond
          Bool Source.highFirst true [5, 9] none hfar hlax).2
        rw [hlength] at hagain
        exact ⟨e, first, second, last, he, hfirst, hraw, hsecond, hraw',
          (replay_exact e (some 4) first).1 _ _ _ (Source.honest_highFirst false).labelled hfirst,
          hagain⟩
      · cases hruns
    · cases hruns
  · cases hruns

end DiceNotation
