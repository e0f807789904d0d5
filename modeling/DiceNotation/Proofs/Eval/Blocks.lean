import DiceNotation.Expr.Text
import DiceNotation.Proofs.Expr.Form
import DiceNotation.Proofs.Selection.Order
import Mathlib
/-!
# The order of the draws

The dice of an outcome are the draws of its evaluation, in their order (`draws_in_order`). They come
in blocks, one for each throw of the expression from left to right (`Expr.throws`), and each die of
a block was asked for as the kind of its throw. A block is as long as the throw has dice, or has as
many runs where its dice explode (`Dice.Block`), and the kept dice are those that each throw selects
from its block (`Expr.Gives.blocks`).
-/

namespace DiceNotation

variable {σ : Type}

/-! ## Logged draws -/

namespace Source

/-- The source together with the draws that were asked of it, in their order. -/
def logged (source : Source σ) : Source (σ × Trace) :=
  fun (state, log) sides =>
    let (die, next) := source state sides
    (die, next, log ++ [(sides, die)])

/-- A source deals what it deals when its draws are logged, and the draws come at the end of the
log. -/
lemma deals_logged {source : Source σ} {state next : σ} {trace log last : Trace} :
    source.logged.Deals (state, log) trace (next, last) ↔
      source.Deals state trace next ∧ last = log ++ trace := by
  induction trace generalizing state log with
  | nil => simp [eq_comm]
  | cons draw rest ih =>
    rw [deals_cons, deals_cons]
    change (source state draw.1).1 = draw.2 ∧ source.logged.Deals
      ((source state draw.1).2, log ++ [(draw.1, (source state draw.1).1)]) rest (next, last) ↔ _
    rw [ih, and_assoc]
    refine and_congr_right fun hdraw => ?_
    rw [hdraw, List.append_assoc, List.singleton_append]

end Source

/-! ## Blocks -/

/-- A run of dice of one kind: some that explode, and one that does not. -/
def Sides.Run (sides : Sides) (run : List Die) : Prop :=
  ∃ exploded last, run = exploded ++ [last] ∧ (∀ die ∈ exploded, die.value = sides.highest) ∧
    last.value ≠ sides.highest

/-- A die that explodes makes a run longer. -/
lemma Sides.Run.cons {sides : Sides} {die : Die} {run : List Die} (h : sides.Run run)
    (hd : die.value = sides.highest) : sides.Run (die :: run) := by
  obtain ⟨exploded, last, rfl, hexploded, hlast⟩ := h
  exact ⟨die :: exploded, last, rfl, List.forall_mem_cons.2 ⟨hd, hexploded⟩, hlast⟩

/-- A throw of dice that explode is made of as many runs as there are final dice. -/
lemma runs_of_thrown {sides : Sides} {n : Nat} {dice : List Die}
    (h : Thrown sides true n dice) :
    ∃ runs : List (List Die), runs.length = n ∧ (∀ run ∈ runs, sides.Run run) ∧
      dice = runs.flatten := by
  induction h with
  | none => exact ⟨[], rfl, by simp, rfl⟩
  | @exploding n die dice hd rest ih =>
    obtain ⟨runs, hlength, hruns, rfl⟩ := ih
    cases runs with
    | nil => cases hlength
    | cons run runs =>
      obtain ⟨hrun, hrest⟩ := List.forall_mem_cons.1 hruns
      exact ⟨(die :: run) :: runs, hlength, List.forall_mem_cons.2 ⟨hrun.cons hd.2, hrest⟩, rfl⟩
  | @final n die dice hd rest ih =>
    obtain ⟨runs, rfl, hruns, rfl⟩ := ih
    have hrun : sides.Run [die] := ⟨[], die, rfl, by simp, fun hhighest => hd ⟨rfl, hhighest⟩⟩
    exact ⟨[die] :: runs, rfl, List.forall_mem_cons.2 ⟨hrun, hruns⟩, rfl⟩

/-- The dice of a throw: as many as are thrown or, where they explode, as many runs. -/
structure Dice.Block (d : Dice) (block : List Die) : Prop where
  /-- Where dice do not explode, each of them is thrown once. -/
  length_eq : d.explodes = false → block.length = d.count.toNat
  /-- Where dice explode, each of them is thrown until it does not. -/
  runs : d.explodes = true → ∃ runs : List (List Die), runs.length = d.count.toNat ∧
    (∀ run ∈ runs, d.sides.Run run) ∧ block = runs.flatten

/-- What is thrown is a block. -/
lemma Dice.Block.of_thrown {d : Dice} {raw : List Die}
    (h : Thrown d.sides d.explodes d.count.toNat raw) : d.Block raw where
  length_eq hexplodes := thrown_iff_length.1 (hexplodes ▸ h)
  runs hexplodes := runs_of_thrown (hexplodes ▸ h)

/-! ## Expressions -/

namespace Expr

/-- The throws of the expression, from left to right. -/
def throws : Expr → List Dice
  | .number _ => []
  | .dice d => [d]
  | .binary left _ right => left.throws ++ right.throws

variable {e : Expr} {trace : Trace} {o : Outcome}

/-- A trace with an outcome is made of a block for each throw, and the kept dice are selected from
these blocks. -/
lemma Gives.blocks (h : Gives e trace (.ok o)) :
    ∃ blocks : List (Dice × List Die), blocks.map Prod.fst = e.throws ∧
      (∀ block ∈ blocks, block.1.Block block.2) ∧
      trace = blocks.flatMap (fun block => Trace.ofDice block.1.sides block.2) ∧
      o.kept = blocks.flatMap fun block =>
        block.1.selection.select block.1.selected.toNat block.2 := by
  induction h using Gives.ok_induction with
  | number value => exact ⟨[], rfl, by simp, rfl, rfl⟩
  | dice d raw o ht ho =>
    refine ⟨[(d, raw)], rfl, ?_, (List.flatMap_singleton _ _).symm, ?_⟩
    · simpa using Dice.Block.of_thrown ht
    · rw [List.flatMap_singleton]
      exact (Outcome.ofThrow_eq_ok.1 ho).2.1
  | binary left op right first second l r o hl hr ho ihl ihr =>
    obtain ⟨lefts, hthrows, hblocks, rfl, hkept⟩ := ihl
    obtain ⟨rights, hthrows', hblocks', rfl, hkept'⟩ := ihr
    obtain ⟨-, -, -, -, hboth⟩ := Outcome.combine_eq_ok.1 ho
    refine ⟨lefts ++ rights, ?_, ?_, List.flatMap_append.symm, ?_⟩
    · rw [List.map_append, hthrows, hthrows', throws]
    · exact fun block hblock => (List.mem_append.1 hblock).elim (hblocks block) (hblocks' block)
    · rw [hboth, hkept, hkept', List.flatMap_append]

/-- The kept dice are a part of all dice, in their order. -/
lemma Gives.kept_sublist (h : Gives e trace (.ok o)) : o.kept.Sublist o.raw := by
  induction h using Gives.ok_induction with
  | number value => exact List.Sublist.refl []
  | dice d raw o ht ho =>
    obtain ⟨hraw, hkept, -⟩ := Outcome.ofThrow_eq_ok.1 ho
    rw [hraw, hkept]
    exact Selection.select_sublist d.selection d.selected.toNat raw
  | binary left op right first second l r o hl hr ho ihl ihr =>
    obtain ⟨-, -, -, hraw, hkept⟩ := Outcome.combine_eq_ok.1 ho
    rw [hraw, hkept]
    exact ihl.append ihr

end Expr

/-- The dice of an outcome are those that the source gave, in the order of the draws. They are made
of a block for each throw of the expression from left to right, whose dice were asked for as the
kind of that throw; the kept dice are those selected from the blocks one after the other, and so a
part of all dice in their order. -/
theorem draws_in_order {source : Source σ} {state next : σ} {e : Expr} {limit : Option Nat}
    {o : Outcome} (h : e.evaluate source limit state = (.ok o, next)) :
    ∃ log, e.evaluate source.logged limit (state, []) = (.ok o, next, log) ∧ o.raw = log.dice ∧
      o.kept.Sublist o.raw ∧
      ∃ blocks : List (Dice × List Die), blocks.map Prod.fst = e.throws ∧
        (∀ block ∈ blocks, block.1.Block block.2) ∧
        log = blocks.flatMap (fun block => Trace.ofDice block.1.sides block.2) ∧
        o.kept = blocks.flatMap fun block =>
          block.1.selection.select block.1.selected.toNat block.2 := by
  obtain ⟨trace, hgives, hdeals, ha⟩ := Expr.evaluate_eq_ok.1 h
  have hlogged := Source.deals_logged.2 ⟨hdeals, (List.nil_append trace).symm⟩
  exact ⟨trace, Expr.evaluate_of_gives hgives hlogged ha, hgives.raw_eq, hgives.kept_sublist,
    hgives.blocks⟩

/-- Two dice with six faces that explode, of which the lower two count. -/
def lowerTwo : Dice := ⟨2, .ofNumber 6, true, .keepLowest, 2⟩

/-- What comes of two dice with six faces, the first of which explodes. -/
def oneExplosion : List Die :=
  [.of (.ofNumber 6) (.ofUInt32 6), .of (.ofNumber 6) .one, .of (.ofNumber 6) .one]

/-- The first of two dice explodes. The fate dice and the die with four faces make a block each;
where the lower two are kept of what comes of the two dice, the die that exploded is not one of
them. -/
theorem draws_in_order_of_explosion :
    (∃ (e : Expr) (o : Outcome) (log : Trace) (blocks : List (Dice × List Die)),
      Expr.ofText "2d6! - (2df - 1d4)" = .ok e ∧
      e.evaluate Source.highFirst.logged none (true, []) = (.ok o, false, log) ∧
      o.raw.map Die.text = ["6", "1", "1", "-1", "-1", "1"] ∧ o.raw = log.dice ∧
      blocks.map Prod.fst = e.throws ∧ (∀ block ∈ blocks, block.1.Block block.2) ∧
      log = blocks.flatMap fun block => Trace.ofDice block.1.sides block.2) ∧
    ∃ (o : Outcome) (log : Trace),
      (Expr.dice lowerTwo).evaluate Source.highFirst.logged none (true, []) = (.ok o, false, log) ∧
      o.raw = log.dice ∧ o.raw.map Die.text = ["6", "1", "1"] ∧ o.kept.Sublist o.raw ∧
      o.kept.map Die.text = ["1", "1"] := by
  have hruns :
      (match Expr.ofText "2d6! - (2df - 1d4)" with
      | .ok e => e.succeeds Source.highFirst none true fun o next =>
          next = false ∧ o.raw.map Die.text = ["6", "1", "1", "-1", "-1", "1"]
      | .error _ => false) = true := by
    decide +kernel
  constructor
  · split at hruns
    · rename_i e he
      obtain ⟨o, next, heval, htest⟩ := Expr.exists_of_succeeds hruns
      obtain ⟨rfl, hraw⟩ := of_decide_eq_true htest
      obtain ⟨log, hlogged, hdice, -, blocks, hthrows, hblocks, hlog, -⟩ := draws_in_order heval
      exact ⟨e, o, log, blocks, he, hlogged, hraw, hdice, hthrows, hblocks, hlog⟩
    · cases hruns
  · -- Sorting does not evaluate by definition, so the outcome is given by its parts.
    have hkept : lowerTwo.selection.select lowerTwo.selected.toNat oneExplosion =
        [.of (.ofNumber 6) .one, .of (.ofNumber 6) .one] := by
      cbv
    obtain ⟨o, ho, hraw, hselected⟩ : ∃ o, Outcome.ofThrow lowerTwo oneExplosion = .ok o ∧
        o.raw.map Die.text = ["6", "1", "1"] ∧ o.kept.map Die.text = ["1", "1"] :=
      ⟨⟨.ofUInt32 2, .ofUInt32 2, .ofUInt32 12,
          (2 : Nat).toUInt64.toFloat * lowerTwo.sides.average, _, _⟩,
        Outcome.ofThrow_eq_ok.2 ⟨rfl, hkept.symm, rfl, rfl, rfl, rfl⟩, by decide, by decide⟩
    have hthrown : Thrown lowerTwo.sides lowerTwo.explodes lowerTwo.count.toNat oneExplosion :=
      .exploding (by decide) (.final (by decide) (.final (by decide) .none))
    have hgives := Expr.Gives.dice hthrown
    rw [ho] at hgives
    have hdeals : Source.highFirst.Deals true (Trace.ofDice lowerTwo.sides oneExplosion) false :=
      rfl
    have heval : (Expr.dice lowerTwo).evaluate Source.highFirst none true = (.ok o, false) :=
      Expr.evaluate_of_gives hgives hdeals (affords_iff.2 (by decide))
    obtain ⟨log, hlogged, hdice, hsublist, -⟩ := draws_in_order heval
    exact ⟨o, log, hlogged, hdice, hraw, hsublist, hselected⟩

end DiceNotation
