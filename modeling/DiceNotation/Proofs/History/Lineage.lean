import DiceNotation.Proofs.History.Chronicle
import Mathlib.Data.List.Chain
import Mathlib.Data.List.Perm.Subperm
/-!
# Lineage

The line of parents of a roll leads through rolls that were made before it up to one that has no
parent (`Roll.Descent`). A roll that was made has just one such line, and the root that was handed
down along it is the roll at its end (`Roll.Made.exists_descent`, `Roll.Descent.unique`).

What a history finds by following parents (`History.Climbs`) is as much of that line as is kept
without a gap, whichever of its rolls were inserted and in whatever order
(`Chronicle.Sound.exists_climbs`). A line never comes back to a roll, so it is not longer than the
history, and the bound on `History.line` cuts nothing off (`Chronicle.Sound.ancestors_eq`).
-/

namespace DiceNotation

/-! ## Lines of parents -/

namespace Roll

/-- The line of parents of a roll, the nearest first. -/
structure Descent (made : List Roll) (roll : Roll) (line : List Roll) : Prop where
  /-- Each roll has the next one as its parent. -/
  linked : (roll :: line).IsChain fun child parent => child.parent = some parent.id
  /-- The last one has no parent. -/
  first : (line.getLastD roll).parent = none
  /-- Each roll was made before the one whose parent it is. -/
  sublist : (roll :: line).Sublist made

namespace Descent

variable {made : List Roll} {roll parent : Roll} {line : List Roll}

lemma of_first (hroll : roll ∈ made) (hparent : roll.parent = none) : Descent made roll [] :=
  ⟨.singleton _, hparent, List.singleton_sublist.2 hroll⟩

/-- A line stays the same when more rolls are made. -/
lemma more (h : Descent made roll line) (newest : Roll) : Descent (newest :: made) roll line :=
  ⟨h.linked, h.first, h.sublist.cons newest⟩

/-- A new roll that continues the line of another one has that line above it. -/
lemma continued (h : Descent made parent line) (hroll : roll.Continues parent) :
    Descent (roll :: made) roll (parent :: line) :=
  ⟨h.linked.cons_cons hroll.parent, by rw [List.getLastD_cons]; exact h.first,
    h.sublist.cons_cons roll⟩

/-- The line without its nearest roll is the line of that roll. -/
lemma tail (h : Descent made roll (parent :: line)) :
    roll.parent = some parent.id ∧ Descent made parent line := by
  obtain ⟨hparent, hlinked⟩ := List.isChain_cons_cons.1 h.linked
  have hfirst := h.first
  rw [List.getLastD_cons] at hfirst
  exact ⟨hparent, hlinked, hfirst, (List.sublist_cons_self _ _).trans h.sublist⟩

lemma mem (h : Descent made roll line) : roll ∈ made := h.sublist.subset List.mem_cons_self

lemma last_mem (h : Descent made roll line) : line.getLastD roll ∈ made :=
  h.sublist.subset List.getLastD_mem_cons

/-- A roll has only one line of parents. -/
lemma unique {other : List Roll} (hmade : Made made) (h : Descent made roll line)
    (hother : Descent made roll other) : other = line := by
  induction line generalizing roll other with
  | nil =>
    cases other with
    | nil => rfl
    | cons parent rest => cases h.first.symm.trans hother.tail.1
  | cons parent line ih =>
    obtain ⟨hparent, habove⟩ := h.tail
    cases other with
    | nil => cases hother.first.symm.trans hparent
    | cons parent' rest =>
      obtain ⟨hparent', habove'⟩ := hother.tail
      have hid : parent'.id = parent.id := Option.some.inj (hparent'.symm.trans hparent)
      obtain rfl := hmade.eq_of_id_eq habove'.mem habove.mem hid
      rw [ih habove habove']

end Descent

/-- Every roll that was made has a line of parents. They have its expression, context and root, and
the root is the last of them. -/
lemma Made.exists_descent {made : List Roll} (h : Made made) {roll : Roll} (hroll : roll ∈ made) :
    ∃ line, Descent made roll line ∧
      (∀ r ∈ line, r.expression = roll.expression ∧ r.context = roll.context ∧
        r.root = roll.root) ∧
      (line.getLastD roll).id = roll.root := by
  induction h generalizing roll with
  | none => cases hroll
  | @more made newest before making fresh ih =>
    rcases List.mem_cons.1 hroll with rfl | hearlier
    · rcases making.first_or_continues with ⟨hparent, hroot⟩ | ⟨parent, hmem, hcontinues⟩
      · exact ⟨[], .of_first hroll hparent, List.forall_mem_nil _, hroot.symm⟩
      · obtain ⟨line, hline, hsame, hroot⟩ := ih hmem
        refine ⟨parent :: line, hline.continued hcontinues, ?_, ?_⟩
        · rw [hcontinues.expression, hcontinues.context, hcontinues.root]
          exact List.forall_mem_cons.2 ⟨⟨rfl, rfl, rfl⟩, hsame⟩
        · rw [List.getLastD_cons, hroot, hcontinues.root]
    · obtain ⟨line, hline, hrest⟩ := ih hearlier
      exact ⟨line, hline.more newest, hrest⟩

end Roll

/-! ## Climbing -/

/-- Following parents from an identity on, as long as they are kept, leads through the rolls of a
list. -/
inductive History.Climbs (h : History) : Option RollId → List Roll → Prop
  | first : Climbs h none []
  | missing {id : RollId} (hget : h.get? id = none) : Climbs h (some id) []
  | parent {id : RollId} {roll : Roll} {rest : List Roll} (hget : h.get? id = some roll)
      (above : Climbs h roll.parent rest) : Climbs h (some id) (roll :: rest)

/-- Rolls that are climbed through are those of the line, if its bound is not below their number. -/
lemma History.Climbs.line_eq {h : History} {next : Option RollId} {rolls : List Roll}
    (climbs : h.Climbs next rolls) {n : Nat} (hn : rolls.length ≤ n) : h.line n next = rolls := by
  induction climbs generalizing n with
  | first => cases n <;> rfl
  | missing hget =>
    cases n with
    | zero => rfl
    | succ n => rw [line, hget]
  | parent hget above ih =>
    cases n with
    | zero => cases hn
    | succ n =>
      rw [line, hget]
      exact congrArg _ (ih (Nat.le_of_succ_le_succ hn))

namespace Chronicle.Sound

variable {c : Chronicle} {roll : Roll} {line : List Roll}

/-- Climbing leads through the part of the line of parents before the first gap. -/
lemma exists_climbs (h : c.Sound) (hline : Roll.Descent c.made roll line) :
    ∃ rolls, c.history.Climbs roll.parent rolls ∧
      ∀ part, part <+: rolls ↔ part <+: line ∧ ∀ r ∈ part, r ∈ c.inserted := by
  induction line generalizing roll with
  | nil =>
    have hparent : roll.parent = none := hline.first
    rw [hparent]
    refine ⟨[], .first, fun part => ⟨fun hpart => ⟨hpart, ?_⟩, And.left⟩⟩
    rw [List.prefix_nil.1 hpart]
    exact List.forall_mem_nil _
  | cons parent line ih =>
    obtain ⟨hparent, habove⟩ := hline.tail
    rw [hparent]
    by_cases hkept : parent ∈ c.inserted
    · obtain ⟨rolls, hclimbs, hrolls⟩ := ih habove
      refine ⟨parent :: rolls, .parent (h.get?_eq_some_iff.2 ⟨hkept, rfl⟩) hclimbs, fun part => ?_⟩
      cases part with
      | nil => simp
      | cons r part =>
        rw [List.cons_prefix_cons, List.cons_prefix_cons, hrolls, List.forall_mem_cons]
        constructor
        · rintro ⟨rfl, hpart, hall⟩
          exact ⟨⟨rfl, hpart⟩, hkept, hall⟩
        · rintro ⟨⟨rfl, hpart⟩, -, hall⟩
          exact ⟨rfl, hpart, hall⟩
    · refine ⟨[], .missing (h.get?_eq_none habove.mem hkept), fun part => ?_⟩
      cases part with
      | nil => simp
      | cons r part =>
        rw [List.cons_prefix_cons]
        constructor
        · intro hpart
          cases List.prefix_nil.1 hpart
        · rintro ⟨⟨rfl, -⟩, hall⟩
          exact absurd (hall r List.mem_cons_self) hkept

/-- No identity comes twice in a roll and its line of parents. -/
lemma nodup_line (h : c.Sound) (hline : Roll.Descent c.made roll line) :
    ((roll :: line).map Roll.id).Nodup :=
  (hline.sublist.map Roll.id).nodup h.made.nodup

/-- The ancestors of a roll are the rolls that are climbed through. -/
lemma ancestors_eq (h : c.Sound) {id : RollId} (hget : c.history.get? id = some roll)
    (hline : Roll.Descent c.made roll line) {rolls : List Roll}
    (climbs : c.history.Climbs roll.parent rolls) (hinitial : rolls <+: line)
    (hkept : ∀ r ∈ rolls, r ∈ c.inserted) : c.history.ancestors id = rolls := by
  have hnodup : rolls.Nodup := by
    have hids := h.nodup_line hline
    rw [List.map_cons, List.nodup_cons] at hids
    exact hids.2.of_map.sublist hinitial.sublist
  have hlength : rolls.length ≤ c.history.size :=
    (hnodup.subperm fun r hr => h.mem_rolls.2 (hkept r hr)).length_le
  rw [History.ancestors, hget]
  exact climbs.line_eq hlength

end Chronicle.Sound

/-! ## Roots -/

/-- The root of a kept roll is what is kept with the identity that the roll has for it. -/
lemma History.root_of_some {h : History} {id : RollId} {roll : Roll}
    (hget : h.get? id = some roll) : h.root id = h.get roll.root := by
  rw [root, get_of_some hget]
  rfl

/-- The lineage of a kept roll. Its line of parents is unique, and its ancestors are what climbing
from its parent leads through, which comes to an end: the longest part of the line that is kept.
They are all different from the roll and from each other, each was made before the one whose parent
it is, and each has the expression, the context and the root of the roll.

Where the whole line is kept the root is the last ancestor, or else the roll itself, and it has no
parent. There is no root just where the last roll of the line was not inserted, and then that roll
is the one that is not found. -/
theorem lineage_of_kept {c : Chronicle} (reached : c.Reached) {id : RollId} {roll : Roll}
    (hget : c.history.get? id = some roll) :
    ∃ line,
      (∀ other, Roll.Descent c.made roll other ↔ other = line) ∧
      c.history.Climbs roll.parent (c.history.ancestors id) ∧
      (∀ part, part <+: c.history.ancestors id ↔
        part <+: line ∧ ∀ r ∈ part, r ∈ c.history.rolls) ∧
      (id :: (c.history.ancestors id).map Roll.id).Nodup ∧
      ((roll :: c.history.ancestors id).IsChain fun child parent =>
        child.parent = some parent.id) ∧
      (roll :: c.history.ancestors id).Sublist c.made ∧
      (∀ r ∈ c.history.ancestors id, r.expression = roll.expression ∧ r.context = roll.context ∧
        r.root = roll.root) ∧
      ((∀ r ∈ line, r ∈ c.history.rolls) →
        c.history.root id = .ok ((c.history.ancestors id).getLastD roll) ∧
          ((c.history.ancestors id).getLastD roll).parent = none) ∧
      ∀ e, c.history.root id = .error e ↔
        line.getLastD roll ∉ c.inserted ∧ e = .notFound (line.getLastD roll).id := by
  have hsound := reached.sound
  obtain ⟨hroll, rfl⟩ := hsound.get?_eq_some_iff.1 hget
  obtain ⟨line, hline, hsame, hroot⟩ := hsound.made.exists_descent (hsound.inserted hroll)
  obtain ⟨rolls, hclimbs, hrolls⟩ := hsound.exists_climbs hline
  obtain ⟨hinitial, hkept⟩ := (hrolls rolls).1 (List.prefix_refl rolls)
  rw [hsound.ancestors_eq hget hline hclimbs hinitial hkept]
  have hupto : roll :: rolls <+: roll :: line := List.cons_prefix_cons.2 ⟨rfl, hinitial⟩
  have hrootget : c.history.root roll.id = c.history.get (line.getLastD roll).id := by
    rw [History.root_of_some hget, hroot]
  refine ⟨line, fun other => ⟨hline.unique hsound.made, fun hother => hother ▸ hline⟩, hclimbs, ?_,
    (hsound.nodup_line hline).sublist (hupto.map Roll.id).sublist,
    List.IsChain.prefix hline.linked hupto, hupto.sublist.trans hline.sublist,
    fun r hr => hsame r (hinitial.subset hr), ?_, ?_⟩
  · intro part
    simp only [hrolls, hsound.mem_rolls]
  · intro hall
    have hstored : ∀ r ∈ line, r ∈ c.inserted := fun r hr => hsound.mem_rolls.1 (hall r hr)
    have hwhole : line <+: rolls := (hrolls line).2 ⟨List.prefix_refl line, hstored⟩
    have hlast : line.getLastD roll ∈ c.inserted :=
      List.forall_mem_cons.2 ⟨hroll, hstored⟩ _ List.getLastD_mem_cons
    rw [← hwhole.eq_of_length_le hinitial.length_le, hrootget]
    exact ⟨hsound.get_eq_ok hlast, hline.first⟩
  · intro e
    rw [hrootget]
    exact hsound.get_eq_error_iff hline.last_mem

/-! ## A line with a gap -/

/-- A first roll. -/
def eldest : Roll := .create ⟨1⟩ "1d6" (.constant .one) .epoch none

/-- A roll made from the first one. -/
def middle : Roll := eldest.derive ⟨2⟩ (.constant .minusOne) .epoch

/-- A roll made from that one. -/
def youngest : Roll := middle.derive ⟨3⟩ (.constant .one) .epoch

lemma descent_youngest : Roll.Descent [youngest, middle, eldest] youngest [middle, eldest] :=
  .continued (.continued (.of_first (List.mem_singleton_self eldest) rfl)
    (Roll.continues_derive eldest _ _ _)) (Roll.continues_derive middle _ _ _)

/-- A child that is inserted before its parent, and without the first roll, has the parent as its
only ancestor and no root, until the first roll is inserted too. -/
theorem lineage_of_kept_of_gap :
    ∃ c later : Chronicle, c.Reached ∧ c.Step later ∧ later.Reached ∧
      c.history.get? youngest.id = some youngest ∧
      c.history.ancestors youngest.id = [middle] ∧
      c.history.root youngest.id = .error (.notFound eldest.id) ∧
      later.history.get? youngest.id = some youngest ∧
      later.history.ancestors youngest.id = [middle, eldest] ∧
      later.history.root youngest.id = .ok eldest := by
  have hmade : Chronicle.Reached ⟨[youngest, middle, eldest], [], .empty⟩ := by
    have hfirst : Chronicle.Reached ⟨[eldest], [], .empty⟩ :=
      .single (.make (.create _ _ _ _ _) (by decide))
    have hsecond : Chronicle.Reached ⟨[middle, eldest], [], .empty⟩ :=
      hfirst.tail (.make (.derive (List.mem_singleton_self eldest) _ _ _) (by decide))
    exact hsecond.tail (.make (.derive List.mem_cons_self _ _ _) (by decide))
  let h : History := (History.empty.insert youngest).insert middle
  let later : History := h.insert eldest
  have hreached : Chronicle.Reached ⟨[youngest, middle, eldest], [youngest, middle], h⟩ :=
    (hmade.tail (.insert (by simp))).tail (.insert (by simp))
  have hstep : Chronicle.Step ⟨[youngest, middle, eldest], [youngest, middle], h⟩
      ⟨[youngest, middle, eldest], [youngest, middle, eldest], later⟩ := .insert (by simp)
  have hget : h.get? youngest.id = some youngest := rfl
  have hget' : later.get? youngest.id = some youngest := rfl
  obtain ⟨line, hline, -, -, -, -, -, -, -, hmissing⟩ := lineage_of_kept hreached hget
  obtain ⟨line', hline', -, -, -, -, -, -, hwhole, -⟩ :=
    lineage_of_kept (hreached.tail hstep) hget'
  obtain rfl := (hline _).1 descent_youngest
  obtain rfl := (hline' _).1 descent_youngest
  have hnot : eldest ∉ [youngest, middle] := fun hmem =>
    absurd (List.mem_map_of_mem hmem : eldest.id ∈ [youngest, middle].map Roll.id) (by decide)
  have hkept : ∀ r ∈ [middle, eldest], r ∈ later.rolls := List.subset_cons_self youngest _
  exact ⟨_, _, hreached, hstep, hreached.tail hstep, hget, rfl, (hmissing _).2 ⟨hnot, rfl⟩, hget',
    rfl, (hwhole hkept).1⟩

end DiceNotation
