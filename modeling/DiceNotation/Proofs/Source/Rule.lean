import DiceNotation.Source.Replay
import Mathlib.Tactic.Common
/-!
# Rules that sources keep

A source keeps a rule if every die that it gives fits what it was asked for, whatever it has been
asked before. Two rules matter: that a die bears the label of the kind asked for
(`Source.Labelled`), and that it also shows one of the faces of that kind (`Source.Honest`).

A replay mixes recorded dice with those of another source. A recorded die is used only where its
label is that of the kind asked for, and a label tells its kind (`Sides.label_injective`), so a
replay of proper dice is honest if the other source is (`Replay.honest_source`), whichever kinds the
recorded dice once were asked for.
-/

namespace DiceNotation

/-! ## Labels -/

namespace Sides

/-- The label of a numbered die is the number of its faces, in digits. -/
lemma toList_label_poly (faces : UInt32) (h : 0 < faces) :
    (poly faces h).label.toList = Nat.toDigits 10 faces.toNat :=
  Nat.toList_repr

/-- The label of a fate die is no number. -/
lemma label_poly_ne_fate (faces : UInt32) (h : 0 < faces) : (poly faces h).label ≠ fate.label := by
  intro e
  have hf : 'f' ∈ Nat.toDigits 10 faces.toNat := by
    rw [← toList_label_poly faces h, e]
    decide
  have : ('f').isDigit = true := Nat.isDigit_of_mem_toDigits (by decide) (by decide) hf
  exact absurd this (by decide)

/-- A label tells the kind of die. -/
lemma label_injective : Function.Injective label := by
  intro a b e
  cases a with
  | fate =>
    cases b with
    | fate => rfl
    | poly faces h => exact absurd e.symm (label_poly_ne_fate faces h)
  | poly faces h =>
    cases b with
    | fate => exact absurd e (label_poly_ne_fate faces h)
    | poly others h' =>
      have hdigits : Nat.toDigits 10 faces.toNat = Nat.toDigits 10 others.toNat := by
        rw [← toList_label_poly faces h, ← toList_label_poly others h', e]
      have hvalues := congrArg (fun digits => Nat.ofDigitChars 10 digits 0) hdigits
      simp only [Nat.ofDigitChars_ten_toDigits] at hvalues
      have hfaces : faces = others := UInt32.toNat_inj.1 hvalues
      subst hfaces
      rfl

/-- Every kind of die has a face above zero. -/
lemma one_le_highest (sides : Sides) : 1 ≤ sides.highest.val := by
  cases sides with
  | fate => decide
  | poly faces h =>
    have hfaces : 0 < faces.toNat := UInt32.lt_iff_toNat_lt.1 h
    change (1 : Int) ≤ faces.toNat
    omega

/-- No face is below minus one. -/
lemma neg_one_le_lowest (sides : Sides) : -1 ≤ sides.lowest.val := by
  cases sides with
  | fate => decide
  | poly faces h =>
    change (-1 : Int) ≤ 1
    decide

/-- No kind of die has its lowest face above its highest. -/
lemma lowest_le_highest (sides : Sides) : sides.lowest.val ≤ sides.highest.val := by
  have hface := sides.one_le_highest
  cases sides with
  | fate => decide
  | poly faces h => exact hface

end Sides

/-! ## Proper dice -/

namespace Die

/-- The die bears the label of a kind of die. -/
def Bears (sides : Sides) (die : Die) : Prop := die.label = sides.label

/-- The die shows one of the faces of a kind of die. -/
def Shows (sides : Sides) (die : Die) : Prop :=
  sides.lowest.val ≤ die.value.val ∧ die.value.val ≤ sides.highest.val

/-- The die is a proper die of a kind: it shows one of its faces and bears its label. -/
structure Legal (sides : Sides) (die : Die) : Prop where
  /-- It does not show less than the lowest face. -/
  lowest_le : sides.lowest.val ≤ die.value.val
  /-- It does not show more than the highest face. -/
  le_highest : die.value.val ≤ sides.highest.val
  /-- It bears the label of the kind. -/
  bears : die.Bears sides

lemma Legal.shows {sides : Sides} {die : Die} (h : die.Legal sides) : die.Shows sides :=
  ⟨h.lowest_le, h.le_highest⟩

/-- A die that is a proper die of some kind is one of the kind whose label it bears. -/
lemma Legal.of_bears {asked sides : Sides} {die : Die} (h : die.Legal asked)
    (hb : die.Bears sides) : die.Legal sides := by
  have : asked = sides := Sides.label_injective (h.bears.symm.trans hb)
  exact this ▸ h

end Die

/-! ## Rules -/

namespace Source

variable {σ : Type} {source : Source σ} {state : σ} {rule : Sides → Die → Prop}

/-- Whatever it is asked from `state` on, each die that the source gives is as the rule wants it
for the kind asked for. -/
def Keeps (rule : Sides → Die → Prop) (source : Source σ) (state : σ) : Prop :=
  ∀ kinds sides, rule sides (source (source.draws state kinds).2 sides).1

/-- Every die bears the label of the kind asked for. -/
def Labelled (source : Source σ) (state : σ) : Prop :=
  source.Keeps (fun sides die => die.Bears sides) state

/-- Every die shows a face of the kind asked for, whatever its label. -/
def InRange (source : Source σ) (state : σ) : Prop :=
  source.Keeps (fun sides die => die.Shows sides) state

/-- Every die is a proper die of the kind asked for. -/
def Honest (source : Source σ) (state : σ) : Prop :=
  source.Keeps (fun sides die => die.Legal sides) state

/-- The next die fits the rule. -/
lemma Keeps.draw (h : source.Keeps rule state) (sides : Sides) :
    rule sides (source state sides).1 :=
  h [] sides

/-- The rule is kept after a draw. -/
lemma Keeps.next (h : source.Keeps rule state) (sides : Sides) :
    source.Keeps rule (source state sides).2 :=
  fun kinds => h (sides :: kinds)

/-- A rule is kept where some property of states, handed on from draw to draw, makes the next die
fit it. -/
lemma keeps_of_invariant (invariant : σ → Prop)
    (draw : ∀ s sides, invariant s → rule sides (source s sides).1)
    (next : ∀ s sides, invariant s → invariant (source s sides).2) (h : invariant state) :
    source.Keeps rule state := by
  intro kinds sides
  induction kinds generalizing state with
  | nil => exact draw state sides h
  | cons kind rest ih => exact ih (next state kind h)

/-- A weaker rule is kept as well. -/
lemma Keeps.mono {weaker : Sides → Die → Prop} (h : source.Keeps rule state)
    (hw : ∀ sides die, rule sides die → weaker sides die) : source.Keeps weaker state :=
  fun kinds sides => hw sides _ (h kinds sides)

/-- An honest source labels its dice. -/
lemma Honest.labelled (h : source.Honest state) : source.Labelled state :=
  h.mono fun _ _ hd => hd.bears

/-- Labelled dice have the labels of the kinds that they were asked for. -/
lemma map_label_draws (h : source.Labelled state) (kinds : List Sides) :
    (source.draws state kinds).1.map Die.label = kinds.map Sides.label := by
  induction kinds generalizing state with
  | nil => rfl
  | cons sides rest ih =>
    have hdraw : (source state sides).1.label = sides.label := h.draw sides
    rw [draws_cons, List.map_cons, List.map_cons, ih (h.next sides), hdraw]

/-- The source of dice that all show their lowest face, but for the first one, which shows its
highest where the state says so. -/
def highFirst : Source Bool :=
  fun high sides => (Die.of sides (if high then sides.highest else sides.lowest), false)

/-- Dice with their highest or lowest face up are proper dice. -/
lemma honest_highFirst (high : Bool) : highFirst.Honest high := by
  refine keeps_of_invariant (fun _ => True) ?_ (fun _ _ _ => trivial) trivial
  intro s sides _
  have hle := sides.lowest_le_highest
  cases s with
  | false => exact ⟨Int.le_refl _, hle, rfl⟩
  | true => exact ⟨hle, Int.le_refl _, rfl⟩

end Source

/-! ## Replays -/

namespace Replay

variable {σ : Type} {other : Source σ} {fallback : σ} {rule : Sides → Die → Prop}

/-- A replay keeps a rule if the other source does and every recorded die fits it for the kind
whose label it bears. -/
lemma keeps_source {recorded : List Die} (positions : List Nat)
    (hr : ∀ die ∈ recorded, ∀ sides, die.Bears sides → rule sides die)
    (h : other.Keeps rule fallback) :
    (source positions other).Keeps rule (start recorded fallback) := by
  refine Source.keeps_of_invariant
    (fun r : Replay σ => (∀ die ∈ r.recorded, ∀ sides, die.Bears sides → rule sides die) ∧
      other.Keeps rule r.fallback) ?_ ?_ ⟨hr, h⟩
  · rintro r sides ⟨hr, h⟩
    cases hd : r.replayed? positions sides with
    | some die =>
      obtain ⟨hhead, -, hlabel⟩ := replayed?_eq_some.1 hd
      rw [source_of_replayed hd]
      exact hr die (List.mem_of_head? hhead) sides hlabel
    | none =>
      rw [source_of_fresh hd]
      exact h.draw sides
  · rintro r sides ⟨hr, h⟩
    refine ⟨?_, ?_⟩
    · intro die hdie
      rw [recorded_source] at hdie
      exact hr die (List.mem_of_mem_tail hdie)
    · cases hd : r.replayed? positions sides with
      | some die =>
        rw [source_of_replayed hd]
        exact h
      | none =>
        rw [source_of_fresh hd]
        exact h.next sides

/-- A replay labels its dice if the other source does, whatever is recorded. -/
lemma labelled_source (recorded : List Die) (positions : List Nat) (h : other.Labelled fallback) :
    (source positions other).Labelled (start recorded fallback) :=
  keeps_source positions (fun _ _ _ hb => hb) h

/-- A replay of proper dice, each of whatever kind, is honest if the other source is. -/
lemma honest_source {recorded : List Die} (positions : List Nat)
    (hr : ∀ die ∈ recorded, ∃ sides, die.Legal sides) (h : other.Honest fallback) :
    (source positions other).Honest (start recorded fallback) := by
  refine keeps_source positions ?_ h
  intro die hdie sides hb
  obtain ⟨asked, hlegal⟩ := hr die hdie
  exact hlegal.of_bears hb

end Replay

end DiceNotation
