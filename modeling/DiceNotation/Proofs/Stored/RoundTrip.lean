import DiceNotation.Proofs.Instant.RoundTrip
import DiceNotation.Proofs.Roll.Making
import DiceNotation.Proofs.RollId.RoundTrip
import DiceNotation.Source.Scripted
import DiceNotation.Stored.Roll
import Mathlib
/-!
# Stored rolls read back

Every part of a roll is read back from its stored value. The only part that is stored in two forms
is the average: there are three floating-point numbers that are not finite
(`Decimal.eq_of_isFinite_eq_false`), their texts are read back to them, and no other average is
stored as a text (`Outcome.averageOfStored?_averageToStored`).

That is why all floating-point numbers in the stored value of a roll are finite. A layer that keeps
finite floating-point numbers keeps this value as a whole, whatever becomes of the infinities and of
what is not a number (`Roll.carry_toStored`).

Two rolls that are the same in every part, the averages being compared as `Outcome.sameAverage` has
it, cannot be told apart by throwing them again (`Roll.rethrow_of_same`). So keeping a roll and
reading it back changes nothing for its user (`Roll.stored_unchanged`).
-/

namespace DiceNotation

/-! ## Averages -/

namespace Decimal

open Float.Model

/-- A floating-point number is known by its bits. -/
lemma eq_of_toBits_eq {x y : Float} (h : x.toBits.toNat = y.toBits.toNat) : x = y := by
  obtain ⟨⟨a, ha⟩⟩ := x
  obtain ⟨⟨b, hb⟩⟩ := y
  cases UInt64.toNat_inj.1 h
  rfl

/-- The floating-point numbers that are not finite are the two infinities and the one that is not a
number. -/
lemma eq_of_isFinite_eq_false {x : Float} (h : x.isFinite = false) :
    x = infinity ∨ x = -infinity ∨ x = nan := by
  have hunpack : (UnpackedFloat.unpack Format.binary64 x.toBits.toBitVec).isFinite = false := h
  unfold UnpackedFloat.unpack at hunpack
  dsimp only at hunpack
  split_ifs at hunpack with hexponent hmantissa hzero
  · -- All bits but the sign are given.
    have hlow : x.toBits.toNat % 0x10000000000000 = 0 := by
      simpa [UnpackedFloat.unpackMantissa] using congrArg BitVec.toNat hmantissa
    have hhigh : x.toBits.toNat / 0x10000000000000 % 2048 = 2047 := by
      simpa [UnpackedFloat.unpackExponent, Nat.shiftRight_eq_div_pow]
        using congrArg BitVec.toNat hexponent
    have hlt : x.toBits.toNat < 2 ^ 64 := x.toBits.toNat_lt
    have hpositive : infinity.toBits.toNat = 0x7ff0000000000000 := by decide
    have hnegative : (-infinity).toBits.toNat = 0xfff0000000000000 := by decide
    rcases Nat.lt_or_ge x.toBits.toNat (2 ^ 63) with hsign | hsign
    · exact .inl (eq_of_toBits_eq (by omega))
    · exact .inr (.inl (eq_of_toBits_eq (by omega)))
  · -- Not a number is represented by one pattern of bits only.
    have hbits : x.toBits.toBitVec = UnpackedFloat.packedNaN Format.binary64 :=
      x.toModel.valid.eq_packedNaN hexponent hmantissa
    have hnan : nan.toBits.toBitVec = UnpackedFloat.packedNaN Format.binary64 := by decide
    exact .inr (.inr (eq_of_toBits_eq (congrArg BitVec.toNat (hbits.trans hnan.symm))))
  · cases hunpack
  · cases hunpack
  · cases hunpack

end Decimal

namespace Outcome

/-- An average is read back, a finite one from a number and any other one from its text. -/
@[simp] lemma averageOfStored?_averageToStored (x : Float) :
    averageOfStored? (averageToStored x) = some x := by
  cases hfinite : x.isFinite with
  | true => rw [averageToStored, if_pos hfinite, averageOfStored?]
  | false =>
    rcases Decimal.eq_of_isFinite_eq_false hfinite with rfl | rfl | rfl
    · have htext : Decimal.text Decimal.infinity = "inf" := by decide
      rw [averageToStored, hfinite, htext]
      decide
    · have htext : Decimal.text (-Decimal.infinity) = "-inf" := by decide
      rw [averageToStored, hfinite, htext]
      decide
    · have htext : Decimal.text Decimal.nan = "NaN" := by decide
      rw [averageToStored, hfinite, htext]
      decide

/-- Every average is the same as itself, also where it is not a number. -/
lemma sameAverage_self (x : Float) : sameAverage x x = true := by
  rw [sameAverage, Bool.and_self]
  change (x.toModel.unpack.beq x.toModel.unpack || x.toModel.unpack.isNaN) = true
  cases x.toModel.unpack with
  | infinity sign => cases sign <;> rfl
  | notANumber => rfl
  | zero sign => rfl
  | finite sign mantissa exponent hpos =>
    cases sign <;>
      simp [Float.Model.UnpackedFloat.beq, Float.Model.UnpackedFloat.compare]

/-- Every outcome is the same as itself. -/
lemma same_self (o : Outcome) : o.same o = true := by
  simp [same, sameAverage_self]

end Outcome

/-! ## Records -/

/-- A list of dice is read back. -/
@[simp] lemma Die.listOfStored?_listToStored (dice : List Die) :
    listOfStored? (listToStored dice) = some dice := by
  rw [listOfStored?, listToStored, Stored.list?]
  change (dice.map toStored).mapM ofStored? = some dice
  induction dice with
  | nil => rfl
  | cons die dice ih =>
    rw [List.map_cons, List.mapM_cons, ofStored?_toStored, ih]
    rfl

/-- An outcome is read back. -/
@[simp] lemma Outcome.ofStored?_toStored (o : Outcome) : ofStored? o.toStored = some o := by
  simp [ofStored?, toStored, Stored.fields?, fieldNames, Stored.field?]

/-- An identity is read back. -/
@[simp] lemma RollId.ofStored?_toStored (id : RollId) : ofStored? id.toStored = some id := by
  rw [ofStored?, toStored, Stored.text?, Option.bind_some, ofText?_text]

/-- An instant is read back. -/
@[simp] lemma Instant.ofStored?_toStored (t : Instant) : ofStored? t.toStored = some t := by
  rw [ofStored?, toStored, Stored.text?, Option.bind_some, ofText?_text]

/-! ## Layers that keep finite numbers -/

section

variable {real : Float → Stored}

/-- A list of values is kept where each of them is. -/
lemma Stored.carryList_map {α : Type} {write : α → Stored}
    (h : ∀ a, (write a).carry real = write a) (as : List α) :
    carryList real (as.map write) = as.map write := by
  induction as with
  | nil => rfl
  | cons a as ih => rw [List.map_cons, carryList, h, ih]

/-- A value that may be missing is kept. -/
lemma Stored.carry_ofOption {α : Type} {write : α → Stored}
    (h : ∀ a, (write a).carry real = write a) (o : Option α) :
    (ofOption write o).carry real = ofOption write o := by
  cases o with
  | none => rw [ofOption, carry]
  | some a => exact h a

/-- A die is kept by every layer. -/
lemma Die.carry_toStored (d : Die) : d.toStored.carry real = d.toStored := by
  simp [toStored, Amount.toStored, Stored.carry, Stored.carryFields]

/-- A list of dice is kept by every layer. -/
lemma Die.carry_listToStored (dice : List Die) :
    (listToStored dice).carry real = listToStored dice := by
  rw [listToStored, Stored.carry, Stored.carryList_map carry_toStored]

/-- An average is kept by a layer that keeps finite numbers: the others are texts. -/
lemma Outcome.carry_averageToStored (h : ∀ x : Float, x.isFinite = true → real x = .real x)
    (x : Float) : (averageToStored x).carry real = averageToStored x := by
  unfold averageToStored
  split
  · rename_i hfinite
    rw [Stored.carry, h x hfinite]
  · rw [Stored.carry]

/-- An outcome is kept by a layer that keeps finite numbers. -/
lemma Outcome.carry_toStored (h : ∀ x : Float, x.isFinite = true → real x = .real x)
    (o : Outcome) : o.toStored.carry real = o.toStored := by
  simp [toStored, Amount.toStored, Stored.carry, Stored.carryFields, carry_averageToStored h,
    Die.carry_listToStored]

/-- A roll is kept by a layer that keeps finite numbers. -/
lemma Roll.carry_toStored (h : ∀ x : Float, x.isFinite = true → real x = .real x) (r : Roll) :
    r.toStored.carry real = r.toStored := by
  have htext : ∀ s : String, (Stored.text s).carry real = .text s := fun s => by rw [Stored.carry]
  have hid : ∀ id : RollId, id.toStored.carry real = id.toStored := fun id => htext id.text
  have htime : r.rolledAt.toStored.carry real = r.rolledAt.toStored := htext r.rolledAt.text
  have hcontext := Stored.carry_ofOption htext r.context
  have hparent := Stored.carry_ofOption hid r.parent
  simp [toStored, Stored.carry, Stored.carryFields, hid, htime, hcontext, hparent,
    Outcome.carry_toStored h]

end

namespace Roll

/-- A roll is read back. -/
lemma ofStored?_toStored (r : Roll) : ofStored? r.toStored = some r := by
  have htext : ∀ s : String, Stored.text? (.text s) = some s := fun _ => rfl
  have hnull : ∀ s : String, Stored.text s ≠ .null := fun _ => nofun
  have hcontext : Stored.optional? Stored.text? (some (Stored.ofOption .text r.context)) =
      some r.context := Stored.optional?_ofOption htext hnull r.context
  have hparent : Stored.optional? RollId.ofStored?
      (some (Stored.ofOption RollId.toStored r.parent)) = some r.parent :=
    Stored.optional?_ofOption RollId.ofStored?_toStored (fun id => hnull id.text) r.parent
  simp [ofStored?, toStored, Stored.fields?, fieldNames, Stored.field?, Stored.text?, hcontext,
    hparent]

/-- Every roll is the same as itself. -/
lemma same_self (r : Roll) : r.same r = true := by
  simp [same, Outcome.same_self]

/-! ## Throwing a stored roll again -/

/-- Rolls that are the same are thrown again alike: their averages, which may differ, are not looked
at. -/
lemma rethrow_of_same {a b : Roll} (h : a.same b = true) {σ : Type} (source : Source σ)
    (limit : Option Nat) (positions : List Nat) (id : RollId) (now : Instant) (state : σ) :
    a.rethrow source limit positions id now state =
      b.rethrow source limit positions id now state := by
  simp only [same, Outcome.same, Bool.and_eq_true, decide_eq_true_eq] at h
  obtain ⟨⟨⟨⟨⟨⟨hid, hexpression⟩, ⟨-, hraw⟩, -⟩, -⟩, hcontext⟩, -⟩, hroot⟩ := h
  have hderive : ∀ outcome, a.derive id outcome now = b.derive id outcome now := by
    intro outcome
    rw [derive, derive, hid, hexpression, hcontext, hroot]
  rw [rethrow_eq, rethrow_eq, hexpression, hraw]
  simp only [hderive]

/-- Keeping a roll outside of the program does not change it. What is written of it goes through a
layer that keeps finite floating-point numbers, and may make anything of the others. What is read
then is a roll that is the same, and whoever throws this one again comes to the same roll or the
same error, with the source of fresh dice in the same state, which may keep a log of its draws. -/
theorem stored_unchanged {real : Float → Stored}
    (hreal : ∀ x : Float, x.isFinite = true → real x = .real x) (r : Roll) :
    ∃ loaded, Roll.ofStored? (r.toStored.carry real) = some loaded ∧ loaded.same r = true ∧
      ∀ {σ : Type} (source : Source σ) (limit : Option Nat) (positions : List Nat) (id : RollId)
        (now : Instant) (state : σ),
        loaded.rethrow source limit positions id now state =
          r.rethrow source limit positions id now state := by
  refine ⟨r, ?_, same_self r, ?_⟩
  · rw [carry_toStored hreal, ofStored?_toStored]
  · intro σ source limit positions id now state
    exact rethrow_of_same (same_self r) source limit positions id now state

/-- What a layer reads of a floating-point number that has a form for the finite ones only. -/
def finiteOrNull (x : Float) : Stored := if x.isFinite then .real x else .null

/-- A six-sided die divided by a fate die, of which the average is infinite. -/
def endless : Roll where
  id := ⟨7⟩
  expression := "d6 / df"
  outcome := ⟨⟨3, by decide, by decide⟩, ⟨-6, by decide, by decide⟩, ⟨6, by decide, by decide⟩,
    Decimal.infinity, [⟨⟨3, by decide, by decide⟩, "6"⟩, ⟨.one, "f"⟩],
    [⟨⟨3, by decide, by decide⟩, "6"⟩, ⟨.one, "f"⟩]⟩
  rolledAt := .epoch
  context := none
  parent := none
  root := ⟨7⟩

/-- A layer that loses infinities does not lose an infinite average. -/
theorem stored_unchanged_of_endless :
    (∀ x : Float, x.isFinite = true → finiteOrNull x = .real x) ∧
      finiteOrNull endless.outcome.average = .null ∧
      ∃ loaded, Roll.ofStored? (endless.toStored.carry finiteOrNull) = some loaded ∧
        loaded.same endless = true ∧ ∀ positions now,
          loaded.rethrow Scripted.source (some 2) positions ⟨8⟩ now [.shows .one] =
            endless.rethrow Scripted.source (some 2) positions ⟨8⟩ now [.shows .one] := by
  have hreal : ∀ x : Float, x.isFinite = true → finiteOrNull x = .real x := fun _ h => if_pos h
  have hinfinite : ¬endless.outcome.average.isFinite = true := by decide
  obtain ⟨loaded, hread, hsame, hrethrow⟩ := stored_unchanged hreal endless
  exact ⟨hreal, if_neg hinfinite, loaded, hread, hsame, fun positions now =>
    hrethrow Scripted.source (some 2) positions ⟨8⟩ now [.shows .one]⟩

end Roll

end DiceNotation
