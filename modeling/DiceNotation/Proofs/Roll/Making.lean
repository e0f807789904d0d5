import DiceNotation.Roll.Throw
import Mathlib.Data.List.Nodup
/-!
# How rolls are made

A throw evaluates the text of an expression, and so does a throw of an earlier roll, with the dice
of this roll replayed (`Expr.evaluateText`, `Roll.throw_eq`, `Roll.rethrow_eq`).

A roll is made by `Roll.create`, from another one by `Roll.derive`, or by `Roll.throw` and
`Roll.rethrow`, which evaluate an expression first. Whichever way it is made, it is the first roll
of a line, or it continues the line of a roll that was there before: it names that roll as its
parent and takes over its expression, its context and its root (`Roll.Making.first_or_continues`).

`Roll.Made` holds of the rolls that were made one after another with no identity given twice.
-/

namespace DiceNotation

/-- Evaluates the text of an expression. -/
def Expr.evaluateText {σ : Type} (source : Source σ) (limit : Option Nat) (expression : String)
    (state : σ) : Except Error Outcome × σ :=
  match Expr.ofText expression with
  | .error e => (.error (.parse e), state)
  | .ok expr => ((expr.evaluate source limit state).1.mapError .eval,
      (expr.evaluate source limit state).2)

namespace Roll

section Evaluation

variable {σ : Type} (source : Source σ) (limit : Option Nat) (id : RollId) (now : Instant)
  (state : σ)

/-- A throw records what the text of an expression comes to. -/
lemma throw_eq (expression : String) (context : Option String) :
    Roll.throw source limit expression context id now state =
      ((Expr.evaluateText source limit expression state).1.map fun outcome =>
          create id expression outcome now context,
        (Expr.evaluateText source limit expression state).2) := by
  unfold throw Expr.evaluateText
  cases Expr.ofText expression with
  | error e => rfl
  | ok expr =>
    cases h : expr.evaluate source limit state with
    | mk answer next => cases answer <;> simp [h, Except.map, Except.mapError]

/-- A throw of an earlier roll records what its text comes to where its dice are replayed. -/
lemma rethrow_eq (earlier : Roll) (positions : List Nat) :
    earlier.rethrow source limit positions id now state =
      ((Expr.evaluateText (Replay.source positions source) limit earlier.expression
          (.start earlier.outcome.raw state)).1.map fun outcome => earlier.derive id outcome now,
        (Expr.evaluateText (Replay.source positions source) limit earlier.expression
          (.start earlier.outcome.raw state)).2.fallback) := by
  unfold rethrow Expr.evaluateText
  cases Expr.ofText earlier.expression with
  | error e => rfl
  | ok expr =>
    cases h : expr.evaluate (Replay.source positions source) limit
        (.start earlier.outcome.raw state) with
    | mk answer next => cases answer <;> simp [h, Except.map, Except.mapError]

end Evaluation

section Throws

variable {σ : Type} {source : Source σ} {state next : σ} {limit : Option Nat} {id : RollId}
  {now : Instant} {roll : Roll}

/-- A roll that is thrown records the outcome of its expression. -/
lemma throw_eq_ok {expression : String} {context : Option String}
    (h : Roll.throw source limit expression context id now state = (.ok roll, next)) :
    ∃ (e : Expr) (outcome : Outcome), Expr.ofText expression = .ok e ∧
      e.evaluate source limit state = (.ok outcome, next) ∧
      roll = create id expression outcome now context := by
  unfold throw at h
  split at h
  · cases h
  · rename_i e he
    split at h
    · cases h
    · rename_i outcome last heval
      cases h
      exact ⟨e, outcome, he, heval, rfl⟩

/-- A roll that is thrown again records the outcome of a replay of the earlier one's dice. -/
lemma rethrow_eq_ok {earlier : Roll} {positions : List Nat}
    (h : earlier.rethrow source limit positions id now state = (.ok roll, next)) :
    ∃ (e : Expr) (outcome : Outcome) (last : Replay σ), Expr.ofText earlier.expression = .ok e ∧
      e.evaluate (Replay.source positions source) limit (.start earlier.outcome.raw state) =
        (.ok outcome, last) ∧
      roll = earlier.derive id outcome now := by
  unfold rethrow at h
  split at h
  · cases h
  · rename_i e he
    dsimp only at h
    split at h
    · cases h
    · rename_i outcome last heval
      cases h
      exact ⟨e, outcome, last, he, heval, rfl⟩

end Throws

/-- The ways in which a roll is made, from the rolls of a list where it is made from another one. -/
inductive Making (made : List Roll) : Roll → Prop
  | create (id : RollId) (expression : String) (outcome : Outcome) (now : Instant)
      (context : Option String) : Making made (.create id expression outcome now context)
  | derive {earlier : Roll} (hearlier : earlier ∈ made) (id : RollId) (outcome : Outcome)
      (now : Instant) : Making made (earlier.derive id outcome now)
  | throw {σ : Type} {source : Source σ} {state next : σ} {limit : Option Nat}
      {expression : String} {context : Option String} {id : RollId} {now : Instant} {roll : Roll}
      (heq : Roll.throw source limit expression context id now state = (.ok roll, next)) :
      Making made roll
  | rethrow {earlier : Roll} (hearlier : earlier ∈ made) {σ : Type} {source : Source σ}
      {state next : σ} {limit : Option Nat} {positions : List Nat} {id : RollId} {now : Instant}
      {roll : Roll}
      (heq : earlier.rethrow source limit positions id now state = (.ok roll, next)) :
      Making made roll

/-- The roll continues the line of an earlier one. -/
structure Continues (roll earlier : Roll) : Prop where
  /-- The earlier roll is the parent. -/
  parent : roll.parent = some earlier.id
  /-- The expression is taken over. -/
  expression : roll.expression = earlier.expression
  /-- The context is taken over. -/
  context : roll.context = earlier.context
  /-- The root is taken over. -/
  root : roll.root = earlier.root

lemma continues_derive (earlier : Roll) (id : RollId) (outcome : Outcome) (now : Instant) :
    (earlier.derive id outcome now).Continues earlier := ⟨rfl, rfl, rfl, rfl⟩

/-- A roll is the first of its line and its own root, or it continues the line of a roll from which
it is made. -/
lemma Making.first_or_continues {made : List Roll} {roll : Roll} (making : Making made roll) :
    (roll.parent = none ∧ roll.root = roll.id) ∨ ∃ earlier ∈ made, roll.Continues earlier := by
  cases making with
  | create id expression outcome now context => exact .inl ⟨rfl, rfl⟩
  | derive hearlier id outcome now => exact .inr ⟨_, hearlier, continues_derive _ id outcome now⟩
  | throw heq =>
    obtain ⟨e, outcome, -, -, rfl⟩ := throw_eq_ok heq
    exact .inl ⟨rfl, rfl⟩
  | rethrow hearlier heq =>
    obtain ⟨e, outcome, last, -, -, rfl⟩ := rethrow_eq_ok heq
    exact .inr ⟨_, hearlier, continues_derive _ _ outcome _⟩

/-- Rolls that were made one after another, each with an identity of its own, the newest first. -/
inductive Made : List Roll → Prop
  | none : Made []
  | more {made : List Roll} {roll : Roll} (before : Made made) (making : Making made roll)
      (fresh : ∀ earlier ∈ made, earlier.id ≠ roll.id) : Made (roll :: made)

/-- No two rolls have the same identity. -/
lemma Made.nodup {made : List Roll} (h : Made made) : (made.map Roll.id).Nodup := by
  induction h with
  | none => exact List.nodup_nil
  | @more made roll before making fresh ih =>
    rw [List.map_cons]
    refine List.nodup_cons.2 ⟨fun hmem => ?_, ih⟩
    obtain ⟨earlier, hearlier, hid⟩ := List.mem_map.1 hmem
    exact fresh earlier hearlier hid

/-- A roll is known by its identity. -/
lemma Made.eq_of_id_eq {made : List Roll} (h : Made made) {r s : Roll} (hr : r ∈ made)
    (hs : s ∈ made) (hid : r.id = s.id) : r = s :=
  List.inj_on_of_nodup_map h.nodup hr hs hid

end Roll

end DiceNotation
