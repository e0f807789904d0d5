import DiceNotation.Proofs.Eval.Replay
import DiceNotation.Proofs.Outcome.Exact
import Mathlib
/-!
# Limits that are exact

A limit stops just those evaluations that need more dice than it allows (`limit_exact`), although
the dice of a throw are reserved before the first of them is drawn, and extra dice of exploding
throws are counted one by one.

An expression gives one answer along the draws of one source (`Expr.Gives.unique`), and arithmetic
never fails as a limit does (`Expr.Gives.arithmetic`). So an evaluation is stopped by its limit
where the answer takes more dice than the limit affords, and has that answer where it does not
(`Expr.refused_iff`). A limit that stops it has let dice be drawn up to the limit only: whatever is
asked of a table, it passes through the dice that it has counted (`Table.serve_passes`).
-/

namespace DiceNotation

variable {σ : Type}

/-! ## Arithmetic failures -/

namespace EvalError

/-- The failure is one of arithmetic. -/
def Arithmetic (e : EvalError) : Prop := e = .overflow ∨ e = .divisionByZero

/-- A limit does not fail as arithmetic does. -/
lemma not_arithmetic_tooManyRolls (max : Nat) : ¬(tooManyRolls max).Arithmetic := by
  rintro (h | h) <;> cases h

end EvalError

/-- A throw whose dice were drawn fails as arithmetic does. -/
lemma Outcome.ofThrow_eq_error {d : Dice} {raw : List Die} {e : EvalError}
    (h : ofThrow d raw = .error e) : e = .overflow := by
  rw [ofThrow] at h
  split at h
  · cases h
  · cases h
    rfl

/-- Along a trace an expression fails as arithmetic does. -/
lemma Expr.Gives.arithmetic {e : Expr} {trace : Trace} {answer : Except EvalError Outcome}
    (h : Gives e trace answer) {err : EvalError} (herr : answer = .error err) :
    err.Arithmetic := by
  induction h with
  | number value => cases herr
  | dice ht => exact .inl (Outcome.ofThrow_eq_error herr)
  | left hl ih => exact ih herr
  | right hl hr ihl ihr => exact ihr herr
  | binary hl hr ihl ihr => exact (Outcome.combine_eq_error herr).imp And.left And.left

/-! ## One answer along one source -/

section Unique

variable {source : Source σ} {state next last : σ}

/-- A trace leads a source from a state to one other state. -/
lemma Source.Deals.unique {trace : Trace} (h : source.Deals state trace next)
    (h' : source.Deals state trace last) : last = next :=
  congrArg Prod.snd (h'.symm.trans h)

/-- A source deals one throw of as many final dice. -/
lemma Thrown.unique {sides : Sides} {explodes : Bool} {n : Nat} {dice dice' : List Die}
    (h : Thrown sides explodes n dice) (h' : Thrown sides explodes n dice')
    (hd : source.Deals state (Trace.ofDice sides dice) next)
    (hd' : source.Deals state (Trace.ofDice sides dice') last) : dice' = dice := by
  induction h generalizing state dice' with
  | none =>
    cases h'
    rfl
  | @exploding n die dice hdie rest ih =>
    obtain ⟨hdraw, hrest⟩ := Source.deals_cons.1 hd
    cases h' with
    | @exploding _ die' _ hdie' rest' =>
      obtain ⟨hdraw', hrest'⟩ := Source.deals_cons.1 hd'
      obtain rfl : die = die' := hdraw.symm.trans hdraw'
      rw [ih rest' hrest hrest']
    | @final _ die' _ hdie' rest' =>
      obtain ⟨hdraw', -⟩ := Source.deals_cons.1 hd'
      obtain rfl : die = die' := hdraw.symm.trans hdraw'
      exact absurd hdie hdie'
  | @final n die dice hdie rest ih =>
    obtain ⟨hdraw, hrest⟩ := Source.deals_cons.1 hd
    cases h' with
    | @exploding _ die' _ hdie' rest' =>
      obtain ⟨hdraw', -⟩ := Source.deals_cons.1 hd'
      obtain rfl : die = die' := hdraw.symm.trans hdraw'
      exact absurd hdie' hdie
    | @final _ die' _ hdie' rest' =>
      obtain ⟨hdraw', hrest'⟩ := Source.deals_cons.1 hd'
      obtain rfl : die = die' := hdraw.symm.trans hdraw'
      rw [ih rest' hrest hrest']

/-- An operation answers along the trace of its left operand and, where that has an outcome, of its
right one. -/
lemma Expr.Gives.operands {left right : Expr} {op : Operator} {trace : Trace}
    {answer : Except EvalError Outcome} (h : Gives (.binary left op right) trace answer) :
    ∃ first rest l, Gives left first l ∧ trace = first ++ rest ∧
      match l with
      | .error e => rest = [] ∧ answer = .error e
      | .ok l => ∃ r, Gives right rest r ∧ answer = r.bind (Outcome.combine op l) := by
  cases h with
  | left hl => exact ⟨_, [], _, hl, (List.append_nil _).symm, rfl, rfl⟩
  | right hl hr => exact ⟨_, _, _, hl, rfl, _, hr, rfl⟩
  | binary hl hr => exact ⟨_, _, _, hl, rfl, _, hr, rfl⟩

/-- A source deals one of the traces along which an expression answers. -/
lemma Expr.Gives.unique {e : Expr} {first second : Trace} {a b : Except EvalError Outcome}
    (h : Gives e first a) (h' : Gives e second b) (hd : source.Deals state first next)
    (hd' : source.Deals state second last) : second = first ∧ b = a := by
  induction e generalizing state next last first second a b with
  | number value =>
    cases h
    cases h'
    exact ⟨rfl, rfl⟩
  | dice d =>
    cases h with
    | dice ht =>
      cases h' with
      | dice ht' =>
        have hraw := ht.unique ht' hd hd'
        exact ⟨by rw [hraw], by rw [hraw]⟩
  | binary left op right ihl ihr =>
    obtain ⟨firstl, firstr, l, hl, rfl, hr⟩ := h.operands
    obtain ⟨secondl, secondr, l', hl', rfl, hr'⟩ := h'.operands
    obtain ⟨middle, hfirst, hrest⟩ := Source.deals_append.1 hd
    obtain ⟨middle', hsecond, hrest'⟩ := Source.deals_append.1 hd'
    obtain ⟨rfl, rfl⟩ := ihl hl hl' hfirst hsecond
    obtain rfl := hfirst.unique hsecond
    cases l' with
    | error e =>
      obtain ⟨rfl, rfl⟩ := hr
      obtain ⟨rfl, rfl⟩ := hr'
      exact ⟨rfl, rfl⟩
    | ok l =>
      obtain ⟨r, hright, rfl⟩ := hr
      obtain ⟨r', hright', rfl⟩ := hr'
      obtain ⟨rfl, rfl⟩ := ihr hright hright' hrest hrest'
      exact ⟨rfl, rfl⟩

end Unique

/-! ## Limits -/

variable {source : Source σ} {limit : Option Nat}

/-- A limit below the greatest count affords the counts up to it. -/
lemma greatest_of_lt {m : Nat} (hm : m < maxCount) : greatest (some m) = m :=
  Nat.min_eq_left (Nat.le_of_lt hm)

namespace Expr

variable {e : Expr} {trace : Trace} {answer : Except EvalError Outcome} {state next : σ}

/-- An evaluation draws no more dice than its limit affords. It answers what the expression gives
along them, unless the limit stops it. -/
lemma trace_of_evaluate (h : e.evaluate source limit state = (answer, next)) :
    ∃ trace, source.Deals state trace next ∧ trace.length ≤ greatest limit ∧
      (answer = .error (.tooManyRolls (greatest limit)) ∨ Gives e trace answer) := by
  rw [evaluate] at h
  cases heval : e.eval source limit (.start state) with
  | mk result table =>
    rw [heval] at h
    cases h
    obtain ⟨trace, hpass, hanswer⟩ := gives_of_eval heval (affords_zero limit)
    have hrolls : table.rolls = trace.length := by simpa [Table.start] using hpass.rolls_eq
    exact ⟨trace, hpass.deals, hrolls ▸ affords_iff.1 hpass.affords, hanswer⟩

variable (limit) in
/-- A limit stops an evaluation where the answer takes more dice than the limit affords. -/
lemma refused_iff (h : Gives e trace answer) (hd : source.Deals state trace next) :
    (e.evaluate source limit state).1 = .error (.tooManyRolls (greatest limit)) ↔
      greatest limit < trace.length := by
  constructor
  · intro hrefused
    by_contra hle
    rw [evaluate_of_gives h hd (affords_iff.2 (Nat.le_of_not_lt hle))] at hrefused
    exact EvalError.not_arithmetic_tooManyRolls _ (h.arithmetic hrefused)
  · intro hlt
    obtain ⟨result, last, heval⟩ : ∃ result last, e.evaluate source limit state = (result, last) :=
      ⟨_, _, rfl⟩
    obtain ⟨trace', hd', hle, hrefused | hgives⟩ := trace_of_evaluate heval
    · rw [heval, hrefused]
    · obtain ⟨rfl, -⟩ := h.unique hgives hd hd'
      omega

/-- An evaluation that its limit does not stop comes to the same under every laxer limit. -/
lemma evaluate_of_laxer {lax : Option Nat} (h : e.evaluate source limit state = (answer, next))
    (hanswer : answer ≠ .error (.tooManyRolls (greatest limit))) (hl : Laxer limit lax) :
    e.evaluate source lax state = (answer, next) := by
  obtain ⟨trace, hdeals, hle, hrefused | hgives⟩ := trace_of_evaluate h
  · exact absurd hrefused hanswer
  · exact evaluate_of_gives hgives hdeals ((affords_iff.2 hle).of_laxer hl)

end Expr

/-! ## Requests -/

namespace Table

/-- What a table may be asked for. -/
inductive Request where
  /-- Whether so many more dice may be drawn. -/
  | reserve (n : Nat)
  /-- One die. -/
  | draw (sides : Sides)
  /-- The value of an expression. -/
  | eval (e : Expr)

/-- The table after a request, be it granted or refused. -/
def serve (source : Source σ) (limit : Option Nat) (t : Table σ) : Request → Table σ
  | .reserve _ => t
  | .draw sides => (t.draw source limit sides).2
  | .eval e => (e.eval source limit t).2

variable (source)

/-- A request passes the table through the dice that it draws. -/
lemma serve_passes {t : Table σ} (ha : Affords limit t.rolls) (request : Request) :
    ∃ trace, Passes source limit t trace (t.serve source limit request) := by
  cases request with
  | reserve n => exact ⟨[], .refl ha⟩
  | draw sides =>
    cases hdraw : t.draw source limit sides with
    | mk answer next =>
      have hserve : t.serve source limit (.draw sides) = next := congrArg Prod.snd hdraw
      rw [hserve]
      cases answer with
      | error e =>
        obtain ⟨-, rfl⟩ := draw_eq_error hdraw
        exact ⟨[], .refl ha⟩
      | ok die => exact ⟨_, draw_eq_ok.1 hdraw⟩
  | eval e =>
    obtain ⟨answer, next, heval⟩ : ∃ answer next, e.eval source limit t = (answer, next) :=
      ⟨_, _, rfl⟩
    obtain ⟨trace, hpass, -⟩ := Expr.gives_of_eval heval ha
    rw [serve, heval]
    exact ⟨trace, hpass⟩

/-- Requests pass the table through the dice that they draw. -/
lemma serveAll_passes {t : Table σ} (ha : Affords limit t.rolls) (requests : List Request) :
    ∃ trace, Passes source limit t trace (requests.foldl (serve source limit) t) := by
  induction requests generalizing t with
  | nil => exact ⟨[], .refl ha⟩
  | cons request rest ih =>
    obtain ⟨first, hfirst⟩ := serve_passes source ha request
    obtain ⟨second, hsecond⟩ := ih hfirst.affords
    exact ⟨first ++ second, passes_append.2 ⟨_, hfirst, hsecond⟩⟩

end Table

/-- A limit below the greatest count lets no evaluation draw more dice than it allows, and stops
just those that need more: an evaluation that it does not stop comes to the same with the same draws
under every laxer limit and without any, and it stops an evaluation that has an answer along the
draws of the source, or under some laxer limit, where that answer takes more dice. A table that is
asked for whatever counts the dice that are drawn from its source, and there are no more than the
limit allows. -/
theorem limit_exact {m : Nat} (hm : m < maxCount) (source : Source σ) (state : σ) :
    (∀ e : Expr, ∃ answer next drawn,
      e.evaluate source.counted (some m) (state, 0) = (answer, next, drawn) ∧ drawn ≤ m ∧
      (answer = .error (.tooManyRolls m) ∨
        ∃ trace, e.Gives trace answer ∧ source.Deals state trace next ∧ trace.length = drawn) ∧
      (∀ trace full last, e.Gives trace full → source.Deals state trace last →
        (answer = .error (.tooManyRolls m) ↔ m < trace.length)) ∧
      ∀ lax, Laxer (some m) lax →
        (answer ≠ .error (.tooManyRolls m) →
          e.evaluate source.counted lax (state, 0) = (answer, next, drawn)) ∧
        ∀ full last needed, e.evaluate source.counted lax (state, 0) = (full, last, needed) →
          (∀ max, full ≠ .error (.tooManyRolls max)) →
            (answer = .error (.tooManyRolls m) ↔ m < needed)) ∧
    ∀ requests : List Table.Request,
      (requests.foldl (Table.serve source.counted (some m)) (.start (state, 0))).rolls =
          (requests.foldl (Table.serve source.counted (some m)) (.start (state, 0))).state.2 ∧
        (requests.foldl (Table.serve source.counted (some m)) (.start (state, 0))).rolls ≤ m := by
  have hgreatest := greatest_of_lt hm
  constructor
  · intro e
    obtain ⟨answer, ⟨next, drawn⟩, heval⟩ :
        ∃ answer last, e.evaluate source.counted (some m) (state, 0) = (answer, last) := ⟨_, _, rfl⟩
    obtain ⟨trace, hdeals, hle, hanswer⟩ := Expr.trace_of_evaluate heval
    obtain ⟨hdealt, hdrawn⟩ := Source.deals_counted.1 hdeals
    rw [Nat.zero_add] at hdrawn
    rw [hgreatest] at hle hanswer
    -- Whether the limit stops the evaluation is decided by any trace that has an answer.
    have hrefused : ∀ trace full last, e.Gives trace full → source.Deals state trace last →
        (answer = .error (.tooManyRolls m) ↔ m < trace.length) := by
      intro trace full last hgives hlast
      have hcounted := Source.deals_counted.2 ⟨hlast, (Nat.zero_add trace.length).symm⟩
      have hiff := Expr.refused_iff (some m) hgives hcounted
      rw [heval, hgreatest] at hiff
      exact hiff
    refine ⟨answer, next, drawn, heval, hdrawn ▸ hle, ?_, hrefused, fun lax hlax => ⟨?_, ?_⟩⟩
    · exact hanswer.imp_right fun hgives => ⟨trace, hgives, hdealt, hdrawn.symm⟩
    · intro hstopped
      exact Expr.evaluate_of_laxer heval (hgreatest.symm ▸ hstopped) hlax
    · intro full last needed hfull hfinished
      obtain ⟨whole, hwhole, -, hanswer' | hgives⟩ := Expr.trace_of_evaluate hfull
      · exact absurd hanswer' (hfinished _)
      · obtain ⟨hlast, hneeded⟩ := Source.deals_counted.1 hwhole
        rw [hrefused whole full last hgives hlast, hneeded, Nat.zero_add]
  · intro requests
    obtain ⟨trace, hpass⟩ := Table.serveAll_passes source.counted (t := .start (state, 0))
      (affords_zero (some m)) requests
    have hcount := (Source.deals_counted.1 hpass.deals).2
    have hle := affords_iff.1 hpass.affords
    rw [hgreatest] at hle
    exact ⟨hpass.rolls_eq.trans hcount.symm, hle⟩

/-- A die that explodes makes an expression for three dice take four. A limit of three stops it,
although it lets the dice of both throws be reserved, a limit of four does not, and a table with
that limit refuses what would be a fifth die. -/
theorem limit_exact_of_explosion :
    ∃ (e : Expr) (o : Outcome), Expr.ofText "2d6! + 1d4" = .ok e ∧
      e.evaluate Source.highFirst.counted none (true, 0) = (.ok o, false, 4) ∧
      o.raw.map Die.text = ["6", "1", "1", "1"] ∧
      (e.evaluate Source.highFirst.counted (some 3) (true, 0)).1 = .error (.tooManyRolls 3) ∧
      e.evaluate Source.highFirst.counted (some 4) (true, 0) = (.ok o, false, 4) ∧
      ([.draw .fate, .eval e, .reserve 9, .draw .fate, .eval e].foldl
        (Table.serve Source.highFirst.counted (some 4)) (.start (true, 0))).rolls ≤ 4 := by
  have hruns :
      (match Expr.ofText "2d6! + 1d4" with
      | .ok e => e.succeeds Source.highFirst.counted none (true, 0) fun o last =>
          last = (false, 4) ∧ o.raw.map Die.text = ["6", "1", "1", "1"]
      | .error _ => false) = true := by
    decide +kernel
  split at hruns
  · rename_i e he
    obtain ⟨o, last, heval, htest⟩ := Expr.exists_of_succeeds hruns
    obtain ⟨rfl, hraw⟩ := of_decide_eq_true htest
    have hlaxer : ∀ m, Laxer (some m) none := fun m max hmax => nomatch hmax
    have hfinished : ∀ max, (.ok o : Except EvalError Outcome) ≠ .error (.tooManyRolls max) := by
      rintro max ⟨⟩
    have hthree := limit_exact (m := 3) (by decide) Source.highFirst true
    have hfour := limit_exact (m := 4) (by decide) Source.highFirst true
    obtain ⟨answer, next, drawn, hrun, -, -, -, hlax⟩ := hthree.1 e
    have hstopped := ((hlax none (hlaxer 3)).2 _ _ _ heval hfinished).2 (by decide)
    obtain ⟨answer', next', drawn', hrun', -, -, -, hlax'⟩ := hfour.1 e
    have hgoes : answer' ≠ .error (.tooManyRolls 4) := fun hstopped' =>
      absurd (((hlax' none (hlaxer 4)).2 _ _ _ heval hfinished).1 hstopped') (by decide)
    have hsame := (hlax' none (hlaxer 4)).1 hgoes
    refine ⟨e, o, he, heval, hraw, ?_, ?_, (hfour.2 _).2⟩
    · rw [hrun, hstopped]
    · rw [hrun', ← hsame, heval]
  · cases hruns

end DiceNotation
