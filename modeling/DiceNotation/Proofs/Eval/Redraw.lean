import DiceNotation.Expr.Text
import DiceNotation.Proofs.Expr.Form
import Mathlib.Tactic.Common
/-!
# What a replay keeps and what it draws anew

A die of a replay is the recorded one where it stays (`Replay.Stays`), and all the others are what
the other source deals when it is asked for them alone (`Replay.deals_source_iff`). Dice that start
or stop exploding move the draws after them to other numbers. This decides which dice stay, but that
every other die is one draw from the other source holds all the same.

Where no die can explode no draw is moved, and just the dice at chosen positions are drawn anew
(`Replay.mem_redrawn_of_labels`).
-/

namespace DiceNotation

/-! ## Counted draws -/

/-- A source deals what it deals when its draws are counted, and each draw counts. -/
lemma Source.deals_counted {σ : Type} {source : Source σ} {state next : σ} {trace : Trace}
    {drawn count : Nat} :
    source.counted.Deals (state, drawn) trace (next, count) ↔
      source.Deals state trace next ∧ count = drawn + trace.length := by
  induction trace generalizing state drawn with
  | nil => simp [eq_comm]
  | cons draw rest ih =>
    have hcount : drawn + 1 + rest.length = drawn + (draw :: rest).length := by
      rw [List.length_cons]
      omega
    rw [deals_cons, deals_cons, counted_fst, counted_snd, ih, hcount, and_assoc]

namespace Replay

variable {σ : Type} {other : Source σ} {recorded : List Die} {positions : List Nat}

/-! ## Dice that stay -/

/-- The die of draw `i` stays: no position is chosen for the draw, and the die that is recorded for
it has the same label. -/
def Stays (recorded : List Die) (positions : List Nat) (i : Nat) (die : Die) : Prop :=
  i ∉ positions ∧ recorded[i]?.map Die.label = some die.label

instance (recorded : List Die) (positions : List Nat) (i : Nat) (die : Die) :
    Decidable (Stays recorded positions i die) :=
  inferInstanceAs (Decidable (_ ∧ _))

/-- A die with the label of the recorded one stays, unless its position is chosen. -/
lemma stays_of_label {i : Nat} {die : Die} (hi : i < recorded.length) (hposition : i ∉ positions)
    (hlabel : recorded[i].label = die.label) : Stays recorded positions i die := by
  refine ⟨hposition, ?_⟩
  rw [List.getElem?_eq_getElem hi, Option.map_some, hlabel]

/-- The dice that do not stay, each with the number of its draw, in the order of the draws. -/
def redrawn (recorded : List Die) (positions : List Nat) (dice : List Die) : List (Die × Nat) :=
  dice.zipIdx.filter fun draw => ¬Stays recorded positions draw.2 draw.1

/-- The numbers of the dice that do not stay. -/
lemma mem_redrawn {dice : List Die} {i : Nat} :
    i ∈ (redrawn recorded positions dice).map Prod.snd ↔
      ∃ die, dice[i]? = some die ∧ ¬Stays recorded positions i die := by
  simp only [redrawn, List.mem_map, List.mem_filter, Prod.exists, List.mem_zipIdx_iff_getElem?,
    decide_eq_true_eq, exists_eq_right]

/-- Nothing is drawn anew where every die stays. -/
lemma redrawn_eq_nil {dice : List Die}
    (h : ∀ i die, dice[i]? = some die → Stays recorded positions i die) :
    redrawn recorded positions dice = [] := by
  refine List.filter_eq_nil_iff.2 ?_
  rintro ⟨die, i⟩ hmem
  have hstays := h i die (List.mem_zipIdx_iff_getElem?.1 hmem)
  simpa using hstays

/-- If the dice have the labels of the recorded ones, just those at chosen positions do not stay. -/
lemma mem_redrawn_of_labels {dice : List Die} {i : Nat}
    (h : dice.map Die.label = recorded.map Die.label) :
    i ∈ (redrawn recorded positions dice).map Prod.snd ↔ i ∈ positions ∧ i < recorded.length := by
  have hlength : dice.length = recorded.length := by
    rw [← List.length_map Die.label, h, List.length_map]
  have hlabel : recorded[i]?.map Die.label = dice[i]?.map Die.label := by
    rw [← List.getElem?_map, ← List.getElem?_map, h]
  rw [mem_redrawn, ← hlength]
  constructor
  · rintro ⟨die, hdie, hstays⟩
    refine ⟨?_, (List.getElem?_eq_some_iff.1 hdie).1⟩
    by_contra hi
    rw [hdie] at hlabel
    exact hstays ⟨hi, hlabel⟩
  · rintro ⟨hi, hlt⟩
    exact ⟨dice[i], List.getElem?_eq_getElem hlt, fun hstays => hstays.1 hi⟩

/-! ## Draws from the other source -/

/-- The draws of a trace whose dice do not stay, where the trace begins with draw `i`. -/
def fresh (recorded : List Die) (positions : List Nat) (i : Nat) (trace : Trace) : Trace :=
  ((trace.zipIdx i).filter fun draw => ¬Stays recorded positions draw.2 draw.1.2).map Prod.fst

variable {draw : Sides × Die} {rest : Trace} {i : Nat} {fallback : σ}

lemma fresh_cons_of_stays (h : Stays recorded positions i draw.2) :
    fresh recorded positions i (draw :: rest) = fresh recorded positions (i + 1) rest := by
  simp [fresh, h]

lemma fresh_cons_of_not_stays (h : ¬Stays recorded positions i draw.2) :
    fresh recorded positions i (draw :: rest) =
      draw :: fresh recorded positions (i + 1) rest := by
  simp [fresh, h]

/-- The dice of these draws are the dice that do not stay. -/
lemma dice_fresh (trace : Trace) :
    (fresh recorded positions 0 trace).dice =
      (redrawn recorded positions trace.dice).map Prod.fst := by
  rw [fresh, redrawn, Trace.dice, Trace.dice, List.zipIdx_map, List.filter_map, List.map_map,
    List.map_map]
  rfl

/-- A draw whose die stays is answered by the recorded die. -/
lemma source_of_stays (other : Source σ) (fallback : σ) (hb : draw.2.Bears draw.1)
    (h : Stays recorded positions i draw.2) :
    ∃ die, recorded[i]? = some die ∧
      source positions other ⟨recorded.drop i, i, fallback⟩ draw.1 =
        (die, ⟨recorded.drop (i + 1), i + 1, fallback⟩) := by
  obtain ⟨hi, hlabel⟩ := h
  obtain ⟨die, hdie, hdielabel⟩ := Option.map_eq_some_iff.1 hlabel
  have hhead : (recorded.drop i).head? = some die := by rw [List.head?_drop, hdie]
  have hreplayed : replayed? positions ⟨recorded.drop i, i, fallback⟩ draw.1 = some die :=
    replayed?_eq_some.2 ⟨hhead, hi, hdielabel.trans hb⟩
  exact ⟨die, hdie, by rw [source_of_replayed hreplayed, List.tail_drop]⟩

/-- Any other draw is one draw from the other source. -/
lemma source_of_not_stays (hb : draw.2.Bears draw.1) (h : ¬Stays recorded positions i draw.2) :
    source positions other ⟨recorded.drop i, i, fallback⟩ draw.1 =
      ((other fallback draw.1).1,
        ⟨recorded.drop (i + 1), i + 1, (other fallback draw.1).2⟩) := by
  have hfresh : replayed? positions ⟨recorded.drop i, i, fallback⟩ draw.1 = none := by
    rw [Option.eq_none_iff_forall_ne_some]
    intro die hdie
    obtain ⟨hhead, hi, hlabel⟩ := replayed?_eq_some.1 hdie
    rw [List.head?_drop] at hhead
    exact h ⟨hi, by rw [hhead, Option.map_some, hlabel, hb]⟩
  rw [source_of_fresh hfresh, List.tail_drop]

/-- From draw `i` on a replay deals a trace of labelled dice if the dice that stay are the recorded
ones and the other source deals the others. -/
lemma deals_source_iff {trace : Trace} (hlabel : ∀ draw ∈ trace, draw.2.Bears draw.1)
    {next : Replay σ} :
    (source positions other).Deals ⟨recorded.drop i, i, fallback⟩ trace next ↔
      (∀ draw ∈ trace.zipIdx i, Stays recorded positions draw.2 draw.1.2 →
        recorded[draw.2]? = some draw.1.2) ∧
      other.Deals fallback (fresh recorded positions i trace) next.fallback ∧
      next.recorded = recorded.drop (i + trace.length) ∧ next.calls = i + trace.length := by
  induction trace generalizing i fallback with
  | nil =>
    obtain ⟨later, calls, last⟩ := next
    simp [fresh, eq_comm, and_comm, and_assoc]
  | cons draw rest ih =>
    have hbears := hlabel draw List.mem_cons_self
    have hrest := fun d hd => hlabel d (List.mem_cons_of_mem draw hd)
    have hlength : i + (draw :: rest).length = i + 1 + rest.length := by
      rw [List.length_cons]
      omega
    rw [Source.deals_cons, List.zipIdx_cons, List.forall_mem_cons, hlength]
    by_cases h : Stays recorded positions i draw.2
    · obtain ⟨die, hdie, hdraw⟩ := source_of_stays other fallback hbears h
      rw [hdraw, ih hrest, fresh_cons_of_stays h]
      simp [h, hdie, and_assoc]
    · rw [source_of_not_stays hbears h, ih hrest, fresh_cons_of_not_stays h, Source.deals_cons]
      simp only [h, false_implies, true_and, and_assoc, and_left_comm]

/-- A replay that has not begun deals a trace of labelled dice if the dice that stay are the
recorded ones and the other source deals the others. -/
lemma deals_start_iff {trace : Trace} (hlabel : ∀ draw ∈ trace, draw.2.Bears draw.1)
    {next : Replay σ} :
    (source positions other).Deals (.start recorded fallback) trace next ↔
      (∀ i die, trace.dice[i]? = some die → Stays recorded positions i die →
        recorded[i]? = some die) ∧
      other.Deals fallback (fresh recorded positions 0 trace) next.fallback ∧
      next.recorded = recorded.drop trace.length ∧ next.calls = trace.length := by
  have hdeals : (source positions other).Deals (.start recorded fallback) trace next ↔ _ :=
    deals_source_iff (i := 0) hlabel
  rw [hdeals, Nat.zero_add]
  refine and_congr_left' ?_
  simp only [Trace.dice, List.getElem?_map, Option.map_eq_some_iff, Prod.forall,
    List.mem_zipIdx_iff_getElem?]
  constructor
  · rintro hstay i die ⟨draw, hdraw, rfl⟩
    exact hstay draw.1 draw.2 i hdraw
  · intro hstay sides die i hdraw
    exact hstay i die ⟨_, hdraw, rfl⟩

/-- The dice of a replay that do not stay are drawn from the other source, in its own order. -/
lemma draws_of_deals {trace : Trace} (hlabel : ∀ draw ∈ trace, draw.2.Bears draw.1)
    {next : Replay σ} (h : (source positions other).Deals (.start recorded fallback) trace next) :
    other.draws fallback (fresh recorded positions 0 trace).kinds =
      ((redrawn recorded positions trace.dice).map Prod.fst, next.fallback) := by
  rw [← dice_fresh]
  exact ((deals_start_iff hlabel).1 h).2.1

/-- As many dice are drawn from the other source as do not stay. -/
lemma deals_counted {trace : Trace} (hlabel : ∀ draw ∈ trace, draw.2.Bears draw.1)
    {next : Replay σ} (h : (source positions other).Deals (.start recorded fallback) trace next)
    (drawn : Nat) :
    (source positions other.counted).Deals (.start recorded (fallback, drawn)) trace
      ⟨recorded.drop trace.length, trace.length,
        (next.fallback, drawn + (redrawn recorded positions trace.dice).length)⟩ := by
  obtain ⟨hstay, hfresh, -, -⟩ := (deals_start_iff hlabel).1 h
  have hcount : (redrawn recorded positions trace.dice).length =
      (fresh recorded positions 0 trace).length := by
    rw [← Trace.length_dice, dice_fresh, List.length_map]
  refine (deals_start_iff hlabel).2 ⟨hstay, ?_, rfl, rfl⟩
  rw [hcount]
  exact Source.deals_counted.2 ⟨hfresh, rfl⟩

end Replay

/-! ## Evaluations of replays -/

/-- Every die of a replay with labelled dice is the recorded one where it stays, and all the others
are the dice of the other source, one draw each, in its own order. If no die can explode and the
recorded dice are those of an outcome of the same expression, as many dice are thrown as there were
and just those at chosen positions are drawn anew. -/
theorem replay_redraws {σ : Type} {other : Source σ} {fallback : σ} {recorded : List Die}
    {positions : List Nat} {e : Expr} {limit : Option Nat} {o : Outcome} {last : Replay σ}
    (labelled : other.Labelled fallback)
    (h : e.evaluate (Replay.source positions other) limit (.start recorded fallback) =
      (.ok o, last)) :
    (∀ (i : Nat) (hi : i < o.raw.length) (hr : i < recorded.length), i ∉ positions →
        recorded[i].label = o.raw[i].label → o.raw[i] = recorded[i]) ∧
      (∃ kinds, kinds.map Sides.label =
            (Replay.redrawn recorded positions o.raw).map (fun draw => draw.1.label) ∧
          other.draws fallback kinds =
            ((Replay.redrawn recorded positions o.raw).map Prod.fst, last.fallback)) ∧
      (∀ drawn, e.evaluate (Replay.source positions other.counted) limit
          (.start recorded (fallback, drawn)) =
        (.ok o, ⟨recorded.drop o.raw.length, o.raw.length,
          (last.fallback, drawn + (Replay.redrawn recorded positions o.raw).length)⟩)) ∧
      (e.NeverExplodes → ∀ {τ : Type} (source : Source τ) (state next : τ) (lax : Option Nat)
          (earlier : Outcome), source.Labelled state →
        e.evaluate source lax state = (.ok earlier, next) → earlier.raw = recorded →
          o.raw.length = recorded.length ∧
            ∀ i, i ∈ (Replay.redrawn recorded positions o.raw).map Prod.snd ↔
              i ∈ positions ∧ i < recorded.length) := by
  obtain ⟨trace, hgives, hdeals, ha⟩ := Expr.evaluate_eq_ok.1 h
  have hreplay := Replay.labelled_source recorded positions labelled
  have hlabel : ∀ draw ∈ trace, draw.2.Bears draw.1 := Source.Keeps.of_deals hreplay hdeals
  have hraw : o.raw = trace.dice := hgives.raw_eq
  refine ⟨?_, ?_, ?_, ?_⟩
  · intro i hi hr hposition hsame
    have hdie : trace.dice[i]? = some o.raw[i] := by rw [← hraw, List.getElem?_eq_getElem hi]
    have hkept := ((Replay.deals_start_iff hlabel).1 hdeals).1 i _ hdie
      (Replay.stays_of_label hr hposition hsame)
    rw [List.getElem?_eq_getElem hr] at hkept
    exact (Option.some.inj hkept).symm
  · have hdraws := Replay.draws_of_deals hlabel hdeals
    rw [← hraw] at hdraws
    refine ⟨_, ?_, hdraws⟩
    rw [← Source.map_label_draws labelled, hdraws, List.map_map]
    rfl
  · intro drawn
    rw [hraw, Trace.length_dice]
    exact Expr.evaluate_of_gives hgives (Replay.deals_counted hlabel hdeals drawn) ha
  · intro he τ source state next lax earlier hsource hearlier hearlierraw
    subst hearlierraw
    have hlabels : o.raw.map Die.label = earlier.raw.map Die.label :=
      (Expr.labels_of_evaluate he hreplay h).trans
        (Expr.labels_of_evaluate he hsource hearlier).symm
    refine ⟨?_, fun i => Replay.mem_redrawn_of_labels hlabels⟩
    rw [← List.length_map Die.label, hlabels, List.length_map]

/-- Two dice with twenty faces and a fate die, none of which explodes. -/
def twentiesAndFate : Expr :=
  .binary (.dice (.plain 2 (.ofNumber 20))) .add (.dice (.plain 1 .fate))

/-- A die that is thrown anew explodes. The die after it stays, the fate die would have to stand for
a die with six faces, and there is one draw more than was recorded: three dice are drawn. Where
nothing explodes a position beyond the recorded dice changes nothing. -/
theorem replay_redraws_of_explosion :
    (∃ (e : Expr) (first second : Outcome), Expr.ofText "2d6! - 1df" = .ok e ∧
      e.evaluate Source.highFirst none false = (.ok first, false) ∧
      first.raw.map Die.text = ["1", "1", "-1"] ∧
      e.evaluate (Replay.source [0] Source.highFirst.counted) none (.start first.raw (true, 0)) =
        (.ok second, ⟨[], 4, (false, 3)⟩) ∧
      second.raw.map Die.text = ["6", "1", "1", "-1"] ∧
      (Replay.redrawn first.raw [0] second.raw).map Prod.snd = [0, 2, 3]) ∧
    ∃ (first second : Outcome) (last : Replay Bool),
      twentiesAndFate.evaluate Source.highFirst none false = (.ok first, false) ∧
      twentiesAndFate.evaluate (Replay.source [1, 7] Source.highFirst) none
        (.start first.raw true) = (.ok second, last) ∧
      second.raw.length = first.raw.length ∧
      ∀ i, i ∈ (Replay.redrawn first.raw [1, 7] second.raw).map Prod.snd ↔
        i ∈ [1, 7] ∧ i < first.raw.length := by
  have hexplosion :
      (match Expr.ofText "2d6! - 1df" with
      | .ok e =>
        e.succeeds Source.highFirst none false fun first next =>
          next = false ∧ first.raw.map Die.text = ["1", "1", "-1"] ∧
            e.succeeds (Replay.source [0] Source.highFirst) none (.start first.raw true)
              fun second last =>
                second.raw.map Die.text = ["6", "1", "1", "-1"] ∧
                  (Replay.redrawn first.raw [0] second.raw).map Prod.snd = [0, 2, 3] ∧
                  last.fallback = false
      | .error _ => false) = true := by
    decide +kernel
  have hplain :
      (twentiesAndFate.succeeds Source.highFirst none false fun first next =>
        next = false ∧
          twentiesAndFate.succeeds (Replay.source [1, 7] Source.highFirst) none
            (.start first.raw true) fun _ _ => true) = true := by
    decide +kernel
  have labelled := (Source.honest_highFirst true).labelled
  constructor
  · split at hexplosion
    · rename_i e he
      obtain ⟨first, next, hfirst, htest⟩ := Expr.exists_of_succeeds hexplosion
      obtain ⟨rfl, hraw, hruns⟩ := of_decide_eq_true htest
      obtain ⟨second, last, hsecond, htest⟩ := Expr.exists_of_succeeds hruns
      obtain ⟨hraw', hredrawn, hlast⟩ := of_decide_eq_true htest
      have hlength : second.raw.length = 4 := by
        rw [← List.length_map Die.text, hraw']
        rfl
      have hdrop : first.raw.drop 4 = [] := by
        rw [List.drop_eq_nil_iff, ← List.length_map Die.text, hraw]
        decide
      have hcount : (Replay.redrawn first.raw [0] second.raw).length = 3 := by
        rw [← List.length_map Prod.snd, hredrawn]
        rfl
      have hcounted := (replay_redraws labelled hsecond).2.2.1 0
      rw [hlength, hdrop, hcount, hlast] at hcounted
      exact ⟨e, first, second, he, hfirst, hraw, hcounted, hraw', hredrawn⟩
    · cases hexplosion
  · have he : twentiesAndFate.NeverExplodes := ⟨rfl, rfl⟩
    obtain ⟨first, next, hfirst, htest⟩ := Expr.exists_of_succeeds hplain
    obtain ⟨rfl, hruns⟩ := of_decide_eq_true htest
    obtain ⟨second, last, hsecond, -⟩ := Expr.exists_of_succeeds hruns
    have hkept := (replay_redraws labelled hsecond).2.2.2 he _ _ _ _ first
      (Source.honest_highFirst false).labelled hfirst rfl
    exact ⟨first, second, last, hfirst, hsecond, hkept⟩

end DiceNotation
