import DiceNotation.Console.Transcript
import DiceNotation.Proofs.History.Lineage
import Mathlib
/-!
# Sessions without identities

A session keeps its rolls in a history, by identities, and finds the line of the last roll through
links. A `Course` keeps nothing but this line, and of each roll what is shown of it. As long as no
identity is given twice, a session answers what its course answers (`Session.replies_eq_course`): so
neither identities nor times matter, nor any roll outside the line.

The two are compared line by line. A session tracks a line of rolls (`Session.Tracks`) if this is
the line of parents of the last roll in the chronicle of its history, and it follows a course that
has the displays of this line (`Session.Follows`). A command keeps it so, and is answered alike:
a throw begins a new line (`Session.Tracks.obey_throw`), a throw of the last roll continues the line
(`Session.Tracks.obey_rethrow`), and nothing else changes it (`Session.Follows.obey`).
-/

namespace DiceNotation.Console

/-! ## Courses -/

/-- What is shown of a roll. -/
structure Display where
  /-- The text of the expression. -/
  expression : String
  /-- What came of it. -/
  outcome : Outcome

/-- The text that shows a roll. -/
def Display.text (d : Display) : String := d.expression ++ " = " ++ d.outcome.text

/-- What is shown of the roll. -/
def Display.ofRoll (r : Roll) : Display := ⟨r.expression, r.outcome⟩

/-- Where a session stands, without histories and identities. -/
structure Course (σ : Type) where
  /-- The rolls that lead up to the last roll, the last one first. -/
  line : List Display
  /-- The state of the source of dice. -/
  state : σ

namespace Course

variable {σ : Type}

/-- A course before its first line. -/
def start (state : σ) : Course σ := ⟨[], state⟩

/-- The line of rolls, one below the other. -/
def showLine (c : Course σ) : List Output :=
  match c.line with
  | [] => [.answer "no rolls yet"]
  | last :: above =>
    above.reverse.map (fun d => .answer ("  " ++ d.text)) ++ [.answer ("* " ++ last.text)]

/-- Shows what an expression has come to and puts it below a line of rolls, or complains. -/
def record (c : Course σ) (above : List Display) (expression : String) :
    Except Error Outcome × σ → List Output × Course σ
  | (.error e, next) => (Session.complain e, { c with state := next })
  | (.ok outcome, next) =>
    ([.answer (Display.text ⟨expression, outcome⟩)], ⟨⟨expression, outcome⟩ :: above, next⟩)

/-- Answers a command, if it does not end the session. -/
def obey (source : Source σ) (limit : Option Nat) (c : Course σ) :
    Command → Option (List Output × Course σ)
  | .blank => some ([], c)
  | .quit => none
  | .history => some (c.showLine, c)
  | .badPosition word => some ([.complaint ("bad position: " ++ word)], c)
  | .rethrow positions =>
    match c.line with
    | [] => some ([.answer "nothing to reroll"], c)
    | last :: _ =>
      let result := Expr.evaluateText (Replay.source positions source) limit last.expression
        (.start last.outcome.raw c.state)
      some (c.record c.line last.expression (result.1, result.2.fallback))
  | .throw expression =>
    some (c.record [] expression (Expr.evaluateText source limit expression c.state))

/-- The last roll is thrown once more with its own text and dice. -/
lemma obey_rethrow (source : Source σ) (limit : Option Nat) (roll : Roll) (above : List Roll)
    (state : σ) (positions : List Nat) :
    (Course.mk ((roll :: above).map Display.ofRoll) state).obey source limit (.rethrow positions) =
      some (record ⟨(roll :: above).map Display.ofRoll, state⟩ ((roll :: above).map Display.ofRoll)
        roll.expression
        ((Expr.evaluateText (Replay.source positions source) limit roll.expression
            (.start roll.outcome.raw state)).1,
          (Expr.evaluateText (Replay.source positions source) limit roll.expression
            (.start roll.outcome.raw state)).2.fallback)) := rfl

/-- The answers to lines, one list for each line that was read, and whether the session was ended
by a line. -/
def replies (source : Source σ) (limit : Option Nat) (c : Course σ) :
    List String → List (List Output) × Bool
  | [] => ([], false)
  | line :: rest =>
    match c.obey source limit (.ofLine line) with
    | none => ([], true)
    | some (output, next) =>
      let (more, ended) := replies source limit next rest
      (output :: more, ended)

end Course

/-! ## The line of a session -/

namespace Session

variable {σ : Type} {identities : Nat → RollId} {s : Session σ} {made line above : List Roll}
  {roll : Roll}

/-- The session has made some rolls, the newest first, all of which are in its history, and `line`
is the line of parents of the last one, this first. -/
structure Tracks (identities : Nat → RollId) (s : Session σ) (made line : List Roll) : Prop where
  /-- The rolls are those of a chronicle and all of them were inserted. -/
  sound : Chronicle.Sound ⟨made, made.reverse, s.history⟩
  /-- Identities were given to the rolls in turn. -/
  numbered : ∀ r ∈ made, ∃ j < s.made, r.id = identities j
  /-- The line begins with the last roll. -/
  last : s.last = line.head?.map Roll.id
  /-- The line is a line of parents. -/
  descent : ∀ roll above, line = roll :: above → Roll.Descent made roll above

/-- A session tracks no rolls before its first line. -/
lemma tracks_start (identities : Nat → RollId) (state : σ) :
    (start state).Tracks identities [] [] := by
  refine ⟨Chronicle.sound_start, List.forall_mem_nil _, rfl, ?_⟩
  rintro roll above ⟨⟩

namespace Tracks

/-- A new identity is that of no roll. -/
lemma fresh (h : s.Tracks identities made line)
    (hnew : ∀ j < s.made, identities j ≠ identities s.made) :
    ∀ earlier ∈ made, earlier.id ≠ identities s.made := by
  intro earlier hearlier
  obtain ⟨j, hj, hid⟩ := h.numbered earlier hearlier
  rw [hid]
  exact hnew j hj

/-- A new roll with a line of parents is tracked when it has been inserted. -/
lemma add (h : s.Tracks identities made line)
    (hnew : ∀ j < s.made, identities j ≠ identities s.made) (making : Roll.Making made roll)
    (hid : roll.id = identities s.made) (hdescent : Roll.Descent (roll :: made) roll above)
    (state : σ) :
    Tracks identities ⟨s.history.insert roll, some roll.id, s.made + 1, state⟩ (roll :: made)
      (roll :: above) := by
  have hfresh : ∀ earlier ∈ made, earlier.id ≠ roll.id := by
    rw [hid]
    exact h.fresh hnew
  refine ⟨?_, ?_, rfl, ?_⟩
  · rw [List.reverse_cons]
    exact (h.sound.step (.make making hfresh)).step (.insert List.mem_cons_self)
  · intro r hr
    rcases List.mem_cons.1 hr with rfl | hr
    · exact ⟨s.made, Nat.lt_succ_self _, hid⟩
    · obtain ⟨j, hj, hid⟩ := h.numbered r hr
      exact ⟨j, Nat.lt_succ_of_lt hj, hid⟩
  · rintro _ _ ⟨⟩
    exact hdescent

/-- The last roll is in the history. -/
lemma get?_eq (h : s.Tracks identities made (roll :: above)) :
    s.history.get? roll.id = some roll := by
  have hmade := (h.descent _ _ rfl).mem
  exact h.sound.get?_eq_some_iff.2 ⟨List.mem_reverse.2 hmade, rfl⟩

/-- The ancestors of the last roll are the rest of the line. -/
lemma ancestors_eq (h : s.Tracks identities made (roll :: above)) :
    s.history.ancestors roll.id = above := by
  have hline := h.descent _ _ rfl
  have hkept : ∀ r ∈ above, r ∈ made.reverse := by
    intro r hr
    exact List.mem_reverse.2 (hline.sublist.subset (List.mem_cons_of_mem _ hr))
  obtain ⟨rolls, hclimbs, hrolls⟩ := h.sound.exists_climbs hline
  have hwhole : above <+: rolls := (hrolls above).2 ⟨List.prefix_refl above, hkept⟩
  obtain ⟨hinitial, -⟩ := (hrolls rolls).1 (List.prefix_refl rolls)
  obtain rfl := hwhole.eq_of_length_le hinitial.length_le
  exact h.sound.ancestors_eq h.get?_eq hline hclimbs hinitial hkept

/-- The line of the last roll is shown as that of a course. -/
lemma showLine_eq (h : s.Tracks identities made (roll :: above)) (state : σ) :
    showLine s.history roll.id =
      Course.showLine ⟨(roll :: above).map Display.ofRoll, state⟩ := by
  rw [showLine, h.ancestors_eq, h.get?_eq, Course.showLine, List.map_cons]
  simp only [← List.map_reverse, List.map_map]
  rfl

end Tracks

/-- The session follows a course: it tracks a line of rolls, and the course has what is shown of
them. -/
def Follows (identities : Nat → RollId) (s : Session σ) (c : Course σ) : Prop :=
  ∃ made line, s.Tracks identities made line ∧ c = ⟨line.map Display.ofRoll, s.state⟩

/-- The answers to a command agree: the same is said, and the session follows the course after it,
with at most one roll more than `n`. -/
def Agree (identities : Nat → RollId) (n : Nat) (a : List Output × Session σ)
    (b : List Output × Course σ) : Prop :=
  a.1 = b.1 ∧ a.2.Follows identities b.2 ∧ a.2.made ≤ n + 1

section Commands

variable {setting : Setting σ}
  (hnew : ∀ j < s.made, setting.identities j ≠ setting.identities s.made)

/-- Where no roll is made, what the session tracks is followed whatever the dice. -/
lemma Tracks.follows (h : s.Tracks identities made line) (state : σ) :
    Follows identities ⟨s.history, s.last, s.made, state⟩ ⟨line.map Display.ofRoll, state⟩ :=
  ⟨made, line, ⟨h.sound, h.numbered, h.last, h.descent⟩, rfl⟩

include hnew

/-- A throw begins a new line, unless it fails. -/
lemma Tracks.obey_throw (h : s.Tracks setting.identities made line) (expression : String) :
    Option.Rel (Agree setting.identities s.made) (s.obey setting (.throw expression))
      (Course.obey setting.source setting.limit ⟨line.map Display.ofRoll, s.state⟩
        (.throw expression)) := by
  rw [Session.obey, Course.obey, Roll.throw_eq]
  cases Expr.evaluateText setting.source setting.limit expression s.state with
  | mk answer next =>
    cases answer with
    | error e => exact .some ⟨rfl, h.follows next, Nat.le_succ _⟩
    | ok outcome =>
      have hadd := h.add hnew
        (.create (setting.identities s.made) expression outcome (setting.clock s.made) none) rfl
        (.of_first List.mem_cons_self rfl) next
      exact .some ⟨rfl, ⟨_, _, hadd, rfl⟩, Nat.le_refl _⟩

/-- A throw of the last roll continues its line, unless it fails. -/
lemma Tracks.obey_rethrow (h : s.Tracks setting.identities made (roll :: above))
    (positions : List Nat) :
    Option.Rel (Agree setting.identities s.made) (s.obey setting (.rethrow positions))
      (Course.obey setting.source setting.limit ⟨(roll :: above).map Display.ofRoll, s.state⟩
        (.rethrow positions)) := by
  have hline := h.descent _ _ rfl
  have hlast : s.last = some roll.id := h.last
  rw [Session.obey, hlast]
  simp only [History.rethrow, History.get_of_some h.get?_eq, Roll.rethrow_eq]
  rw [Course.obey_rethrow]
  cases Expr.evaluateText (Replay.source positions setting.source) setting.limit roll.expression
    (.start roll.outcome.raw s.state) with
  | mk answer replay =>
    cases answer with
    | error e =>
      have hfollows := h.follows replay.fallback
      rw [hlast] at hfollows
      exact .some ⟨rfl, hfollows, Nat.le_succ _⟩
    | ok outcome =>
      have hadd := h.add hnew
        (.derive hline.mem (setting.identities s.made) outcome (setting.clock s.made)) rfl
        (hline.continued (Roll.continues_derive roll _ outcome _)) replay.fallback
      exact .some ⟨rfl, ⟨_, _, hadd, rfl⟩, Nat.le_refl _⟩

/-- A session that follows a course answers a command as the course does, and follows it still. -/
lemma Follows.obey {c : Course σ} (h : s.Follows setting.identities c) (command : Command) :
    Option.Rel (Agree setting.identities s.made) (s.obey setting command)
      (c.obey setting.source setting.limit command) := by
  obtain ⟨made, line, htracks, rfl⟩ := h
  have hstays := htracks.follows s.state
  cases command with
  | blank => exact .some ⟨rfl, hstays, Nat.le_succ _⟩
  | quit => exact .none
  | badPosition word => exact .some ⟨rfl, hstays, Nat.le_succ _⟩
  | history =>
    rw [Session.obey, htracks.last]
    cases line with
    | nil => exact .some ⟨rfl, hstays, Nat.le_succ _⟩
    | cons roll above => exact .some ⟨htracks.showLine_eq s.state, hstays, Nat.le_succ _⟩
  | throw expression => exact htracks.obey_throw hnew expression
  | rethrow positions =>
    cases line with
    | nil =>
      rw [Session.obey, htracks.last]
      exact .some ⟨rfl, hstays, Nat.le_succ _⟩
    | cons roll above => exact htracks.obey_rethrow hnew positions

end Commands

/-- A session that follows a course answers all lines as the course does, if no identity is given
twice on the way. -/
lemma Follows.replies {setting : Setting σ} {s : Session σ} {c : Course σ} {n : Nat}
    (hids : Set.InjOn setting.identities (Set.Iio n)) (h : s.Follows setting.identities c)
    {lines : List String} (hn : s.made + lines.length ≤ n) :
    s.replies setting lines = c.replies setting.source setting.limit lines := by
  induction lines generalizing s c with
  | nil => rfl
  | cons line rest ih =>
    rw [List.length_cons] at hn
    have hnew : ∀ j < s.made, setting.identities j ≠ setting.identities s.made := by
      intro j hj hid
      have hj' : j ∈ Set.Iio n := Set.mem_Iio.2 (by omega)
      have hmade : s.made ∈ Set.Iio n := Set.mem_Iio.2 (by omega)
      exact Nat.ne_of_lt hj (hids hj' hmade hid)
    have hobey := h.obey hnew (.ofLine line)
    rw [Session.replies, Course.replies]
    generalize s.obey setting (.ofLine line) = a at hobey ⊢
    generalize c.obey setting.source setting.limit (.ofLine line) = b at hobey ⊢
    cases hobey with
    | none => rfl
    | @some a b hboth =>
      obtain ⟨output, next⟩ := a
      obtain ⟨output', c'⟩ := b
      obtain ⟨rfl, hfollows, hmade⟩ := hboth
      dsimp only at hfollows hmade ⊢
      rw [ih hfollows (by omega)]

/-- Numbered identities are all different, as far as there are identities. -/
lemma injOn_numbered (base : BitVec 128) : Set.InjOn (numbered base) (Set.Iio (2 ^ 128)) := by
  intro i hi j hj h
  have hbits : base + BitVec.ofNat 128 i = base + BitVec.ofNat 128 j := congrArg RollId.bits h
  have hnat := congrArg BitVec.toNat ((BitVec.add_right_inj base).1 hbits)
  rwa [BitVec.toNat_ofNat, BitVec.toNat_ofNat, Nat.mod_eq_of_lt hi, Nat.mod_eq_of_lt hj] at hnat

/-- A session answers what its course answers, if no identity is given twice. -/
theorem replies_eq_course {setting : Setting σ} {lines : List String}
    (hids : Set.InjOn setting.identities (Set.Iio lines.length)) (state : σ) :
    (start state).replies setting lines =
      (Course.start state).replies setting.source setting.limit lines := by
  have hfollows : (start state).Follows setting.identities (Course.start state) :=
    ⟨[], [], tracks_start setting.identities state, rfl⟩
  exact hfollows.replies hids (Nat.le_of_eq (Nat.zero_add _))

end Session

end DiceNotation.Console
