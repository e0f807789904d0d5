import DiceNotation.Proofs.Console.Lineage
import Mathlib
/-!
# Lines that leave no trace

A line is idle if it makes no roll and throws no dice (`Command.Idle`): it is blank, it asks for
the line of rolls, it is no expression, its positions are bad, or there is nothing yet to throw
again. An idle line leaves a session as it was (`Session.obey_of_idle`), so the answers to the
other lines stay the same when idle lines are left out (`Session.idle_lines_leave_no_trace`).
-/

namespace DiceNotation.Console

/-! ## Idle commands -/

/-- The command makes no roll and throws no dice; `rolled` says that there was a roll before. -/
def Command.Idle (rolled : Prop) : Command → Prop
  | .blank | .history | .badPosition _ => True
  | .quit => False
  | .rethrow _ => ¬rolled
  | .throw expression => ∃ e, Expr.ofText expression = .error e

/-- A command that is idle after a roll is idle without it. -/
lemma Command.Idle.mono {rolled rolled' : Prop} {command : Command} (h : command.Idle rolled)
    (hrolled : rolled' → rolled) : command.Idle rolled' := by
  cases command with
  | rethrow positions => exact fun hr => h (hrolled hr)
  | _ => exact h

/-- The members of a list that are marked. -/
def keep {α : Type} (marks : List Bool) (xs : List α) : List α :=
  ((xs.zip marks).filter Prod.snd).map Prod.fst

namespace Session

variable {σ : Type} {setting : Setting σ} {s next : Session σ} {command : Command}
  {output : List Output} {line : String}

/-- A line that is read is answered before the others. -/
lemma replies_of_some (h : s.obey setting (.ofLine line) = some (output, next))
    (rest : List String) :
    s.replies setting (line :: rest) =
      (output :: (next.replies setting rest).1, (next.replies setting rest).2) := by
  rw [replies, h]

/-- No line is read after the end of a session. -/
lemma replies_of_none (h : s.obey setting (.ofLine line) = none) (rest : List String) :
    s.replies setting (line :: rest) = ([], true) := by
  rw [replies, h]

/-- An idle command leaves a session as it was. -/
lemma obey_of_idle (setting : Setting σ) (h : command.Idle (s.last ≠ none)) :
    ∃ output, s.obey setting command = some (output, s) := by
  cases command with
  | blank => exact ⟨_, rfl⟩
  | quit => exact h.elim
  | history =>
    rw [obey]
    cases s.last <;> exact ⟨_, rfl⟩
  | badPosition word => exact ⟨_, rfl⟩
  | rethrow positions =>
    have hlast : s.last = none := not_not.1 h
    rw [obey, hlast]
    exact ⟨_, rfl⟩
  | throw expression =>
    obtain ⟨e, he⟩ := h
    rw [obey, Roll.throw, he]
    exact ⟨_, rfl⟩

/-- There is no last roll until a first roll was made. -/
lemma last_of_obey (h : s.obey setting command = some (output, next)) (hlast : s.last = none)
    (hthrown : Exchange.thrown? (command, output) = none) : next.last = none := by
  cases command with
  | blank =>
    cases h
    exact hlast
  | quit => cases h
  | history =>
    rw [obey, hlast] at h
    cases h
    exact hlast
  | badPosition word =>
    cases h
    exact hlast
  | rethrow positions =>
    rw [obey, hlast] at h
    cases h
    exact hlast
  | throw expression =>
    rw [obey] at h
    split at h
    · cases h
      exact hlast
    · cases h
      cases hthrown

/-- There is a last roll, or lines make a first one. -/
def Rolled (setting : Setting σ) (s : Session σ) (lines : List String) : Prop :=
  s.last ≠ none ∨ ∃ e ∈ exchanges lines (s.replies setting lines).1, e.thrown? ≠ none

/-- What is rolled after the first of some lines is rolled in all of them. -/
lemma Rolled.cons (h : s.obey setting (.ofLine line) = some (output, next)) {rest : List String}
    (hrolled : next.Rolled setting rest) : s.Rolled setting (line :: rest) := by
  have hexchanges : exchanges (line :: rest) (s.replies setting (line :: rest)).1 =
      (.ofLine line, output) :: exchanges rest (next.replies setting rest).1 := by
    rw [replies_of_some h]
    rfl
  rw [Rolled, hexchanges]
  rcases hrolled with hlast | ⟨e, he, hthrown⟩
  · by_contra hnot
    obtain ⟨hbefore, hnone⟩ := not_or.1 hnot
    refine hlast (last_of_obey h (not_not.1 hbefore) ?_)
    by_contra hthrown
    exact hnone ⟨_, List.mem_cons_self, hthrown⟩
  · exact .inr ⟨e, List.mem_cons_of_mem _ he, hthrown⟩

/-- The answers to lines stay the same when idle lines are left out. -/
lemma replies_of_idle {marked : List (String × Bool)}
    (hidle : ∀ before line after, marked = before ++ (line, false) :: after →
      (Command.ofLine line).Idle (s.Rolled setting (before.map Prod.fst))) :
    s.replies setting ((marked.filter Prod.snd).map Prod.fst) =
      (keep (marked.map Prod.snd) (s.replies setting (marked.map Prod.fst)).1,
        (s.replies setting (marked.map Prod.fst)).2) := by
  induction marked generalizing s with
  | nil => rfl
  | cons first rest ih =>
    obtain ⟨line, kept⟩ := first
    have hrest : ∀ {output next}, s.obey setting (.ofLine line) = some (output, next) →
        ∀ before line' after, rest = before ++ (line', false) :: after →
          (Command.ofLine line').Idle (next.Rolled setting (before.map Prod.fst)) := by
      rintro output next hobey before line' after rfl
      exact (hidle ((line, kept) :: before) line' after rfl).mono (Rolled.cons hobey)
    have hlines : ((line, kept) :: rest).map Prod.fst = line :: rest.map Prod.fst := rfl
    rw [hlines]
    cases kept with
    | false =>
      have hfirst : (Command.ofLine line).Idle (s.last ≠ none) :=
        (hidle [] line rest rfl).mono .inl
      obtain ⟨output, hobey⟩ := obey_of_idle setting hfirst
      rw [replies_of_some hobey]
      exact ih (hrest hobey)
    | true =>
      rw [List.filter_cons_of_pos rfl, List.map_cons]
      cases hobey : s.obey setting (.ofLine line) with
      | none =>
        rw [replies_of_none hobey, replies_of_none hobey]
        rfl
      | some answered =>
        obtain ⟨output, next⟩ := answered
        rw [replies_of_some hobey, replies_of_some hobey, ih (hrest hobey)]
        rfl

/-- Idle lines leave no trace. When some of the idle lines are left out, each of the other lines is
answered as before, and the session ends as before. This is also so if other identities and times
are given in the shorter session, provided that neither session gives an identity twice. -/
theorem idle_lines_leave_no_trace {state : σ} {marked : List (String × Bool)}
    (hidle : ∀ before line after, marked = before ++ (line, false) :: after →
      (Command.ofLine line).Idle (∃ e ∈ exchanges (before.map Prod.fst)
        ((start state).replies setting (before.map Prod.fst)).1, e.thrown? ≠ none)) :
    (start state).replies setting ((marked.filter Prod.snd).map Prod.fst) =
        (keep (marked.map Prod.snd) ((start state).replies setting (marked.map Prod.fst)).1,
          ((start state).replies setting (marked.map Prod.fst)).2) ∧
      ∀ identities clock, Set.InjOn setting.identities (Set.Iio marked.length) →
        Set.InjOn identities (Set.Iio marked.length) →
          (start state).replies ⟨setting.source, setting.limit, identities, clock⟩
              ((marked.filter Prod.snd).map Prod.fst) =
            (keep (marked.map Prod.snd) ((start state).replies setting (marked.map Prod.fst)).1,
              ((start state).replies setting (marked.map Prod.fst)).2) := by
  have hkept : (start state).replies setting ((marked.filter Prod.snd).map Prod.fst) =
      (keep (marked.map Prod.snd) ((start state).replies setting (marked.map Prod.fst)).1,
        ((start state).replies setting (marked.map Prod.fst)).2) := by
    refine replies_of_idle fun before line after hsplit => (hidle before line after hsplit).mono ?_
    rintro (hlast | hrolled)
    · exact absurd rfl hlast
    · exact hrolled
  refine ⟨hkept, fun identities clock hids hids' => ?_⟩
  have hfewer : Set.Iio ((marked.filter Prod.snd).map Prod.fst).length ⊆ Set.Iio marked.length := by
    rw [List.length_map]
    exact Set.Iio_subset_Iio (List.length_filter_le _ _)
  rw [← hkept, replies_eq_course (hids.mono hfewer), replies_eq_course (hids'.mono hfewer)]

/-- Lines of which some are idle, each with a mark if it is to stay. -/
def linesWithIdle : List (String × Bool) :=
  [(":reroll", false), ("2d2", true), ("oops", false), (":reroll 1", true)]

/-- Without a throw before the first roll and without a text that is no expression, the roll and the
throw after it are answered as they were, also with other identities. -/
theorem idle_lines_leave_no_trace_of_early_throw :
    ∃ early roll refused again,
      (start true).replies numberedSetting [":reroll", "2d2", "oops", ":reroll 1"] =
        ([early, roll, refused, again], false) ∧
      (start true).replies numberedSetting ["2d2", ":reroll 1"] = ([roll, again], false) ∧
      (start true).replies ⟨Source.highFirst, none, numbered 7, fun _ => .epoch⟩
        ["2d2", ":reroll 1"] = ([roll, again], false) := by
  have hshape :
      ((start true).replies numberedSetting (linesWithIdle.map Prod.fst)).1.map (fun _ => ()) =
        [(), (), (), ()] ∧
      ((start true).replies numberedSetting (linesWithIdle.map Prod.fst)).2 = false := by
    decide +kernel
  have hearly : Command.ofLine ":reroll" = .rethrow [] := by decide +kernel
  have hrefused : Command.ofLine "oops" = .throw "oops" := by decide +kernel
  have hread : Expr.ofText "oops" =
      .error ⟨.unrecognized [.mark .leftParen, .integer, .mark .d], 0, "o"⟩ := by
    decide +kernel
  have hidle : ∀ before line after, linesWithIdle = before ++ (line, false) :: after →
      (Command.ofLine line).Idle (∃ e ∈ exchanges (before.map Prod.fst)
        ((start true).replies numberedSetting (before.map Prod.fst)).1, e.thrown? ≠ none) := by
    intro before line after hsplit
    -- The idle lines are the first and the third one.
    rcases before with _ | ⟨_, _ | ⟨_, _ | ⟨_, _ | ⟨_, before⟩⟩⟩⟩
    · cases hsplit
      rw [hearly]
      rintro ⟨e, he, -⟩
      cases he
    · cases hsplit
    · cases hsplit
      rw [hrefused]
      exact ⟨_, hread⟩
    · cases hsplit
    · simp [linesWithIdle] at hsplit
  have hids : ∀ base, Set.InjOn (numbered base) (Set.Iio linesWithIdle.length) := fun base =>
    (injOn_numbered base).mono (Set.Iio_subset_Iio (by decide))
  obtain ⟨hkept, hothers⟩ := idle_lines_leave_no_trace hidle
  have hothers := hothers (numbered 7) (fun _ => .epoch) (hids 0) (hids 7)
  obtain ⟨hanswers, hended⟩ := hshape
  obtain ⟨early, _, hreplies, -, hanswers⟩ := List.map_eq_cons_iff.1 hanswers
  obtain ⟨roll, _, rfl, -, hanswers⟩ := List.map_eq_cons_iff.1 hanswers
  obtain ⟨refused, _, rfl, -, hanswers⟩ := List.map_eq_cons_iff.1 hanswers
  obtain ⟨again, _, rfl, -, hanswers⟩ := List.map_eq_cons_iff.1 hanswers
  obtain rfl := List.map_eq_nil_iff.1 hanswers
  rw [hreplies, hended] at hkept hothers
  exact ⟨early, roll, refused, again, Prod.ext hreplies hended, hkept, hothers⟩

end Session

end DiceNotation.Console
