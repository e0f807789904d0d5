import DiceNotation.Proofs.Console.Course
import DiceNotation.Proofs.Source.Rule
import Mathlib
/-!
# The line that a session shows

What `:history` shows is the line of the last roll: the expression that was last rolled and the
rolls that were made from it since, each in the words in which it was answered
(`Session.history_shows_line`). So it can be told from the exchanges before it alone
(`Exchange.follow`), and whatever failed in between is of no account.
-/

namespace DiceNotation.Console

/-! ## Exchanges -/

/-- A command and its answer. -/
abbrev Exchange := Command × List Output

/-- The commands of lines with their answers, as far as the lines were read. -/
def exchanges (lines : List String) (replies : List (List Output)) : List Exchange :=
  (lines.map Command.ofLine).zip replies

namespace Exchange

/-- The text of the first roll that was made. An expression that comes to no roll is answered with a
complaint. -/
def thrown? : Exchange → Option String
  | (.throw _, [.answer text]) => some text
  | _ => none

/-- The text of the roll that was made from the last one. Failures are answered with a complaint,
and in other words where there is no last roll. -/
def rethrown? : Exchange → Option String
  | (.rethrow _, [.answer text]) => if text = "nothing to reroll" then none else some text
  | _ => none

/-- The texts of the line of the last roll after an exchange, the first roll first. -/
def follow (shown : List String) (e : Exchange) : List String :=
  match e.thrown? with
  | some text => [text]
  | none => if shown = [] then [] else shown ++ e.rethrown?.toList

/-- Where no roll is made the line stays as it is. -/
lemma follow_of_none {e : Exchange} (hthrown : e.thrown? = none) (hrethrown : e.rethrown? = none)
    (shown : List String) : follow shown e = shown := by
  simp only [follow, hthrown, hrethrown, Option.toList_none, List.append_nil]
  split
  · rename_i hnil
    exact hnil.symm
  · rfl

/-- Without a first roll there is no line. -/
lemma foldl_follow_nil {es : List Exchange} (h : ∀ e ∈ es, e.thrown? = none) :
    es.foldl follow [] = [] := by
  induction es with
  | nil => rfl
  | cons e es ih =>
    obtain ⟨he, hes⟩ := List.forall_mem_cons.1 h
    rw [List.foldl_cons, follow, he]
    exact ih hes

/-- Until another first roll is made the line grows by the rolls made from the last one. -/
lemma foldl_follow {es : List Exchange} (h : ∀ e ∈ es, e.thrown? = none) {shown : List String}
    (hshown : shown ≠ []) : es.foldl follow shown = shown ++ es.filterMap rethrown? := by
  induction es generalizing shown with
  | nil => exact (List.append_nil shown).symm
  | cons e es ih =>
    obtain ⟨he, hes⟩ := List.forall_mem_cons.1 h
    have hstep : follow shown e = shown ++ e.rethrown?.toList := by
      simp only [follow, he, if_neg hshown]
    rw [List.foldl_cons, hstep, ih hes (List.append_ne_nil_of_left_ne_nil hshown _),
      List.append_assoc]
    cases hrethrown : e.rethrown? <;> simp [hrethrown]

end Exchange

/-! ## The line of a course -/

/-- A roll is shown in other words than those that say that there is none. -/
lemma Display.text_ne (d : Display) : d.text ≠ "nothing to reroll" := by
  intro h
  have hmem : '=' ∈ d.text.toList := by simp [Display.text]
  rw [h] at hmem
  exact absurd hmem (by decide)

namespace Course

variable {σ : Type} {source : Source σ} {limit : Option Nat} {c next : Course σ}

/-- The texts of the rolls of the line, the first roll first. -/
def texts (c : Course σ) : List String := (c.line.map Display.text).reverse

/-- Before any roll there is no line to show. -/
lemma showLine_of_texts_nil (h : c.texts = []) : c.showLine = [.answer "no rolls yet"] := by
  have hline : c.line = [] := by simpa [texts] using h
  rw [showLine, hline]

/-- The line is shown with a mark at the last roll. -/
lemma showLine_of_texts {init : List String} {last : String} (h : c.texts = init ++ [last]) :
    c.showLine = init.map (fun text => .answer ("  " ++ text)) ++ [.answer ("* " ++ last)] := by
  cases hline : c.line with
  | nil =>
    rw [texts, hline] at h
    simp at h
  | cons d above =>
    rw [texts, hline, List.map_cons, List.reverse_cons] at h
    obtain ⟨rfl, hlast⟩ := List.append_inj' h rfl
    obtain rfl := List.singleton_inj.1 hlast
    rw [showLine, hline, ← List.map_reverse, List.map_map]
    rfl

/-- An expression is answered with a complaint, or its roll is shown and put below the line. -/
lemma record_cases (c : Course σ) (above : List Display) (expression : String)
    (result : Except Error Outcome × σ) :
    (∃ e, c.record above expression result =
        (Session.complain e, { c with state := result.2 })) ∨
      ∃ d : Display, c.record above expression result =
        ([.answer d.text], ⟨d :: above, result.2⟩) := by
  obtain ⟨answer, state⟩ := result
  cases answer with
  | error e => exact .inl ⟨e, rfl⟩
  | ok outcome => exact .inr ⟨⟨expression, outcome⟩, rfl⟩

/-- A command changes the line as its answer says. -/
lemma texts_of_obey {command : Command} {output : List Output}
    (h : c.obey source limit command = some (output, next)) :
    next.texts = Exchange.follow c.texts (command, output) := by
  cases command with
  | blank =>
    cases h
    exact (Exchange.follow_of_none rfl rfl _).symm
  | quit => cases h
  | history =>
    cases h
    exact (Exchange.follow_of_none rfl rfl _).symm
  | badPosition word =>
    cases h
    exact (Exchange.follow_of_none rfl rfl _).symm
  | throw expression =>
    rw [obey, Option.some_inj] at h
    rcases record_cases c [] expression _ with ⟨e, hrecord⟩ | ⟨d, hrecord⟩
    · rw [hrecord] at h
      cases h
      exact (Exchange.follow_of_none rfl rfl _).symm
    · rw [hrecord] at h
      cases h
      rfl
  | rethrow positions =>
    rw [obey] at h
    split at h
    · rename_i hline
      cases h
      rw [texts, hline]
      rfl
    · rename_i last above hline
      rw [Option.some_inj] at h
      rcases record_cases c c.line last.expression _ with ⟨e, hrecord⟩ | ⟨d, hrecord⟩
      · rw [hrecord] at h
        cases h
        exact (Exchange.follow_of_none rfl rfl _).symm
      · rw [hrecord] at h
        cases h
        have htexts : c.texts ≠ [] := by simp [texts, hline]
        simp only [Exchange.follow, Exchange.thrown?, Exchange.rethrown?, if_neg htexts,
          if_neg d.text_ne, Option.toList_some]
        rw [texts, List.map_cons, List.reverse_cons]
        rfl

/-- The exchanges of a course with its first line. -/
lemma exchanges_cons (c : Course σ) (line : String) (rest : List String) :
    exchanges (line :: rest) (c.replies source limit (line :: rest)).1 =
      match c.obey source limit (.ofLine line) with
      | none => []
      | some (output, next) =>
        (.ofLine line, output) :: exchanges rest (next.replies source limit rest).1 := by
  rw [replies]
  cases c.obey source limit (.ofLine line) <;> rfl

/-- After some exchanges the line is the one of which they tell, and the other exchanges go on from
there. -/
lemma exists_of_exchanges {lines : List String} {earlier later : List Exchange}
    (h : exchanges lines (c.replies source limit lines).1 = earlier ++ later) :
    ∃ (c' : Course σ) (rest : List String),
      exchanges rest (c'.replies source limit rest).1 = later ∧
        c'.texts = earlier.foldl Exchange.follow c.texts := by
  induction earlier generalizing c lines with
  | nil => exact ⟨c, lines, h, rfl⟩
  | cons e earlier ih =>
    cases lines with
    | nil => cases h
    | cons line rest =>
      rw [exchanges_cons] at h
      cases hobey : c.obey source limit (.ofLine line) with
      | none =>
        rw [hobey] at h
        cases h
      | some answered =>
        obtain ⟨output, next⟩ := answered
        simp only [hobey, List.cons_append, List.cons.injEq] at h
        obtain ⟨rfl, hrest⟩ := h
        obtain ⟨c', rest', hlater, htexts⟩ := ih hrest
        refine ⟨c', rest', hlater, ?_⟩
        rw [htexts, texts_of_obey hobey, List.foldl_cons]

/-- What is shown after some exchanges is the line of which they tell. -/
lemma showLine_of_exchanges {lines : List String} {earlier later : List Exchange}
    {output : List Output}
    (h : exchanges lines (c.replies source limit lines).1 =
      earlier ++ (.history, output) :: later) :
    ∃ c' : Course σ, output = c'.showLine ∧
      c'.texts = earlier.foldl Exchange.follow c.texts := by
  obtain ⟨c', rest, hlater, htexts⟩ := exists_of_exchanges h
  cases rest with
  | nil => cases hlater
  | cons line rest =>
    rw [exchanges_cons] at hlater
    split at hlater
    · cases hlater
    · rename_i output' next hobey
      obtain ⟨hexchange, -⟩ := List.cons.inj hlater
      obtain ⟨hcommand, rfl⟩ := Prod.mk.inj hexchange
      rw [hcommand] at hobey
      cases hobey
      exact ⟨c', rfl, htexts⟩

end Course

/-- `:history` shows the line of the last roll. With the text in which the last first roll was
answered and the texts in which the rolls made from it since were, it is answered by these texts in
this order, with a mark at the last one; where no first roll was made yet, it is said so. Failures
make no difference. The identities that are given during the session are all different. -/
theorem Session.history_shows_line {σ : Type} {setting : Setting σ} {state : σ}
    {lines : List String} {earlier later : List Exchange} {output : List Output}
    (hids : Set.InjOn setting.identities (Set.Iio lines.length))
    (h : exchanges lines ((start state).replies setting lines).1 =
      earlier ++ (.history, output) :: later) :
    (∀ before b after text, earlier = before ++ b :: after → b.thrown? = some text →
      (∀ e ∈ after, e.thrown? = none) →
        ∃ init last, text :: after.filterMap Exchange.rethrown? = init ++ [last] ∧
          output = init.map (fun text => .answer ("  " ++ text)) ++ [.answer ("* " ++ last)]) ∧
    ((∀ e ∈ earlier, e.thrown? = none) → output = [.answer "no rolls yet"]) := by
  rw [replies_eq_course hids] at h
  obtain ⟨c, rfl, htexts⟩ := Course.showLine_of_exchanges h
  constructor
  · rintro before b after text rfl hb hafter
    have hline : c.texts = text :: after.filterMap Exchange.rethrown? := by
      have hstart : Exchange.follow (before.foldl Exchange.follow (Course.start state).texts) b =
          [text] := by
        simp only [Exchange.follow, hb]
      rw [htexts, List.foldl_append, List.foldl_cons, hstart,
        Exchange.foldl_follow hafter (List.cons_ne_nil _ _), List.singleton_append]
    obtain ⟨init, last, hsplit⟩ := (List.eq_nil_or_concat'
      (text :: after.filterMap Exchange.rethrown?)).resolve_left (List.cons_ne_nil _ _)
    refine ⟨init, last, hsplit, Course.showLine_of_texts ?_⟩
    rw [hline, hsplit]
  · intro hnone
    refine Course.showLine_of_texts_nil ?_
    rw [htexts]
    exact Exchange.foldl_follow_nil hnone

/-- A session with numbered identities and dice of which the first one shows its highest face. -/
def numberedSetting : Setting Bool := ⟨Source.highFirst, none, numbered 0, fun _ => .epoch⟩

/-- Lines with a roll, another one that is made from it, and failures in between. -/
def linesWithFailures : List String := ["2d2", "oops", ":reroll 0", ":reroll x", ":history"]

/-- Neither an expression that fails nor bad positions come between a roll and the roll that is made
from it. -/
theorem Session.history_shows_line_of_failures :
    ∃ refused : List Output,
      exchanges linesWithFailures ((start true).replies numberedSetting linesWithFailures).1 =
        [(.throw "2d2", [.answer "2d2 = 3 [2, 1] (min 2, max 4, avg 3)"]),
          (.throw "oops", refused),
          (.rethrow [0], [.answer "2d2 = 2 [1, 1] (min 2, max 4, avg 3)"]),
          (.badPosition "x", [.complaint "bad position: x"]),
          (.history, [.answer "  2d2 = 3 [2, 1] (min 2, max 4, avg 3)",
            .answer "* 2d2 = 2 [1, 1] (min 2, max 4, avg 3)"])] := by
  let session := exchanges linesWithFailures
    ((start true).replies numberedSetting linesWithFailures).1
  let failures : List Exchange :=
    [(.throw "oops", complain (.parse ⟨.unrecognized [.mark .leftParen, .integer, .mark .d], 0,
      "o"⟩)),
      (.rethrow [0], [.answer "2d2 = 2 [1, 1] (min 2, max 4, avg 3)"]),
      (.badPosition "x", [.complaint "bad position: x"])]
  have hids : Set.InjOn numberedSetting.identities (Set.Iio linesWithFailures.length) :=
    (injOn_numbered 0).mono (Set.Iio_subset_Iio (by decide))
  have hearlier : session.dropLast =
      (.throw "2d2", [.answer "2d2 = 3 [2, 1] (min 2, max 4, avg 3)"]) :: failures := by
    decide +kernel
  have hlast : session.getLast?.map Prod.fst = some .history := by
    decide +kernel
  obtain ⟨⟨command, output⟩, houtput, hcommand⟩ := Option.map_eq_some_iff.1 hlast
  obtain rfl : command = .history := hcommand
  have hsession : session = session.dropLast ++ (.history, output) :: [] :=
    (List.dropLast_append_getLast? _ houtput).symm
  rw [hearlier] at hsession
  obtain ⟨hline, -⟩ := history_shows_line hids hsession
  obtain ⟨init, last, htexts, houtput⟩ := hline [] _ failures _ rfl rfl (by decide +kernel)
  have htwo : ["2d2 = 3 [2, 1] (min 2, max 4, avg 3)"] ++
      ["2d2 = 2 [1, 1] (min 2, max 4, avg 3)"] = init ++ [last] := by
    rw [← htexts]
    decide +kernel
  obtain ⟨rfl, hend⟩ := List.append_inj' htwo rfl
  obtain rfl := List.singleton_inj.1 hend
  rw [houtput] at hsession
  exact ⟨_, hsession⟩

end DiceNotation.Console
