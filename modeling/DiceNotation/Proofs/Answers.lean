import Mathlib.Tactic.Common
/-!
# Answers of computations that may fail

A computation in steps has an answer exactly where each of its steps has one (`bind_eq_ok`) and
fails as the first step that fails (`bind_eq_error`). One that goes along a list has answers where
it has one for every member, and they are theirs (`map_eq_of_mapM_eq_ok`); it fails as one of the
members does (`exists_of_mapM_eq_error`).
-/

namespace DiceNotation

variable {α β ε : Type}

/-- A step and what comes after it have an answer where the step has one with which the rest has
that answer. -/
lemma bind_eq_ok {x : Except ε α} {f : α → Except ε β} {b : β} :
    (x >>= f) = .ok b ↔ ∃ a, x = .ok a ∧ f a = .ok b := by
  cases x with
  | error e => simp [bind, Except.bind]
  | ok a => simp [bind, Except.bind]

/-- A step and what comes after it fail where the step fails, or where it has an answer with which
the rest fails. -/
lemma bind_eq_error {x : Except ε α} {f : α → Except ε β} {e : ε} :
    (x >>= f) = .error e ↔ x = .error e ∨ ∃ a, x = .ok a ∧ f a = .error e := by
  cases x with
  | error e' => simp [bind, Except.bind]
  | ok a => simp [bind, Except.bind]

/-- What goes along a list has answers where every member has one, and they are its answers. -/
lemma map_eq_of_mapM_eq_ok {f : α → Except ε β} {xs : List α} {ys : List β}
    (h : xs.mapM f = .ok ys) : xs.map f = ys.map .ok := by
  induction xs generalizing ys with
  | nil =>
    cases h
    rfl
  | cons x xs ih =>
    rw [List.mapM_cons] at h
    obtain ⟨y, hx, hrest⟩ := bind_eq_ok.1 h
    obtain ⟨rest, hxs, hys⟩ := bind_eq_ok.1 hrest
    cases hys
    rw [List.map_cons, List.map_cons, hx, ih hxs]

/-- Where all members of a list have an answer, the answers are in the list of answers. -/
lemma mem_of_mapM_eq_ok {f : α → Except ε β} {xs : List α} {ys : List β}
    (h : xs.mapM f = .ok ys) : ∀ x ∈ xs, ∃ y ∈ ys, f x = .ok y := by
  intro x hx
  have hanswer : f x ∈ ys.map .ok := map_eq_of_mapM_eq_ok h ▸ List.mem_map_of_mem hx
  obtain ⟨y, hy, hxy⟩ := List.mem_map.1 hanswer
  exact ⟨y, hy, hxy.symm⟩

/-- Every answer in the list of answers is that of some member. -/
lemma exists_of_mem_answers {f : α → Except ε β} {xs : List α} {ys : List β}
    (h : xs.mapM f = .ok ys) : ∀ y ∈ ys, ∃ x ∈ xs, f x = .ok y := by
  intro y hy
  have hanswer : Except.ok y ∈ xs.map f := map_eq_of_mapM_eq_ok h ▸ List.mem_map_of_mem hy
  exact List.mem_map.1 hanswer

/-- Where the image of an answer is known from the member, the images of all answers are. -/
lemma map_answers {γ : Type} {f : α → Except ε β} {g : β → γ} {k : α → γ} {xs : List α}
    {ys : List β} (h : xs.mapM f = .ok ys) (hf : ∀ x y, f x = .ok y → g y = k x) :
    ys.map g = xs.map k := by
  have himages : xs.map (fun x => (f x).map g) = xs.map fun x => .ok (k x) := by
    refine List.map_congr_left fun x hx => ?_
    obtain ⟨y, -, hxy⟩ := mem_of_mapM_eq_ok h x hx
    rw [hxy, ← hf x y hxy]
    rfl
  have hanswers := congrArg (List.map (Except.map g)) (map_eq_of_mapM_eq_ok h)
  rw [List.map_map, List.map_map] at hanswers
  refine (List.map_inj_right (f := (Except.ok : γ → Except ε γ)) fun _ _ => Except.ok.inj).1 ?_
  rw [List.map_map, List.map_map]
  exact hanswers.symm.trans himages

/-- What goes along a list fails as some member of the list does. -/
lemma exists_of_mapM_eq_error {f : α → Except ε β} {xs : List α} {e : ε}
    (h : xs.mapM f = .error e) : ∃ x ∈ xs, f x = .error e := by
  induction xs with
  | nil => cases h
  | cons x xs ih =>
    rw [List.mapM_cons] at h
    rcases bind_eq_error.1 h with hx | ⟨y, -, hrest⟩
    · exact ⟨x, List.mem_cons_self, hx⟩
    · rcases bind_eq_error.1 hrest with hxs | ⟨ys, -, hys⟩
      · obtain ⟨z, hz, hf⟩ := ih hxs
        exact ⟨z, List.mem_cons_of_mem x hz, hf⟩
      · cases hys

end DiceNotation
