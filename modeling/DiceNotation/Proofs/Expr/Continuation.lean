import DiceNotation.Proofs.Expr.Expected
import Mathlib.Tactic.Common
/-!
# What is expected can come next

Every sort of token that an error names could stand at its place: with it, the sorts of the tokens
before begin an expression (`Expr.expected_opens`). The integers of that expression need not be
those of the text. So a `d` is expected after `0`, although zero counts no dice.

What is expected goes on with the outline of what has been read (`Reading.exists_outline_step`), and
every run of an outline is that of a reading in which all integers are one
(`Reading.exists_runs_sample`). Hence sorts of token begin an expression just where the outline gets
through them (`Grammar.opens_iff`).
-/

namespace DiceNotation

open Token (Kind)

/-! ## Sorts that begin an expression -/

/-- A token of a sort. Every integer is one, which is in range wherever an integer may stand. -/
def Token.Kind.sample : Kind → Token
  | .integer => .integer 1
  | .mark m => .mark m
  | .unknown => .unknown

lemma Token.Kind.kind_sample (k : Kind) : k.sample.kind = k := by
  cases k <;> rfl

/-- Some expression begins with tokens of these sorts. -/
def Grammar.Opens (ks : List Kind) : Prop :=
  ∃ us e, ks <+: us.map Token.kind ∧ Grammar.Derives .expression us e

namespace Reading

open Grammar

/-- A token that is refused as such is not refused for the value of an integer. -/
lemma isSyntax_refuse (r : Reading) (t : Token) : (r.refuse t).IsSyntax := by
  cases t <;> trivial

/-- A token of a sort with which the outline goes on is not refused as such, unless it is a `d`
after too large a count. -/
lemma exceedsCount_of_isSyntax {r : Reading} {t : Token} {o : Outline} {fault : Fault}
    (h : r.outline.step t.kind = some o) (hstep : r.step t = .error fault) (hf : fault.IsSyntax) :
    r.ExceedsCount t := by
  rcases step_of_outline h with ⟨next, hnext⟩ | hlarge | hzero | hexceeds
  · rw [step_eq_ok.2 hnext] at hstep
    cases hstep
  · rw [hlarge] at hstep
    cases hstep
    cases hf
  · rw [hzero] at hstep
    cases hstep
    cases hf
  · exact hexceeds

/-- If an integer was read last that may be a count, it is one. -/
def CountsOne (r : Reading) : Prop := ∀ n fits, r.phase = .integer n fits → n = 1

lemma countsOne_start : start.CountsOne := by
  rintro n fits ⟨⟩

/-- Where all integers are one, a reading goes on as its outline does. -/
lemma exists_step_sample {r : Reading} (hr : r.CountsOne) {k : Kind} {o : Outline}
    (h : r.outline.step k = some o) :
    ∃ next, Step r k.sample next ∧ next.outline = o ∧ next.CountsOne := by
  have hone : ∀ n, k.sample = .integer n → n = 1 := by
    intro n hn
    cases k <;> cases hn
    rfl
  rw [← k.kind_sample] at h
  cases hstep : r.step k.sample with
  | ok next =>
    have hnext := step_eq_ok.1 hstep
    refine ⟨next, hnext, Option.some.inj (hnext.outline.symm.trans h), ?_⟩
    intro n fits hphase
    exact hone n (hnext.phase_eq_integer_iff.1 ⟨fits, hphase⟩).1
  | error fault =>
    rcases fault_of_step hstep with rfl | ⟨-, n, hn, hlarge⟩ | ⟨-, hn | ⟨fits, hphase⟩⟩
    · obtain ⟨-, n, fits, hphase, hlarge⟩ :=
        exceedsCount_of_isSyntax h hstep (r.isSyntax_refuse k.sample)
      rw [hr n fits hphase] at hlarge
      exact absurd hlarge (by decide)
    · rw [hone n hn] at hlarge
      exact absurd hlarge (by decide)
    · exact absurd (hone 0 hn) (by decide)
    · exact absurd (hr 0 fits hphase) (by decide)

/-- Every run of an outline is that of a reading in which all integers are one. -/
lemma exists_runs_sample {r : Reading} (hr : r.CountsOne) {ks : List Kind} {o : Outline}
    (h : r.outline.run ks = some o) : ∃ last, Runs r (ks.map Kind.sample) last := by
  induction ks generalizing r with
  | nil => exact ⟨r, runs_nil.2 rfl⟩
  | cons k ks ih =>
    rw [Outline.run, List.foldlM_cons] at h
    obtain ⟨middle, hmiddle, hrest⟩ := Option.bind_eq_some_iff.1 h
    obtain ⟨next, hstep, rfl, hnext⟩ := exists_step_sample hr hmiddle
    obtain ⟨last, hrun⟩ := ih hnext hrest
    exact ⟨last, .cons hstep hrun⟩

end Reading

/-- Sorts of token begin an expression just where the outline gets through them. -/
theorem Grammar.opens_iff {ks : List Kind} :
    Opens ks ↔ ∃ o, Reading.start.outline.run ks = some o := by
  constructor
  · rintro ⟨us, e, ⟨rest, hks⟩, hderives⟩
    obtain ⟨last, hrun, -⟩ := Expr.ofTokens_eq_ok.1 (Expr.ofTokens_eq_ok_iff.2 hderives)
    have hall := hrun.outline
    rw [← hks, Outline.run, List.foldlM_append] at hall
    obtain ⟨o, ho, -⟩ := Option.bind_eq_some_iff.1 hall
    exact ⟨o, ho⟩
  · rintro ⟨o, ho⟩
    obtain ⟨r, hrun⟩ := Reading.exists_runs_sample Reading.countsOne_start ho
    obtain ⟨us, e, hread⟩ := viable_iff_runs.2 ⟨r, hrun⟩
    refine ⟨ks.map Kind.sample ++ us, e, ?_, Expr.ofTokens_eq_ok_iff.1 hread⟩
    have hkinds : (ks.map Kind.sample).map Token.kind = ks := by
      simp [Function.comp_def, Kind.kind_sample]
    rw [List.map_append, hkinds]
    exact List.prefix_append ks _

/-! ## Sorts that are expected -/

namespace Reading

open Grammar

variable {outer : List Waiting} {inner : Waiting} {n : Nat} {fits : n < 0x8000000000000000}

/-- After an integer that may be a count a `d` is expected, or what follows a number. -/
lemma expected_of_count (hn : n < UInt32.size) :
    (⟨outer, inner, .integer n fits⟩ : Reading).expected =
      [[.mark .d], (⟨outer, inner, .integer n fits⟩ : Reading).following] :=
  if_pos hn

/-- After an integer that is too large for a count only what follows a number is expected. -/
lemma expected_of_number (hn : ¬n < UInt32.size) :
    (⟨outer, inner, .integer n fits⟩ : Reading).expected =
      [(⟨outer, inner, .integer n fits⟩ : Reading).following] :=
  if_neg hn

/-- After a factor an operator is expected, or within parentheses the closing one. -/
lemma exists_mark_of_mem_following {r : Reading} {k : Kind} (h : k ∈ r.following) :
    (∃ op, k = .mark (.ofOperator op)) ∨
      k = .mark .rightParen ∧ ∃ waiting outer, r.outer = waiting :: outer := by
  obtain ⟨outer, inner, phase⟩ := r
  cases outer with
  | nil =>
    have hk : k = .mark .plus ∨ k = .mark .minus ∨ k = .mark .star ∨ k = .mark .slash := by
      simpa [following] using h
    rcases hk with rfl | rfl | rfl | rfl
    · exact .inl ⟨.add, rfl⟩
    · exact .inl ⟨.sub, rfl⟩
    · exact .inl ⟨.mul, rfl⟩
    · exact .inl ⟨.div, rfl⟩
  | cons waiting outer =>
    exact .inr ⟨List.mem_singleton.1 h, waiting, outer, rfl⟩

/-- The outline goes on with what is expected after a factor. -/
lemma exists_outline_step_of_following {r : Reading} {k : Kind} (hplace : r.phase.place.mayEnd)
    (h : k ∈ r.following) : ∃ o, r.outline.step k = some o := by
  obtain ⟨outer, inner, phase⟩ := r
  rcases exists_mark_of_mem_following h with ⟨op, rfl⟩ | ⟨rfl, waiting, rest, houter⟩
  · exact ⟨_, (outline_step_of_factor hplace _ (.inr ⟨op, rfl⟩)).trans (by cases op <;> rfl)⟩
  · obtain rfl : outer = waiting :: rest := houter
    exact ⟨_, (outline_step_of_factor hplace _ (.inl rfl)).trans rfl⟩

/-- The outline goes on with every sort that is expected. -/
lemma exists_outline_step {r : Reading} {k : Kind} (h : k ∈ r.expected.flatten) :
    ∃ o, r.outline.step k = some o := by
  obtain ⟨outer, inner, phase⟩ := r
  cases phase with
  | operand =>
    have hk : k = .mark .leftParen ∨ k = .integer ∨ k = .mark .d := by
      simpa [expected] using h
    rcases hk with rfl | rfl | rfl <;> exact ⟨_, rfl⟩
  | integer n fits =>
    by_cases hn : n < UInt32.size
    · rw [expected_of_count hn, List.flatten_cons, List.mem_append, List.mem_singleton,
        List.flatten_singleton] at h
      rcases h with rfl | h
      · exact ⟨_, rfl⟩
      · exact exists_outline_step_of_following rfl h
    · rw [expected_of_number hn, List.flatten_singleton] at h
      exact exists_outline_step_of_following rfl h
  | sides count =>
    have hk : k = .integer ∨ k = .mark .fate := by simpa [expected] using h
    rcases hk with rfl | rfl <;> exact ⟨_, rfl⟩
  | selector d keep =>
    have hk : k = .mark .highest ∨ k = .mark .lowest := by simpa [expected] using h
    rcases hk with rfl | rfl <;> exact ⟨_, rfl⟩
  | dice d | selected d | complete e =>
    rw [expected, List.flatten_singleton] at h
    exact exists_outline_step_of_following rfl h

/-- No sort is expected twice. -/
lemma nodup_expected (r : Reading) : r.expected.flatten.Nodup := by
  have hfollow : ∀ {r : Reading}, r.following.Nodup ∧ .mark .d ∉ r.following := by
    rintro ⟨outer, inner, phase⟩
    cases outer <;> simp [following]
  obtain ⟨outer, inner, phase⟩ := r
  cases phase with
  | operand | sides count | selector d keep => simp [expected]
  | integer n fits =>
    by_cases hn : n < UInt32.size
    · simpa [expected_of_count hn] using ⟨hfollow.2, hfollow.1⟩
    · simpa [expected_of_number hn] using hfollow.1
  | dice d | selected d | complete e => simpa [expected] using hfollow.1

/-- A token that is refused as such is of no sort that is expected. -/
lemma kind_notMem_expected {r : Reading} {t : Token} {fault : Fault}
    (hstep : r.step t = .error fault) (hf : fault.IsSyntax) : t.kind ∉ r.expected.flatten := by
  intro hmem
  obtain ⟨o, ho⟩ := exists_outline_step hmem
  obtain ⟨rfl, n, fits, hphase, hlarge⟩ := exceedsCount_of_isSyntax ho hstep hf
  -- After too large a count only what follows a number is expected.
  obtain ⟨outer, inner, phase⟩ := r
  cases hphase
  rw [expected_of_number (Nat.not_lt_of_le hlarge), List.flatten_singleton] at hmem
  rcases exists_mark_of_mem_following hmem with ⟨op, hop⟩ | ⟨hparen, -⟩
  · cases op <;> cases hop
  · cases hparen

/-- What is told to be expected is a part of what is. -/
lemma told_sublist (r : Reading) (unknown : Bool) :
    (r.told unknown).Sublist r.expected.flatten := by
  cases unknown with
  | false => exact List.Sublist.refl _
  | true =>
    change (r.expected.headD []).Sublist _
    cases r.expected with
    | nil => exact List.nil_sublist _
    | cons first rest => exact List.sublist_append_left first _

/-- Something is always told to be expected. -/
lemma told_ne_nil (r : Reading) (unknown : Bool) : r.told unknown ≠ [] := by
  have hfollow : ∀ {r : Reading}, r.following ≠ [] := by
    rintro ⟨outer, inner, phase⟩
    cases outer <;> simp [following]
  obtain ⟨outer, inner, phase⟩ := r
  cases phase with
  | integer n fits =>
    by_cases hn : n < UInt32.size
    · cases unknown <;> simp [told, expected_of_count hn]
    · cases unknown <;> simp [told, expected_of_number hn, hfollow]
  | _ => cases unknown <;> simp [told, expected, hfollow]

end Reading

/-! ## Texts -/

namespace Expr

open Grammar

/-- Where a text is refused for a token that cannot stand where it does, something is expected
instead, no sort of token is named twice, and each of them could have come: the tokens before and
one of that sort begin an expression, if integers are taken to be in range. The sort of the token
that stands at the place is not among them. -/
theorem expected_opens {s : String} {err : ParseError} (h : ofText s = .error err)
    (hf : err.fault.IsSyntax) :
    ∃ ks i, (Lexeme.ofText s).map (Token.kind ∘ Lexeme.token) = ks ∧
      Lexeme.indexAt s err.position = i ∧ err.fault.expected ≠ [] ∧ err.fault.expected.Nodup ∧
      (∀ k ∈ err.fault.expected, Opens (ks.take i ++ [k])) ∧
      ∀ k, ks[i]? = some k → k ∉ err.fault.expected := by
  obtain ⟨before, after, r, htokens, hrun, hfails, hindex⟩ := exists_fails_at h
  have hkinds : (Lexeme.ofText s).map (Token.kind ∘ Lexeme.token) =
      before.map Token.kind ++ after.map Token.kind := by
    rw [← List.map_map, htokens, List.map_append]
  have hlength : before.length = (before.map Token.kind).length := (List.length_map _).symm
  rw [hfails.expected_eq hf]
  refine ⟨_, _, hkinds, hindex.trans hlength, r.told_ne_nil _,
    r.nodup_expected.sublist (r.told_sublist _), ?_, ?_⟩
  · intro k hk
    rw [List.take_left]
    obtain ⟨o, ho⟩ := Reading.exists_outline_step ((r.told_sublist _).subset hk)
    refine opens_iff.2 ⟨o, ?_⟩
    have hbefore : Reading.start.outline.run (before.map Token.kind) = some r.outline :=
      hrun.outline
    rw [Outline.run] at hbefore ⊢
    rw [List.foldlM_append, hbefore]
    simpa using ho
  · intro k hk hmem
    rw [List.getElem?_append_right (Nat.le_refl _), Nat.sub_self] at hk
    cases hfails with
    | @token t rest _ hstep =>
      cases hk
      exact Reading.kind_notMem_expected hstep hf ((r.told_sublist _).subset hmem)
    | atEnd hfinish => cases hk

/-- After an integer in parentheses a `d` and the closing parenthesis are expected. That the integer
is zero, and no throw begins with it, is of no account. -/
theorem expected_opens_of_zero :
    ∃ err before, ofText "2*(0 7" = .error err ∧ err.fault.IsSyntax ∧
      ((Lexeme.ofText "2*(0 7").map Lexeme.token).take 4 = before ∧
      err.fault.expected = [.mark .d, .mark .rightParen] ∧
      Opens (before.map Token.kind ++ [.mark .d]) ∧
      Opens (before.map Token.kind ++ [.mark .rightParen]) ∧ ¬Viable (before ++ [.mark .d]) := by
  have hread : ofText "2*(0 7" =
      .error ⟨.unexpected (some .integer) [.mark .d, .mark .rightParen], 5, "7"⟩ := by
    decide +kernel
  have hindex : Lexeme.indexAt "2*(0 7" 5 = 4 := by decide +kernel
  have hbefore : ((Lexeme.ofText "2*(0 7").map Lexeme.token).take 4 =
      [.integer 2, .mark .star, .mark .leftParen, .integer 0] := by decide +kernel
  obtain ⟨ks, i, hkinds, hi, -, -, hopens, -⟩ := expected_opens hread trivial
  obtain rfl : 4 = i := hindex.symm.trans hi
  have htake : ks.take 4 =
      [.integer, .mark .star, .mark .leftParen, .integer] := by
    rw [← hkinds, ← List.map_map, ← List.map_take, hbefore]
    rfl
  rw [htake] at hopens
  refine ⟨_, _, hread, trivial, hbefore, rfl, hopens _ ?_, hopens _ ?_, ?_⟩
  · exact List.mem_cons_self
  · exact List.mem_cons_of_mem _ List.mem_cons_self
  · intro hviable
    obtain ⟨r, hrun⟩ := viable_iff_runs.1 hviable
    cases hrun

end Expr

end DiceNotation
