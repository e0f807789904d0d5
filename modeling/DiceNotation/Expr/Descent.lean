import DiceNotation.Expr.Text
/-!
# Reading by recursive descent

Another way to read an expression: there is a rule for each part of the grammar, and the rules call
one another. A factor that begins with an integer or with `d` is first read as a throw. Where this
fails, the reader goes back to where the factor begins and reads a number.

Every failure is recorded, also one after which the reader goes back. In the end the failure is told
that is furthest in the text; failures at one place are merged (`ParseError.merge`). The answers are
those of reading token by token, the failures among them (`Descent.ofText_eq`).

No rule leaves the reader further back than it found it, which the type of its answers says
(`Descent.Answer`). So chains of operands come to an end, however deep they are in parentheses.
-/

namespace DiceNotation

namespace Descent

/-! ## Answers -/

/-- Where a reader stands. -/
structure State where
  /-- How many tokens it has behind it. -/
  pos : Nat
  /-- The furthest failure so far. -/
  furthest : Option ParseError

/-- What a rule gives that begins behind `start` tokens: a value or a failure, and where it leaves
the reader, which is not further back. -/
abbrev Answer (start : Nat) (α : Type) := Except ParseError α × { next : State // start ≤ next.pos }

/-- An answer of a rule that began earlier. -/
def Answer.since {start earlier : Nat} {α : Type} (a : Answer start α) (h : earlier ≤ start) :
    Answer earlier α :=
  (a.1, ⟨a.2.1, Nat.le_trans h a.2.2⟩)

/-- Goes on with the value of an answer, if it has one. -/
def Answer.andThen {start : Nat} {α β : Type} (a : Answer start α)
    (f : α → (next : State) → start ≤ next.pos → Answer next.pos β) : Answer start β :=
  match a with
  | (.ok x, ⟨next, h⟩) => (f x next h).since h
  | (.error e, next) => (.error e, next)

/-- A rule: it is read from where the reader stands. -/
def Rule (α : Type) := (st : State) → Answer st.pos α

instance : Monad Rule where
  pure x := fun st => (.ok x, ⟨st, Nat.le_refl _⟩)
  bind r f := fun st => (r st).andThen fun x next _ => f x next

/-! ## Tokens -/

section

variable (s : String) (lexemes : List Lexeme)

/-- The token behind so many others. -/
def tokenAt (i : Nat) : Option Token := (lexemes[i]?).map Lexeme.token

/-- Where there is a token, the end has not been reached. -/
theorem lt_of_tokenAt {i : Nat} {t : Token} (h : tokenAt lexemes i = some t) :
    i < lexemes.length := by
  obtain ⟨l, hl, -⟩ := Option.map_eq_some_iff.1 h
  exact (List.getElem?_eq_some_iff.1 hl).1

/-- How many tokens the reader has behind it. -/
def position : Rule Nat := fun st => (.ok st.pos, ⟨st, Nat.le_refl _⟩)

/-- The token that comes next. -/
def peek : Rule (Option Token) := fun st => (.ok (tokenAt lexemes st.pos), ⟨st, Nat.le_refl _⟩)

/-- The state behind one more token. -/
def State.behind (st : State) : State := { st with pos := st.pos + 1 }

/-- Goes on behind the token that comes next. -/
def advance : Rule Unit := fun st => (.ok (), ⟨st.behind, Nat.le_succ _⟩)

/-- Records a failure. -/
def State.record (st : State) (e : ParseError) : State :=
  { st with furthest := some (match st.furthest with
    | some furthest => furthest.merge e
    | none => e) }

/-- Fails at the token number `i`. -/
def fail {α : Type} (i : Nat) (fault : Fault) : Rule α := fun st =>
  let e := ParseError.locate s lexemes i fault
  (.error e, ⟨st.record e, Nat.le_refl _⟩)

/-- The fault of what stands where other sorts of token are expected. -/
def refusal (found : Option Token) (expected : List Token.Kind) : Fault :=
  match found with
  | some .unknown => .unrecognized expected
  | _ => .unexpected (found.map Token.kind) expected

/-- Fails at the token that comes next. -/
def unexpected {α : Type} (expected : List Token.Kind) : Rule α := do
  fail s lexemes (← position) (refusal (← peek lexemes) expected)

/-- Takes a mark, if it comes next. -/
def eat (m : Mark) : Rule Bool := do
  if (← peek lexemes) = some (.mark m) then
    advance
    pure true
  else pure false

/-- Takes a mark that has to come next. -/
def consume (m : Mark) : Rule Unit := do
  if ← eat lexemes m then pure () else unexpected s lexemes [.mark m]

/-- Takes an integer that has to come next and to be below a bound. -/
def integer (bound : Nat) : Rule (Fin bound) := do
  let i ← position
  match ← peek lexemes with
  | some (.integer n) =>
    advance
    if h : n < bound then pure ⟨n, h⟩ else fail s lexemes i .numberTooLarge
  | _ => unexpected s lexemes [.integer]

/-! ## Throws -/

/-- An integer in a throw. -/
def word : Rule UInt32 := do
  let n ← integer s lexemes UInt32.size
  pure (.ofNatLT n.val n.isLt)

/-- An integer in a throw that may be missing for one. -/
def wordOrOne : Rule UInt32 := do
  match ← peek lexemes with
  | some (.integer _) => word s lexemes
  | _ => pure 1

/-- The sides of a throw. -/
def sides : Rule Sides := do
  let i ← position
  match ← peek lexemes with
  | some (.mark .fate) =>
    advance
    pure .fate
  | some (.integer _) =>
    let faces ← word s lexemes
    if h : 0 < faces then pure (.poly faces h) else fail s lexemes i .zeroDice
  | _ => unexpected s lexemes [.integer, .mark .fate]

/-- How many of the highest or of the lowest dice are kept or dropped, from the `h` or `l` on. -/
def ranked (d : Dice) (keep highest : Bool) : Rule Dice := do
  advance
  let selected ← wordOrOne s lexemes
  pure { d with selection := .of keep highest, selected := selected }

/-- Which dice of a throw are kept or dropped, from the `k` or `d` on. -/
def choice (d : Dice) (keep : Bool) : Rule Dice := do
  advance
  match ← peek lexemes with
  | some (.mark .highest) => ranked s lexemes d keep true
  | some (.mark .lowest) => ranked s lexemes d keep false
  | _ => unexpected s lexemes [.mark .highest, .mark .lowest]

/-- The selection of a throw, if it has one. -/
def selection (d : Dice) : Rule Dice := do
  match ← peek lexemes with
  | some (.mark .keep) => choice s lexemes d true
  | some (.mark .d) => choice s lexemes d false
  | _ => pure d

/-- A throw from its sides on. -/
def throw (count : UInt32) : Rule Dice := do
  let sides ← sides s lexemes
  let explodes ← eat lexemes .bang
  selection s lexemes { Dice.plain count sides with explodes := explodes }

/-- A throw from its `d` on. -/
def counted (count : UInt32) : Rule Dice := do
  let separator ← position
  consume s lexemes .d
  if count = 0 then fail s lexemes separator .zeroDice else throw s lexemes count

/-- A throw. -/
def dice : Rule Dice := do
  let count ← wordOrOne s lexemes
  counted s lexemes count

/-! ## Expressions -/

/-- A number. -/
def number : Rule Expr := do
  let n ← integer s lexemes 0x8000000000000000
  pure (.number (.ofNat n.val n.isLt))

/-- What begins as a throw; it is read as a number where it is none. -/
def throwOrNumber : Rule Expr := fun st =>
  match dice s lexemes st with
  | (.ok d, next) => (.ok (.dice d), next)
  | (.error _, ⟨next, _⟩) => number s lexemes { next with pos := st.pos }

/-- The operator of a part of the grammar, if one comes next. -/
def operatorAt (part : Grammar.Part) (i : Nat) : Option Operator :=
  match tokenAt lexemes i with
  | some (.mark m) => m.operator?.filter fun op => op.precedence = part.precedence
  | _ => none

/-- Where there is an operator, the end has not been reached. -/
theorem lt_of_operatorAt {part : Grammar.Part} {i : Nat} {op : Operator}
    (h : operatorAt lexemes part i = some op) : i < lexemes.length := by
  unfold operatorAt at h
  split at h
  · exact lt_of_tokenAt lexemes ‹_›
  · cases h

mutual

/-- A factor. -/
def factor (st : State) : Answer st.pos Expr :=
  match _h : tokenAt lexemes st.pos with
  | some (.mark .leftParen) =>
    ((read .expression st.behind).andThen fun e next _ =>
      (do consume s lexemes .rightParen; pure e : Rule Expr) next).since (Nat.le_succ _)
  | some (.integer _) | some (.mark .d) => throwOrNumber s lexemes st
  | _ => unexpected s lexemes [.mark .leftParen, .integer, .mark .d] st
termination_by (lexemes.length - st.pos, 0)
decreasing_by
  have hlt := lt_of_tokenAt lexemes _h
  exact .left _ _ (by simp only [State.behind]; omega)

/-- A part of the grammar: a factor, or operands with the operators of the part between them. -/
def read (part : Grammar.Part) (st : State) : Answer st.pos Expr :=
  if _h : part = .factor then factor st
  else (read part.operand st).andThen fun left next _ => links part left next
termination_by (lexemes.length - st.pos, 2 * (3 - part.precedence) + 1)
decreasing_by
  · exact .right _ (Nat.succ_pos _)
  · refine .right _ ?_
    cases part with
    | factor => exact absurd rfl _h
    | expression | term => decide
  · have hle := Nat.sub_le_sub_left ‹st.pos ≤ next.pos› lexemes.length
    rcases Nat.lt_or_eq_of_le hle with hlt | heq
    · exact .left _ _ hlt
    · rw [heq]
      exact .right _ (Nat.lt_succ_self _)

/-- The operators and operands that follow the left operand of a part. -/
def links (part : Grammar.Part) (left : Expr) (st : State) : Answer st.pos Expr :=
  match _h : operatorAt lexemes part st.pos with
  | some op =>
    ((read part.operand st.behind).andThen fun right next _ =>
      links part (.binary left op right) next).since (Nat.le_succ _)
  | none => (.ok left, ⟨st, Nat.le_refl _⟩)
termination_by (lexemes.length - st.pos, 2 * (3 - part.precedence))
decreasing_by
  · have hlt := lt_of_operatorAt lexemes _h
    exact .left _ _ (by simp only [State.behind]; omega)
  · have hlt := lt_of_operatorAt lexemes _h
    have hle : st.pos + 1 ≤ next.pos := ‹st.behind.pos ≤ next.pos›
    exact .left _ _ (by omega)

end

/-- An expression up to the end. -/
def expression : Rule Expr := fun st =>
  (read s lexemes .expression st).andThen fun e next _ =>
    if lexemes.length ≤ next.pos then (.ok e, ⟨next, Nat.le_refl _⟩)
    else unexpected s lexemes [.mark .plus, .mark .minus, .mark .star, .mark .slash] next

end

/-- The expression that a text is. -/
def ofText (s : String) : Except ParseError Expr :=
  let (answer, last) := expression s (Lexeme.ofText s) ⟨0, none⟩
  answer.mapError fun e => last.1.furthest.getD e

end Descent

end DiceNotation
