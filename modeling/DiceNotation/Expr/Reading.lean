import DiceNotation.Expr
import DiceNotation.ParseError
/-!
# Reading an expression

The grammar of dice notation is

* *expression*: terms with `+` or `-` between them;
* *term*: factors with `*` or `/` between them;
* *factor*: an expression in parentheses, a throw, or an integer;
* *throw*: an optional integer, `d`, an integer or `f`, an optional `!`, and optionally `k` or `d`
  with `h` or `l` and an optional integer.

One token at a time is enough to know what is being read, so a partly read expression is a state
(`Reading`) and a token a step from one state to the next. Tokens are refused as soon as no
expression can go on with them. Integers in a throw are below `2 ^ 32`, a plain number is below
`2 ^ 63`, and counts of dice and of sides are not zero.

Reading by recursive descent, which goes back where it takes a number for a throw, gives the same
answers and tells the same failures (`Descent.ofText_eq`).
-/

namespace DiceNotation

/-! ## Partly read expressions -/

/-- Where reading stands inside the innermost open parentheses. -/
inductive Phase where
  /-- A factor has to come. -/
  | operand
  /-- An integer was read where a factor starts: a number, or the count of a throw. -/
  | integer (value : Nat) (fits : value < 0x8000000000000000)
  /-- The sides of a throw have to come. -/
  | sides (count : UInt32)
  /-- A throw was read up to its sides, or up to its `!`. -/
  | dice (dice : Dice)
  /-- The `k` or `d` of a throw was read; `h` or `l` has to come. -/
  | selector (dice : Dice) (keep : Bool)
  /-- The selection of a throw was read; an integer may come. -/
  | selected (dice : Dice)
  /-- A factor was read to its end. -/
  | complete (factor : Expr)

/-- The operands that wait, inside one pair of parentheses, for their right operand. -/
structure Waiting where
  /-- The left operand of a `+` or `-`. -/
  sum : Option (Expr × Operator)
  /-- The left operand of a `*` or `/`. -/
  product : Option (Expr × Operator)

/-- A partly read expression: what waits in the open parentheses around, what waits in the
innermost ones, and where reading stands there. -/
structure Reading where
  /-- What waits in each pair of open parentheses around the innermost one, from the inside. -/
  outer : List Waiting
  /-- What waits in the innermost open parentheses, or at the outside where none are open. -/
  inner : Waiting
  /-- Where reading stands there. -/
  phase : Phase

namespace Waiting

/-- Nothing waits. -/
def nothing : Waiting := ⟨none, none⟩

/-- Gives an operand that waits its right operand. -/
def attach : Option (Expr × Operator) → Expr → Expr
  | none, e => e
  | some (left, op), e => .binary left op e

/-- The expression that ends with the factor `e`. -/
def close (w : Waiting) (e : Expr) : Expr := attach w.sum (attach w.product e)

/-- What waits when an operator follows the factor `e`. -/
def follow (w : Waiting) (e : Expr) (op : Operator) : Waiting :=
  if op.precedence = 2 then { w with product := some (attach w.product e, op) }
  else { sum := some (w.close e, op), product := none }

end Waiting

namespace Phase

/-- The factor that has been read, where it may end here. -/
def factor? : Phase → Option Expr
  | .integer value fits => some (.number (.ofNat value fits))
  | .dice d => some (.dice d)
  | .selected d => some (.dice d)
  | .complete e => some e
  | _ => none

end Phase

namespace Reading

open Token (Kind)

/-- Nothing has been read. -/
def start : Reading := ⟨[], .nothing, .operand⟩

/-! ## Faults -/

/-- The sorts of token that may follow a factor: an operator at the outside, and in parentheses the
closing one, which stands for all that may follow there. -/
def following (r : Reading) : List Kind :=
  if r.outer.isEmpty then [.mark .plus, .mark .minus, .mark .star, .mark .slash]
  else [.mark .rightParen]

/-- The sorts of token that are named when a token is refused, the innermost rule first. -/
def expected (r : Reading) : List (List Kind) :=
  match r.phase with
  | .operand => [[.mark .leftParen, .integer, .mark .d]]
  | .integer value _ => if value < UInt32.size then [[.mark .d], r.following] else [r.following]
  | .sides _ => [[.integer, .mark .fate]]
  | .selector _ _ => [[.mark .highest, .mark .lowest]]
  | .dice _ | .selected _ | .complete _ => [r.following]

/-- The fault of a token that cannot come next. Of an unknown character only the innermost rule
speaks. -/
def refuse (r : Reading) : Token → Fault
  | .unknown => .unrecognized (r.expected.headD [])
  | t => .unexpected (some t.kind) r.expected.flatten

/-! ## Steps -/

/-- The state after a token that follows the factor `e`. -/
def afterFactor (r : Reading) (e : Expr) (t : Token) : Except Fault Reading :=
  match t with
  | .mark m =>
    match m.operator?, m, r.outer with
    | some op, _, _ => .ok { r with inner := r.inner.follow e op, phase := .operand }
    | none, .rightParen, waiting :: outer => .ok ⟨outer, waiting, .complete (r.inner.close e)⟩
    | none, _, _ => .error (r.refuse t)
  | _ => .error (r.refuse t)

/-- The state after a token with which no rule of the phase goes on: the factor, if it may end here,
is followed by the token. -/
def otherwise (r : Reading) (t : Token) : Except Fault Reading :=
  match r.phase.factor? with
  | some e => r.afterFactor e t
  | none => .error (r.refuse t)

/-- An integer in a throw. -/
def word? (n : Nat) : Except Fault UInt32 :=
  if h : n < UInt32.size then .ok (.ofNatLT n h) else .error .numberTooLarge

/-- The state after one more token. -/
def step (r : Reading) (t : Token) : Except Fault Reading :=
  match r.phase, t with
  | .operand, .mark .leftParen => .ok ⟨r.inner :: r.outer, .nothing, .operand⟩
  | .operand, .mark .d => .ok { r with phase := .sides 1 }
  | .operand, .integer n =>
    if h : n < 0x8000000000000000 then .ok { r with phase := .integer n h }
    else .error .numberTooLarge
  | .integer n _, .mark .d =>
    if h : n < UInt32.size then
      if n = 0 then .error .zeroDice else .ok { r with phase := .sides (.ofNatLT n h) }
    else r.otherwise t
  | .sides count, .mark .fate => .ok { r with phase := .dice (.plain count .fate) }
  | .sides count, .integer n => do
    let faces ← word? n
    if h : 0 < faces then .ok { r with phase := .dice (.plain count (.poly faces h)) }
    else .error .zeroDice
  | .dice d, .mark .bang =>
    if d.explodes then r.otherwise t
    else .ok { r with phase := .dice { d with explodes := true } }
  | .dice d, .mark .keep => .ok { r with phase := .selector d true }
  | .dice d, .mark .d => .ok { r with phase := .selector d false }
  | .selector d keep, .mark .highest =>
    .ok { r with phase := .selected { d with selection := .of keep true } }
  | .selector d keep, .mark .lowest =>
    .ok { r with phase := .selected { d with selection := .of keep false } }
  | .selected d, .integer n => do
    let selected ← word? n
    .ok { r with phase := .complete (.dice { d with selected := selected }) }
  | _, _ => r.otherwise t

/-! ## Runs -/

/-- The expression that has been read, when no token follows. -/
def finish (r : Reading) : Except Fault Expr :=
  match r.phase.factor?, r.outer with
  | some e, [] => .ok (r.inner.close e)
  | _, _ => .error (.unexpected none r.expected.flatten)

/-- The expression that has been read when all of the tokens have been, or the fault of the first
token that cannot stand where it does, with the number of tokens before it. The number starts from
`passed`. -/
def run (r : Reading) (passed : Nat) : List Token → Except (Nat × Fault) Expr
  | [] => r.finish.mapError (passed, ·)
  | t :: rest =>
    match r.step t with
    | .ok next => next.run (passed + 1) rest
    | .error fault => .error (passed, fault)

@[simp] theorem run_nil (r : Reading) (passed : Nat) :
    r.run passed [] = r.finish.mapError (passed, ·) := rfl

theorem run_of_ok {r next : Reading} {t : Token} (h : r.step t = .ok next) (passed : Nat)
    (rest : List Token) : r.run passed (t :: rest) = next.run (passed + 1) rest := by
  rw [run, h]

theorem run_of_error {r : Reading} {t : Token} {fault : Fault} (h : r.step t = .error fault)
    (passed : Nat) (rest : List Token) : r.run passed (t :: rest) = .error (passed, fault) := by
  rw [run, h]

end Reading

namespace Expr

/-- The expression that a sequence of tokens is, or the fault of the first token that cannot stand
where it does, with the number of tokens before it. -/
def ofTokens (tokens : List Token) : Except (Nat × Fault) Expr := Reading.start.run 0 tokens

end Expr

end DiceNotation
