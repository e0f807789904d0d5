import DiceNotation.Operator
/-!
# Tokens

The words of dice notation: integers and twelve marks of one character each. A character that is
none of these and no blank is a token of its own, `unknown`.
-/

namespace DiceNotation

/-- A mark of one character. The letters may be written in either case. -/
inductive Mark where
  /-- `d`: parts the count of a throw from its sides, and also stands for *drop*. -/
  | d
  /-- `f`: the fate die. -/
  | fate
  /-- `!`: the dice explode. -/
  | bang
  /-- `k`: keep. -/
  | keep
  /-- `h`: the highest. -/
  | highest
  /-- `l`: the lowest. -/
  | lowest
  | leftParen
  | rightParen
  | plus
  | minus
  | star
  | slash
  deriving DecidableEq

/-- A token: an integer with its value, a mark, or a character that is neither. -/
inductive Token where
  | integer (value : Nat)
  | mark (mark : Mark)
  | unknown
  deriving DecidableEq

/-- What sort of token: a token without the value of its integer. -/
inductive Token.Kind where
  | integer
  | mark (mark : Mark)
  | unknown
  deriving DecidableEq

/-- The sort of a token. -/
def Token.kind : Token → Token.Kind
  | .integer _ => .integer
  | .mark m => .mark m
  | .unknown => .unknown

namespace Mark

/-- The character that stands for the mark, in lower case. -/
def symbol : Mark → Char
  | .d => 'd'
  | .fate => 'f'
  | .bang => '!'
  | .keep => 'k'
  | .highest => 'h'
  | .lowest => 'l'
  | .leftParen => '('
  | .rightParen => ')'
  | .plus => '+'
  | .minus => '-'
  | .star => '*'
  | .slash => '/'

/-- The mark that a character stands for. -/
def ofChar? (c : Char) : Option Mark :=
  match c with
  | 'd' | 'D' => some .d
  | 'f' | 'F' => some .fate
  | '!' => some .bang
  | 'k' | 'K' => some .keep
  | 'h' | 'H' => some .highest
  | 'l' | 'L' => some .lowest
  | '(' => some .leftParen
  | ')' => some .rightParen
  | '+' => some .plus
  | '-' => some .minus
  | '*' => some .star
  | '/' => some .slash
  | _ => none

@[simp] theorem ofChar?_symbol (m : Mark) : ofChar? m.symbol = some m := by
  cases m <;> rfl

/-- A character stands for a mark if it is its symbol, in either case. -/
theorem ofChar?_eq_some {c : Char} {m : Mark} :
    ofChar? c = some m ↔ c = m.symbol ∨ c = m.symbol.toUpper := by
  constructor
  · intro h
    unfold ofChar? at h
    split at h <;> cases h <;> decide
  · rintro (rfl | rfl)
    · exact ofChar?_symbol m
    · cases m <;> decide

/-- The operator that the mark is. -/
def operator? : Mark → Option Operator
  | .plus => some .add
  | .minus => some .sub
  | .star => some .mul
  | .slash => some .div
  | _ => none

/-- The mark of an operator. -/
def ofOperator : Operator → Mark
  | .add => .plus
  | .sub => .minus
  | .mul => .star
  | .div => .slash

theorem operator?_eq_some {m : Mark} {op : Operator} :
    m.operator? = some op ↔ m = ofOperator op := by
  cases m <;> cases op <;> simp [operator?, ofOperator]

end Mark

namespace Token.Kind

/-- The name of a sort of token in a message. -/
def name : Token.Kind → String
  | .integer => "<integer>"
  | .mark m => "'" ++ m.symbol.toString ++ "'"
  | .unknown => "<error>"

/-- The operator that the sort of token is. -/
def operator? : Token.Kind → Option Operator
  | .mark m => m.operator?
  | _ => none

end Token.Kind

end DiceNotation
