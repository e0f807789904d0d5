import DiceNotation.Expr.Reading
import DiceNotation.Token.Lexer
/-!
# Expressions from text
-/

namespace DiceNotation

namespace ParseError

/-- The fault of the token number `index` of a text that was cut into lexemes. -/
def locate (s : String) (lexemes : List Lexeme) (index : Nat) (fault : Fault) : ParseError :=
  match lexemes[index]? with
  | some l => ⟨fault, l.column, l.text⟩
  | none => ⟨fault, s.length, ""⟩

end ParseError

namespace Expr

/-- The expression that a text is. -/
def ofText (s : String) : Except ParseError Expr :=
  let lexemes := Lexeme.ofText s
  match ofTokens (lexemes.map Lexeme.token) with
  | .ok e => .ok e
  | .error (index, fault) => .error (.locate s lexemes index fault)

end Expr

end DiceNotation
