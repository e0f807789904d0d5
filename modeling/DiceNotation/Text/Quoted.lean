import DiceNotation.Text.Unprintable
/-!
# Quoted text

Text is quoted between double quotes and a single character between single ones. The backslash and
the quote in use are written after a backslash, the characters null, tab, carriage return and line
feed as `\0`, `\t`, `\r` and `\n`, and every other character that does not print on its own by its
number in hexadecimal digits.
-/

namespace DiceNotation.Text

/-- The characters that stand for `c` between quotes `quote`. -/
def escape (quote c : Char) : List Char :=
  if c = '\x00' then ['\\', '0']
  else if c = '\t' then ['\\', 't']
  else if c = '\r' then ['\\', 'r']
  else if c = '\n' then ['\\', 'n']
  else if c = '\\' ∨ c = quote then ['\\', c]
  else if isUnprintable c then
    ['\\', 'u', '\x7b'] ++ Nat.toDigits 16 c.toNat ++ ['\x7d']
  else [c]

/-- Text between double quotes. -/
def quoted (s : String) : String :=
  String.ofList ('"' :: s.toList.flatMap (escape '"') ++ ['"'])

/-- A character between single quotes. -/
def quotedChar (c : Char) : String :=
  String.ofList ('\'' :: escape '\'' c ++ ['\''])

end DiceNotation.Text
