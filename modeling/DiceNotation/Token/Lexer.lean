import DiceNotation.Token
/-!
# Cutting text into tokens

Spaces, tabs, carriage returns and line feeds part tokens and are dropped. A run of digits, as long
as it can be, is one integer; every other character is a token of its own. A `Lexeme` is a token
together with the characters it was cut from and where they stood, counted in characters and in
bytes of UTF-8.
-/

namespace DiceNotation

/-- A token where it stood in a text. -/
structure Lexeme where
  /-- The token. -/
  token : Token
  /-- The characters it was cut from. -/
  chars : List Char
  /-- How many characters stood before it. -/
  column : Nat
  /-- How many bytes stood before it. -/
  start : Nat
  deriving DecidableEq

/-- The number of bytes of characters in UTF-8. -/
def utf8Length : List Char → Nat
  | [] => 0
  | c :: rest => c.utf8Size + utf8Length rest

namespace Lexeme

/-- How many bytes stood before the end of the token. -/
def stop (l : Lexeme) : Nat := l.start + utf8Length l.chars

/-- The text that the token was cut from. -/
def text (l : Lexeme) : String := String.ofList l.chars

end Lexeme

namespace Token

/-- Whether the character parts tokens. -/
def isBlank (c : Char) : Bool := c == ' ' || c == '\t' || c == '\r' || c == '\n'

theorem isBlank_iff {c : Char} : isBlank c = true ↔ c ∈ [' ', '\t', '\r', '\n'] := by
  simp [isBlank, or_assoc]

/-- The token that is the single character `c`. -/
def ofChar (c : Char) : Token :=
  match Mark.ofChar? c with
  | some m => .mark m
  | none => .unknown

/-- The integer that a run of digits stands for. -/
def ofDigits (digits : List Char) : Token := .integer (Nat.ofDigitChars 10 digits 0)

end Token

namespace Lexeme

/-- Cuts characters into tokens, when `column` characters and `start` bytes stood before them. -/
def cut (column start : Nat) (cs : List Char) : List Lexeme :=
  match cs with
  | [] => []
  | c :: rest =>
    if Token.isBlank c then cut (column + 1) (start + c.utf8Size) rest
    else if c.isDigit then
      let digits := c :: rest.takeWhile Char.isDigit
      ⟨Token.ofDigits digits, digits, column, start⟩ ::
        cut (column + digits.length) (start + utf8Length digits) (rest.dropWhile Char.isDigit)
    else
      ⟨Token.ofChar c, [c], column, start⟩ :: cut (column + 1) (start + c.utf8Size) rest
termination_by cs.length
decreasing_by
  · simp
  · have := (List.dropWhile_sublist Char.isDigit (l := rest)).length_le
    simp only [List.length_cons]
    omega
  · simp

@[simp] theorem cut_nil (column start : Nat) : cut column start [] = [] := by
  rw [cut]

theorem cut_blank {c : Char} (h : Token.isBlank c = true) (column start : Nat) (rest : List Char) :
    cut column start (c :: rest) = cut (column + 1) (start + c.utf8Size) rest := by
  rw [cut, if_pos h]

/-- Digits are taken together, as many as there are. -/
theorem cut_digit {c : Char} (hb : Token.isBlank c = false) (hd : c.isDigit = true)
    (column start : Nat) (rest : List Char) :
    cut column start (c :: rest) =
      ⟨Token.ofDigits (c :: rest.takeWhile Char.isDigit), c :: rest.takeWhile Char.isDigit, column,
          start⟩ ::
        cut (column + (rest.takeWhile Char.isDigit).length.succ)
          (start + utf8Length (c :: rest.takeWhile Char.isDigit))
          (rest.dropWhile Char.isDigit) := by
  rw [cut, if_neg (by simp [hb]), if_pos hd]
  rfl

/-- Any other character is a token. -/
theorem cut_char {c : Char} (hb : Token.isBlank c = false) (hd : c.isDigit = false)
    (column start : Nat) (rest : List Char) :
    cut column start (c :: rest) =
      ⟨Token.ofChar c, [c], column, start⟩ :: cut (column + 1) (start + c.utf8Size) rest := by
  rw [cut, if_neg (by simp [hb]), if_neg (by simp [hd])]

/-- The tokens of a text, each with its place. -/
def ofText (s : String) : List Lexeme := cut 0 0 s.toList

end Lexeme

end DiceNotation
