/-!
# Lines of a byte stream

A line ends with a line feed, before which one carriage return may stand; the last line need not
end. Lines are text in UTF-8, and the first one that is not ends the input.
-/

namespace DiceNotation.Text

/-- Cuts bytes after each line feed, `line` being those since the last one, the latest first. -/
def cutLines (line : List UInt8) : List UInt8 → List (List UInt8)
  | [] => if line.isEmpty then [] else [line.reverse]
  | 10 :: rest => (if line.head? = some 13 then line.tail else line).reverse :: cutLines [] rest
  | byte :: rest => cutLines (byte :: line) rest

/-- The text that bytes are in UTF-8. -/
def ofUtf8? (bytes : List UInt8) : Option String := String.fromUTF8? ⟨bytes.toArray⟩

/-- The lines at the start of a list that are text. -/
def textLines : List (List UInt8) → List String
  | [] => []
  | line :: rest =>
    match ofUtf8? line with
    | some s => s :: textLines rest
    | none => []

/-- The lines of a byte stream, up to the first that is not text. -/
def lines (bytes : List UInt8) : List String := textLines (cutLines [] bytes)

end DiceNotation.Text
