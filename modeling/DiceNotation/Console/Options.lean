import DiceNotation.Table
import DiceNotation.Text.Numeral
/-!
# Options of the command line

The options come in pairs of a name and a value: `--seed` with a number of 64 bits, and
`--max-rolls` with such a number or `none`. Of an option that is given twice the later one counts.
-/

namespace DiceNotation.Console

/-- What the command line chooses. -/
structure Options where
  /-- The seed of the dice; without one they are not reproducible. -/
  seed : Option Nat
  /-- How many dice one expression may throw. -/
  limit : Option Nat
  deriving DecidableEq

namespace Options

/-- What is chosen where the command line says nothing. -/
def standard : Options := ⟨none, some defaultLimit⟩

/-- Reads the command line's words after those that chose `options`, or says what is wrong. -/
def ofArguments (options : Options) : List String → Except String Options
  | [] => .ok options
  | [name] => .error ("missing value for " ++ name)
  | name :: value :: rest =>
    if name = "--seed" then
      match Text.word64? value.toList with
      | some seed => ofArguments { options with seed := some seed } rest
      | none => .error ("bad seed: " ++ value)
    else if name = "--max-rolls" then
      if value = "none" then ofArguments { options with limit := none } rest
      else match Text.word64? value.toList with
        | some limit => ofArguments { options with limit := some limit } rest
        | none => .error ("bad roll limit: " ++ value)
    else .error ("unknown argument: " ++ name)

end Options

end DiceNotation.Console
