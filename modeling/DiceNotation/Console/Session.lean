import DiceNotation.Console.Options
import DiceNotation.History
import DiceNotation.Random.Fair
import DiceNotation.Text.Blank
import DiceNotation.Text.Lines
/-!
# Sessions at the console

A session reads a line at a time. A line is an expression to be rolled, or a command: `:reroll`
with positions throws the last roll once more, `:history` shows the line of rolls that leads up to
the last roll, and `:quit` or `:q` ends the session. The first rolls and those made from them are
kept in one history, and all draw from one source of dice.
-/

namespace DiceNotation.Console

/-! ## Commands -/

/-- What a line asks for. -/
inductive Command where
  /-- Nothing. -/
  | blank
  /-- The end of the session. -/
  | quit
  /-- The rolls that lead up to the last one. -/
  | history
  /-- The last roll once more, with new dice at these positions. -/
  | rethrow (positions : List Nat)
  /-- The last roll once more, but what should be a position is none. -/
  | badPosition (word : String)
  /-- A first roll of an expression. -/
  | throw (expression : String)
  deriving DecidableEq

namespace Command

/-- Text cut at every comma. -/
def splitAtCommas : List Char → List (List Char)
  | [] => [[]]
  | ',' :: rest => [] :: splitAtCommas rest
  | c :: rest =>
    match splitAtCommas rest with
    | [] => [[c]]
    | first :: others => (c :: first) :: others

/-- The positions that words stand for, or the first word that stands for none. -/
def positions : List (List Char) → Except String (List Nat)
  | [] => .ok []
  | word :: rest =>
    match Text.word64? word with
    | none => .error (String.ofList word)
    | some n => (positions rest).map (n :: ·)

/-- The command of a line. -/
def ofLine (line : String) : Command :=
  match Text.trim line.toList with
  | [] => .blank
  | ':' :: 'r' :: 'e' :: 'r' :: 'o' :: 'l' :: 'l' :: rest =>
    let words := (splitAtCommas rest).map Text.trim
    match positions (words.filter fun word => !word.isEmpty) with
    | .ok ns => .rethrow ns
    | .error word => .badPosition word
  | cs =>
    let word := String.ofList cs
    if word = ":quit" ∨ word = ":q" then .quit
    else if word = ":history" then .history
    else .throw word

end Command

/-! ## Answers -/

/-- A line of output: an answer, or a complaint on the error stream. -/
inductive Output where
  /-- A line for the output stream. -/
  | answer (line : String)
  /-- A line for the error stream. -/
  | complaint (line : String)
  deriving DecidableEq

/-- What a session is held with: a source of dice, a limit on the dice of one expression, and an
identity and a time for each new roll. -/
structure Setting (σ : Type) where
  /-- Where dice come from. -/
  source : Source σ
  /-- How many dice one expression may throw. -/
  limit : Option Nat
  /-- The identity of the roll that is made after so many others. -/
  identities : Nat → RollId
  /-- The time of the roll that is made after so many others. -/
  clock : Nat → Instant

/-- Where a session stands. -/
structure Session (σ : Type) where
  /-- The rolls so far. -/
  history : History
  /-- The last roll. -/
  last : Option RollId
  /-- How many rolls were made. -/
  made : Nat
  /-- The state of the source of dice. -/
  state : σ

namespace Session

variable {σ : Type}

/-- A session before its first line. -/
def start (state : σ) : Session σ := ⟨.empty, none, 0, state⟩

/-- An error as a complaint. -/
def complain (e : Error) : List Output := [.complaint (e.code ++ ": " ++ e.message)]

/-- The rolls that lead up to a roll, from the first, and then the roll itself. -/
def showLine (h : History) (id : RollId) : List Output :=
  (h.ancestors id).reverse.map (fun r => .answer ("  " ++ r.text)) ++
    match h.get? id with
    | some r => [.answer ("* " ++ r.text)]
    | none => []

/-- Answers a command, if it does not end the session. -/
def obey (setting : Setting σ) (s : Session σ) : Command → Option (List Output × Session σ)
  | .blank => some ([], s)
  | .quit => none
  | .history =>
    match s.last with
    | some id => some (showLine s.history id, s)
    | none => some ([.answer "no rolls yet"], s)
  | .badPosition word => some ([.complaint ("bad position: " ++ word)], s)
  | .rethrow positions =>
    match s.last with
    | none => some ([.answer "nothing to reroll"], s)
    | some id =>
      match s.history.rethrow setting.source setting.limit id positions
          (setting.identities s.made) (setting.clock s.made) s.state with
      | (.error e, history, state) => some (complain e, ⟨history, s.last, s.made, state⟩)
      | (.ok roll, history, state) =>
        some ([.answer roll.text], ⟨history, some roll.id, s.made + 1, state⟩)
  | .throw expression =>
    match Roll.throw setting.source setting.limit expression none (setting.identities s.made)
        (setting.clock s.made) s.state with
    | (.error e, state) => some (complain e, { s with state := state })
    | (.ok roll, state) =>
      some ([.answer roll.text], ⟨s.history.insert roll, some roll.id, s.made + 1, state⟩)

/-- The answers to lines, one list for each line that was read, and whether the session was ended
by a line. -/
def replies (setting : Setting σ) (s : Session σ) : List String → List (List Output) × Bool
  | [] => ([], false)
  | line :: rest =>
    match s.obey setting (.ofLine line) with
    | none => ([], true)
    | some (output, next) =>
      let (more, ended) := replies setting next rest
      (output :: more, ended)

end Session

end DiceNotation.Console
