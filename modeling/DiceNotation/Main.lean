import DiceNotation.Console.Transcript
import Std.Time.DateTime
/-!
# The command line

Holds a session at the terminal: each line is answered as soon as it has been read. Without a seed
the dice come from the randomness of the system, as the identities of the rolls do in any case.
-/

namespace DiceNotation.Console

/-- Reads the bytes of a line, its line feed among them; none where the input has ended. -/
partial def readLine (input : IO.FS.Stream) (line : List UInt8) : IO (List UInt8) := do
  match (← input.read 1).toList with
  | [] => return line.reverse
  | byte :: _ =>
    if byte = 10 then return (byte :: line).reverse else readLine input (byte :: line)

/-- The current time. -/
def currentTime : IO Instant := do
  let now ← Std.Time.Timestamp.now
  let t := Std.Time.PlainDateTime.ofWallTime (Std.Time.WallTime.ofTimestamp now .zero)
  let date : Calendar.Date := (t.date.year.toInt, t.date.month.val.toNat, t.date.day.val.toNat)
  let found := Instant.of? date t.time.hour.val.toNat t.time.minute.val.toNat
    t.time.second.val.toNat t.time.nanosecond.val.toNat
  return found.getD Instant.epoch

/-- A random number of the given count of bytes. -/
def randomNumber (count : USize) : IO Nat := do
  let bytes ← IO.getRandomBytes count
  return bytes.toList.foldl (fun n byte => 256 * n + byte.toNat) 0

/-- Writes a line of output to its stream. -/
def write : Output → IO Unit
  | .answer line => IO.println line
  | .complaint line => IO.eprintln line

/-- Asks for a line and answers it, again and again. -/
partial def converse (limit : Option Nat) (identities : Nat → RollId)
    (session : Session Random.Keystream) : IO Unit := do
  IO.print prompt
  (← IO.getStdout).flush
  match Text.lines (← readLine (← IO.getStdin) []) with
  | [] => return
  | line :: _ =>
    let now ← currentTime
    let held : Setting Random.Keystream := ⟨Random.seeded, limit, identities, fun _ => now⟩
    match session.obey held (.ofLine line) with
    | none => return
    | some (output, next) =>
      output.forM write
      converse limit identities next

end DiceNotation.Console

open DiceNotation DiceNotation.Console

/-- Runs the command line. -/
def main (arguments : List String) : IO UInt32 := do
  match Options.standard.ofArguments arguments with
  | .error reason =>
    IO.eprint (Transcript.refused reason).errors
    return 1
  | .ok options =>
    let seed := options.seed.getD (← randomNumber 8)
    let base ← randomNumber 16
    converse options.limit (numbered (BitVec.ofNat 128 base))
      (.start (Random.Keystream.ofSeed (UInt64.ofNat seed)))
    return 0
