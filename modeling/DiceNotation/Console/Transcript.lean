import DiceNotation.Console.Session
/-!
# Transcripts

Everything that one run of the command line writes. A prompt stands at the start and after the
answers to each line; what is wrong with the options is all that is said where they are.
-/

namespace DiceNotation.Console

/-- What a run has written, and its exit code. -/
structure Transcript where
  /-- What was written to the output stream. -/
  output : String
  /-- What was written to the error stream. -/
  errors : String
  /-- The exit code. -/
  code : Nat
  deriving DecidableEq

/-- What asks for a line. -/
def prompt : String := "> "

namespace Output

/-- What is written to the output stream. -/
def answered : Output → String
  | .answer line => line ++ "\n"
  | .complaint _ => ""

/-- What is written to the error stream. -/
def complained : Output → String
  | .answer _ => ""
  | .complaint line => line ++ "\n"

end Output

namespace Transcript

/-- The run that ends because of wrong options. -/
def refused (reason : String) : Transcript := ⟨"", "Error: " ++ Text.quoted reason ++ "\n", 1⟩

/-- The run that answers lines. -/
def ofReplies (replies : List (List Output)) : Transcript where
  output := prompt ++
    String.join (replies.map fun r => String.join (r.map Output.answered) ++ prompt)
  errors := String.join (replies.map fun r => String.join (r.map Output.complained))
  code := 0

end Transcript

/-- Identities that are numbered from `base` on. -/
def numbered (base : BitVec 128) (n : Nat) : RollId := ⟨base + BitVec.ofNat 128 n⟩

/-- What a session is held with, under some options. -/
def setting (options : Options) (identities : Nat → RollId) (clock : Nat → Instant) :
    Setting Random.Keystream :=
  ⟨Random.seeded, options.limit, identities, clock⟩

/-- What a run writes for the words of a command line and the bytes of its input; `seed` is used
where the command line chooses none. -/
def run (seed : UInt64) (identities : Nat → RollId) (clock : Nat → Instant)
    (arguments : List String) (input : List UInt8) : Transcript :=
  match Options.standard.ofArguments arguments with
  | .error reason => .refused reason
  | .ok options =>
    let stream := Random.Keystream.ofSeed ((options.seed.map UInt64.ofNat).getD seed)
    let session := Session.start stream
    .ofReplies (session.replies (setting options identities clock) (Text.lines input)).1

end DiceNotation.Console
