import DiceNotation.Console.Transcript
import DiceNotation.Main
import DiceNotation.Expr.Printer
import DiceNotation.Source.Scripted
import DiceNotation.Stored.Roll
import DiceNotation.Proofs.Source.Rule
import DiceNotation.Proofs.Eval.Trace
import DiceNotation.Proofs.Bounds.Interval
import DiceNotation.Proofs.Eval.Bracket
import DiceNotation.Proofs.Eval.Replay
import DiceNotation.Proofs.Grammar.Derivation
import DiceNotation.Proofs.Grammar.Step
import DiceNotation.Proofs.Grammar.Complete
import DiceNotation.Proofs.Grammar.Recognition
import DiceNotation.Proofs.Token.Spelling
import DiceNotation.Proofs.Expr.Canonical
import DiceNotation.Proofs.Expr.RoundTrip
import DiceNotation.Proofs.Grammar.Viable
import DiceNotation.Proofs.Token.Place
import DiceNotation.Proofs.Expr.FirstFault
import DiceNotation.Proofs.Eval.Independence
import DiceNotation.Proofs.Bounds.Attained
import DiceNotation.Proofs.Eval.Redraw
import DiceNotation.Proofs.Eval.Limit
import DiceNotation.Proofs.Selection.Order
import DiceNotation.Proofs.Eval.Blocks
import DiceNotation.Proofs.History.Run
import DiceNotation.Proofs.History.Children
import DiceNotation.Proofs.History.Lineage
import DiceNotation.Proofs.Outcome.Exact
import DiceNotation.Proofs.Eval.Exact
import DiceNotation.Proofs.Token.Respelling
import DiceNotation.Proofs.Expr.Respelling
import DiceNotation.Proofs.Console.Course
import DiceNotation.Proofs.Console.Lineage
import DiceNotation.Proofs.Console.Idle
import DiceNotation.Proofs.History.Growth
import DiceNotation.Proofs.Selection.Ranking
import DiceNotation.Proofs.Grammar.Outline
import DiceNotation.Proofs.Expr.Limits
import DiceNotation.Proofs.Expr.Expected
import DiceNotation.Proofs.Expr.Continuation
import DiceNotation.Proofs.Expr.Parentheses
import DiceNotation.Proofs.Eval.Raised
import DiceNotation.Proofs.Random.Uniform
import DiceNotation.Proofs.Instant.RoundTrip
import DiceNotation.Proofs.RollId.RoundTrip
import DiceNotation.Proofs.Stored.RoundTrip
import DiceNotation.Proofs.Token.Partition
import DiceNotation.Proofs.Descent.Agreement
