import Lox.Environment.Forest
import Lox.Interpreter
import Lox.Main
import Lox.Session
import Lox.Proofs.Grammar.ExpressionRule
import Lox.Proofs.Grammar.StatementRule
import Lox.Proofs.Grammar.Halting
import Lox.Proofs.Grammar.Derivation
import Lox.Proofs.Grammar.Unambiguity
import Lox.Proofs.Grammar.Soundness
import Lox.Proofs.Grammar.Completeness
import Lox.Proofs.Grammar.Exactness
import Lox.Proofs.Lines.Grammar
import Lox.Proofs.Scan.Seam
import Lox.Proofs.Lines.Execution
import Lox.Proofs.Grammar.ProperTree
import Lox.Proofs.Scan.Ending
import Lox.Proofs.Scan.Lines
import Lox.Proofs.Execution.Safety
import Lox.Proofs.Run.Reading
import Lox.Proofs.Execution.Sequence
import Lox.Proofs.Run.Outcome
import Lox.Proofs.Run.Joined
import Lox.Proofs.Run.Totality
import Lox.Proofs.Reporter.Collected
import Lox.Proofs.Reporter.Holding
import Lox.Proofs.Run.Gate
import Lox.Proofs.Grammar.Extension
import Lox.Proofs.Grammar.Chunk
import Lox.Proofs.Cursor.Steps
import Lox.Proofs.Scan.Lossless
import Lox.Proofs.Reporter.Highlight
import Lox.Proofs.Scope.Holder
import Lox.Proofs.Scope.Watch
import Lox.Proofs.Scope.Completed
import Lox.Proofs.Environment.Chain
import Lox.Proofs.Environment.History
import Lox.Proofs.Scope.Discipline
import Lox.Proofs.Scope.Wrapped
import Lox.Proofs.Scope.Renamed
import Lox.Proofs.Scope.Lookup
import Lox.Proofs.Scan.Written
import Lox.Proofs.Scan.Joining
import Lox.Proofs.Tree.Written
import Lox.Proofs.Grammar.Recovery
import Lox.Proofs.Grammar.Relaxed
import Lox.Proofs.Grammar.RelaxedSoundness
import Lox.Proofs.Grammar.FirstError
import Lox.Proofs.Run.Displayed
import Lox.Proofs.Execution.Depth
import Lox.Proofs.Execution.Alike
import Lox.Proofs.Execution.Locality
import Lox.Proofs.Run.Diagnostics
import Lox.Proofs.Run.Layout
import Lox.Proofs.Prompt.Lines
import Lox.Proofs.Session.Delivery
import Lox.Proofs.Session.Accumulation
import Lox.Proofs.Session.Switches
import Lox.Proofs.Execution.Postorder
import Lox.Proofs.Tree.Parenthesized
import Lox.Proofs.Grammar.Parenthesized
import Lox.Proofs.Grammar.MissingSemicolon
import Lox.Proofs.Grammar.Blame
import Lox.Proofs.Scan.LineEnds
import Lox.Proofs.Scan.Comments
import Lox.Proofs.Scan.Pattern
import Lox.Proofs.Scan.Alternation
import Lox.Proofs.Scan.Lexemes
import Lox.Proofs.Tree.Form
import Lox.Proofs.Tree.Scanned
import Lox.Proofs.Tree.TreeForm
import Lox.Proofs.Tree.ReadBack
import Lox.Proofs.Grammar.ScannedTree
import Lox.Proofs.Run.Dumped
