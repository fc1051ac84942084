import LineShell.Binary
import LineShell.Binary.Format
import LineShell.Coercion
import LineShell.Command
import LineShell.Command.Arguments
import LineShell.Command.Loops
import LineShell.Config
import LineShell.Decimal
import LineShell.Decimal.Layout
import LineShell.Decimal.Shortest
import LineShell.Error
import LineShell.Evaluation
import LineShell.Fault
import LineShell.Journal
import LineShell.Lexeme
import LineShell.Lexeme.Error
import LineShell.Lexeme.Escape
import LineShell.Lexeme.Reader
import LineShell.Line
import LineShell.Literal
import LineShell.Main
import LineShell.Numeral
import LineShell.Operator
import LineShell.Ratio
import LineShell.Scan
import LineShell.Session
import LineShell.Source
import LineShell.Store
import LineShell.Symbol
import LineShell.Text.Blank
import LineShell.Text.CodePoint
import LineShell.Text.Digit
import LineShell.Text.DigitProperty
import LineShell.Text.Lines
import LineShell.Text.Printable
import LineShell.Text.Quoted
import LineShell.Text.Range
import LineShell.Text.UpperCase
import LineShell.Tree
import LineShell.Tree.Attach
import LineShell.Tree.Error
import LineShell.Tree.Parser
import LineShell.Tree.Render
import LineShell.Value
import LineShell.VarType
import LineShell.Proofs.Tree.Grammar
import LineShell.Proofs.Tree.Precedence
import LineShell.Proofs.Tree.Steps
import LineShell.Proofs.Tree.Soundness
import LineShell.Proofs.Tree.Completeness
import LineShell.Proofs.Lexeme.Spelling
import LineShell.Proofs.Scan
import LineShell.Proofs.Source
import LineShell.Proofs.Lexeme.Reading
import LineShell.Proofs.Tree.Render
import LineShell.Proofs.RoundTrip
import LineShell.Proofs.Fragment.Simulation
import LineShell.Proofs.FailedLine
import LineShell.Proofs.Store.History
import LineShell.Proofs.Binary.Rounding
import LineShell.Proofs.Session.Path
import LineShell.Proofs.Session.Independence
import LineShell.Proofs.Session.Invariant
import LineShell.Proofs.Decimal.Notation
import LineShell.Proofs.Coercion.Numeral
import LineShell.Proofs.Display
import LineShell.Proofs.Session.Replay
import LineShell.Proofs.Lexeme.Continuation
import LineShell.Proofs.Scan.Append
import LineShell.Proofs.Line.Attempts
import LineShell.Proofs.Line.Comment
import LineShell.Proofs.Session.Faults
import LineShell.Proofs.Command.Transcript
import LineShell.Proofs.Evaluation.Phases
import LineShell.Proofs.Lexeme.Decoding
import LineShell.Proofs.Scan.Longest
import LineShell.Proofs.Binary.Nearest
import LineShell.Proofs.Binary.ReadBack
import LineShell.Proofs.Decimal.Grid
import LineShell.Proofs.Decimal.Digits
import LineShell.Proofs.Decimal.Fewest
import LineShell.Proofs.Scan.Compose
import LineShell.Proofs.Evaluation.Redeclaration
import LineShell.Proofs.Evaluation.Runnable
import LineShell.Proofs.Tree.Plan
import LineShell.Proofs.Tree.Lookahead
import LineShell.Proofs.Tree.Viability
import LineShell.Proofs.ErrorPosition
import LineShell.Proofs.Line.Semicolon
import LineShell.Proofs.Lexeme.Quotation
import LineShell.Proofs.Binary.Neighbours
import LineShell.Proofs.Coercion.Floating
import LineShell.Proofs.Coercion.DoubleRounding
import LineShell.Proofs.Text.Canonical
import LineShell.Proofs.Coercion.Integer
import LineShell.Proofs.Decimal.Layout
import LineShell.Proofs.Coercion.Literal
import LineShell.Proofs.Decimal.NineDigits
import LineShell.Proofs.Tree.Progress
