import StackSeq.Check
import StackSeq.CommandLine
import StackSeq.CommandLine.Arguments
import StackSeq.CommandLine.Command
import StackSeq.Diagnostic
import StackSeq.File
import StackSeq.Json
import StackSeq.Json.Decode
import StackSeq.Json.Reader
import StackSeq.Main
import StackSeq.Op
import StackSeq.Problem
import StackSeq.Problem.Form
import StackSeq.Problem.Token
import StackSeq.Program
import StackSeq.Program.Form
import StackSeq.Program.Identifier
import StackSeq.Program.Mnemonic
import StackSeq.Prompt
import StackSeq.Prompt.Label
import StackSeq.Prompt.Layout
import StackSeq.Prompt.Response
import StackSeq.Prompt.Template
import StackSeq.Random
import StackSeq.Rational
import StackSeq.Rational.Literal
import StackSeq.Run
import StackSeq.Search
import StackSeq.Sequence
import StackSeq.Settings
import StackSeq.Settings.File
import StackSeq.Stack
import StackSeq.Symbolic.Exploration
import StackSeq.Symbolic.Expr
import StackSeq.Symbolic.ExprSet
import StackSeq.Symbolic.Stack
import StackSeq.Text.Alphanumeric
import StackSeq.Text.Base64Url
import StackSeq.Text.Pieces
import StackSeq.Text.Numeral
import StackSeq.Proofs.Text.Words
import StackSeq.Proofs.Text.Decimal
import StackSeq.Proofs.Text.Numeral
import StackSeq.Proofs.Text.Lines
import StackSeq.Proofs.Json.Scalar
import StackSeq.Proofs.Json.RoundTrip
import StackSeq.Proofs.Json.Members
import StackSeq.Proofs.Rational.Neutral
import StackSeq.Proofs.Rational.Exact
import StackSeq.Proofs.Rational.Register
import StackSeq.Proofs.Rational.Order
import StackSeq.Proofs.Rational.Literal
import StackSeq.Proofs.Symbolic.Order
import StackSeq.Proofs.Symbolic.Fold
import StackSeq.Proofs.Symbolic.Values
import StackSeq.Proofs.Run.Trace
import StackSeq.Proofs.Run.Underflow
import StackSeq.Proofs.Symbolic.Invariant
import StackSeq.Proofs.Symbolic.Execute
import StackSeq.Proofs.Symbolic.Path
import StackSeq.Proofs.Symbolic.Simulation
import StackSeq.Proofs.Symbolic.Coverage
import StackSeq.Proofs.Symbolic.Soundness
import StackSeq.Proofs.Sequence.Growth
import StackSeq.Proofs.Sequence.Recurrence
import StackSeq.Proofs.Sequence.Text
import StackSeq.Proofs.Settings.Accepted
import StackSeq.Proofs.Settings.File
import StackSeq.Proofs.Symbolic.Constancy
import StackSeq.Proofs.Symbolic.Semilattice
import StackSeq.Proofs.Symbolic.Origin
import StackSeq.Proofs.Problem.Token
import StackSeq.Proofs.Problem.Answer
import StackSeq.Proofs.Problem.Bounds
import StackSeq.Proofs.Program.Identifier
import StackSeq.Proofs.Program.Enumeration
import StackSeq.Proofs.Program.Text
import StackSeq.Proofs.Program.Branch
import StackSeq.Proofs.Program.Grammar
import StackSeq.Proofs.Search.Specification
import StackSeq.Proofs.Search.Candidates
import StackSeq.Proofs.Search.Families
import StackSeq.Proofs.Search.Groups
import StackSeq.Proofs.Search.Problems
import StackSeq.Proofs.Search.WellPosed
import StackSeq.Proofs.Search.Reports
import StackSeq.Proofs.Prompt.Label
import StackSeq.Proofs.Prompt.Response
import StackSeq.Proofs.Prompt.Layout
import StackSeq.Proofs.Prompt.Grading
import StackSeq.Proofs.Prompt.Template
import StackSeq.Proofs.Run.Machine
import StackSeq.Proofs.Prompt.Marker
import StackSeq.Proofs.Prompt.Assembly
import StackSeq.Proofs.Symbolic.Text
import StackSeq.Proofs.Rational.Reading
import StackSeq.Proofs.Symbolic.Representation
