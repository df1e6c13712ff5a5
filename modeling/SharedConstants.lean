import SharedConstants.Command.CharacterSet
import SharedConstants.Command.Completion
import SharedConstants.Command.Concatenate
import SharedConstants.Command.Execution
import SharedConstants.Command.Number
import SharedConstants.Command.Octets
import SharedConstants.Command.Options
import SharedConstants.Command.Quoting
import SharedConstants.Command.Replace
import SharedConstants.Command.Sort
import SharedConstants.Command.SortKey
import SharedConstants.Command.Standard
import SharedConstants.Command.VersionOrder
import SharedConstants.Command.Wait
import SharedConstants.CommandLine.Arguments
import SharedConstants.CommandLine.Invocation
import SharedConstants.CommandLine.Run
import SharedConstants.Constant
import SharedConstants.Constant.Graph
import SharedConstants.Constant.Resolution
import SharedConstants.Decimal.Digits
import SharedConstants.Decimal.Layout
import SharedConstants.Decimal.Reader
import SharedConstants.Decimal.Shortest
import SharedConstants.Diagnostic
import SharedConstants.Diagnostic.Code
import SharedConstants.Diagnostic.Fault
import SharedConstants.Diagnostic.Misuse
import SharedConstants.Diagnostic.Report
import SharedConstants.Document.Constants
import SharedConstants.Document.Datum
import SharedConstants.Document.Options
import SharedConstants.Document.Section
import SharedConstants.Emission
import SharedConstants.Expr
import SharedConstants.Expr.Draft
import SharedConstants.Expr.Evaluation
import SharedConstants.Expr.Lexeme
import SharedConstants.Expr.Nesting
import SharedConstants.Expr.Parser
import SharedConstants.FileSystem
import SharedConstants.FileSystem.Path
import SharedConstants.Format.Literal
import SharedConstants.Format.Radix
import SharedConstants.Format.Rule
import SharedConstants.Formatter
import SharedConstants.Formatter.Process
import SharedConstants.Generation
import SharedConstants.Main
import SharedConstants.Operator
import SharedConstants.Operator.Arity
import SharedConstants.Operator.Bits
import SharedConstants.Operator.Builtin
import SharedConstants.Profile
import SharedConstants.Profile.Registry
import SharedConstants.Proofs.CommandLine.Agreement
import SharedConstants.Proofs.CommandLine.Generating
import SharedConstants.Proofs.CommandLine.Loading
import SharedConstants.Proofs.Constant.CycleSearch
import SharedConstants.Proofs.Constant.Cyclicity
import SharedConstants.Proofs.Constant.Dependency
import SharedConstants.Proofs.Constant.EarliestOrder
import SharedConstants.Proofs.Constant.Equations
import SharedConstants.Proofs.Constant.EvaluationOrder
import SharedConstants.Proofs.Constant.Independence
import SharedConstants.Proofs.Constant.Inlining
import SharedConstants.Proofs.Constant.Outcome
import SharedConstants.Proofs.Constant.Range
import SharedConstants.Proofs.Constant.ReadyQueue
import SharedConstants.Proofs.Constant.Reference
import SharedConstants.Proofs.Constant.Reordering
import SharedConstants.Proofs.Constant.Residual
import SharedConstants.Proofs.Constant.Resolution
import SharedConstants.Proofs.Constant.Solution
import SharedConstants.Proofs.Constant.Stage
import SharedConstants.Proofs.Decimal.Digits
import SharedConstants.Proofs.Diagnostic.Carets
import SharedConstants.Proofs.Document.Conformance
import SharedConstants.Proofs.Document.Constants
import SharedConstants.Proofs.Document.Ending
import SharedConstants.Proofs.Document.Entry
import SharedConstants.Proofs.Document.Inside
import SharedConstants.Proofs.Document.Names
import SharedConstants.Proofs.Document.Room
import SharedConstants.Proofs.Document.Schema
import SharedConstants.Proofs.Document.Splitting
import SharedConstants.Proofs.Emission.Comments
import SharedConstants.Proofs.Emission.Layout
import SharedConstants.Proofs.Emission.Outcome
import SharedConstants.Proofs.Emission.Strictness
import SharedConstants.Proofs.Expr.Attempt
import SharedConstants.Proofs.Expr.Cutting
import SharedConstants.Proofs.Expr.Evaluation
import SharedConstants.Proofs.Expr.Failure
import SharedConstants.Proofs.Expr.FaultSpan
import SharedConstants.Proofs.Expr.Furthest
import SharedConstants.Proofs.Expr.Grammar
import SharedConstants.Proofs.Expr.Language
import SharedConstants.Proofs.Expr.Lexing
import SharedConstants.Proofs.Expr.Matching
import SharedConstants.Proofs.Expr.Nesting
import SharedConstants.Proofs.Expr.Occurrences
import SharedConstants.Proofs.Expr.Outcome
import SharedConstants.Proofs.Expr.Oversized
import SharedConstants.Proofs.Expr.Packrat
import SharedConstants.Proofs.Expr.Parts
import SharedConstants.Proofs.Expr.Places
import SharedConstants.Proofs.Expr.Position
import SharedConstants.Proofs.Expr.Preorder
import SharedConstants.Proofs.Expr.Range
import SharedConstants.Proofs.Expr.Reading
import SharedConstants.Proofs.Expr.RoundTrip
import SharedConstants.Proofs.FileSystem.Frame
import SharedConstants.Proofs.FirstOccurrence
import SharedConstants.Proofs.Format.Grouping
import SharedConstants.Proofs.Format.Injectivity
import SharedConstants.Proofs.Format.ReadBack
import SharedConstants.Proofs.Format.Spelling
import SharedConstants.Proofs.Generation.Formatting
import SharedConstants.Proofs.Generation.Interruption
import SharedConstants.Proofs.Generation.Outcomes
import SharedConstants.Proofs.Generation.Writing
import SharedConstants.Proofs.Operator.Application
import SharedConstants.Proofs.Operator.Bitwise
import SharedConstants.Proofs.Operator.Builtin
import SharedConstants.Proofs.Operator.Division
import SharedConstants.Proofs.Operator.Exact
import SharedConstants.Proofs.Operator.Failure
import SharedConstants.Proofs.Operator.OperandOrder
import SharedConstants.Proofs.Operator.Shift
import SharedConstants.Proofs.Profile.Layers
import SharedConstants.Proofs.Profile.Rendering
import SharedConstants.Proofs.Success
import SharedConstants.Proofs.Template.Escaping
import SharedConstants.Proofs.Template.Filling
import SharedConstants.Proofs.Template.Grammar
import SharedConstants.Proofs.Template.Parameters
import SharedConstants.Proofs.Text.Keyword
import SharedConstants.Proofs.Text.Lines
import SharedConstants.Proofs.Value
import SharedConstants.SemanticType
import SharedConstants.SemanticType.Registry
import SharedConstants.Shell.Arithmetic
import SharedConstants.Shell.Builtin
import SharedConstants.Shell.Child
import SharedConstants.Shell.Condition
import SharedConstants.Shell.Expansion
import SharedConstants.Shell.Field
import SharedConstants.Shell.Grammar
import SharedConstants.Shell.LineReading
import SharedConstants.Shell.Opening
import SharedConstants.Shell.Pattern
import SharedConstants.Shell.Perform
import SharedConstants.Shell.Print
import SharedConstants.Shell.Reader
import SharedConstants.Shell.Session
import SharedConstants.Shell.Signal
import SharedConstants.Shell.Tree
import SharedConstants.Template
import SharedConstants.Template.Slot
import SharedConstants.Text.Blank
import SharedConstants.Text.Digit
import SharedConstants.Text.Json
import SharedConstants.Text.Lines
import SharedConstants.Text.Printable
import SharedConstants.Text.Quoted
import SharedConstants.Text.Word
import SharedConstants.Toml
import SharedConstants.Toml.Moment
import SharedConstants.Toml.Number
import SharedConstants.Toml.Quotation
import SharedConstants.Toml.Scan
import SharedConstants.Toml.Tree
import SharedConstants.Toml.Value
import SharedConstants.Value
