import RSource.Text.Bytes
import RSource.Text.Span
import RSource.Text.Lines
import RSource.Pattern
import RSource.Token
import RSource.Token.Rules
import RSource.Token.Lexer
import RSource.Cursor
import RSource.Operator
import RSource.Problem
import RSource.Tree
import RSource.Grammar.Reader
import RSource.Grammar.Scope
import RSource.Grammar.Argument
import RSource.Grammar.Construct
import RSource.Grammar.Expression
import RSource.Arena
import RSource.Document
import RSource.Session
import RSource.Text.Hidden
import RSource.Text.Quoted
import RSource.Token.Listing
import RSource.Text.Blank
import RSource.Text.LowerCase
import RSource.Text.Utf8
import RSource.Json
import RSource.Toml
import RSource.Toml.Reader
import RSource.Setting
import RSource.Settings
import RSource.Settings.Source
import RSource.Report
import RSource.CommandLine
import RSource.Main
import RSource.Decimal.Shortest
import RSource.Decimal.Text
import RSource.Value
import RSource.Evaluation
import RSource.Snapshot
import RSource.Outline
import RSource.Expectation
import RSource.Proofs.Grammar.Consumption
import RSource.Proofs.Grammar.Soundness
import RSource.Proofs.Token.Places
import RSource.Proofs.Token.LongestMatch
import RSource.Proofs.Program
import RSource.Proofs.Tree.Subtrees
import RSource.Proofs.Arena.Storage
import RSource.Proofs.Leaves
import RSource.Proofs.Operator
import RSource.Proofs.Tree.Problems
import RSource.Proofs.Grouping
import RSource.Proofs.Chain.Reference
import RSource.Proofs.Token.Words
import RSource.Proofs.Chain.Reading
import RSource.Proofs.Token.Spaced
import RSource.Proofs.Chain
import RSource.Proofs.Tree.Exposure
import RSource.Proofs.Grammar.Built
import RSource.Proofs.Grammar.Listed
import RSource.Proofs.Semicolon.Edges
import RSource.Proofs.Semicolon
import RSource.Proofs.Token.Stream
import RSource.Proofs.Text.Slices
import RSource.Proofs.Token.Coverage
import RSource.Proofs.Arena.Shown
import RSource.Proofs.Grammar.Shape
import RSource.Proofs.Gaps
import RSource.Proofs.Grammar.Determinism
import RSource.Proofs.Grammar.Edit
import RSource.Proofs.Grammar.Edited
import RSource.Proofs.Grammar.Extent
import RSource.Proofs.LineBreaks
import RSource.Proofs.Tree.Shift
import RSource.Proofs.Grammar.Relocation
import RSource.Proofs.Token.Restart
import RSource.Proofs.Grammar.Balance
import RSource.Proofs.Snapshots
import RSource.Proofs.Concatenation
import RSource.Proofs.Term.Tokens
import RSource.Proofs.Term.Reading
import RSource.Proofs.Term
import RSource.Proofs.Arena.Ownership
import RSource.Proofs.Grammar.Anchors
import RSource.Proofs.Spans
import RSource.Proofs.Checked.Routines
import RSource.Proofs.Checked.Steps
import RSource.Proofs.Checked.Nodes
import RSource.Proofs.Checked.Phrases
import RSource.Proofs.Checked.Constructs
import RSource.Proofs.Checked.Following
import RSource.Proofs.Checked.Program
import RSource.Proofs.Text.Lines
import RSource.Proofs.Checked.Views
import RSource.Proofs.Totality
import RSource.Proofs.Grammar.Levels
import RSource.Proofs.Nesting
import RSource.Proofs.Token.Maximal
import RSource.Proofs.Token.Findings
import RSource.Proofs.Token.Windows
import RSource.Proofs.Token.Emission
import RSource.Proofs.Checked.Calls
import RSource.Proofs.Frame
import RSource.Proofs.Progress
import RSource.Proofs.Problems
import RSource.Proofs.Separation
import RSource.Proofs.Grammar.Carried
import RSource.Proofs.Recovery
import RSource.Proofs.Token.Signs
import RSource.Proofs.DanglingElse
import RSource.Proofs.LeadingOperators
import RSource.Proofs.Schema.Layouts
import RSource.Proofs.Schema
import RSource.Proofs.Arena.Blocks
import RSource.Proofs.Grammar.Enclosed
import RSource.Proofs.Bodies
import RSource.Proofs.Comments
import RSource.Proofs.NodeAt
import RSource.Proofs.Token.Unknown
import RSource.Proofs.Token.Closed
import RSource.Proofs.Grammar.Layers
import RSource.Proofs.DeepNesting
import RSource.Proofs.Positions
import RSource.Proofs.Text.EndedLines
import RSource.Proofs.Outline.Rows
import RSource.Proofs.Outline
import RSource.Proofs.Text.Quoting
import RSource.Proofs.Token.Listing
import RSource.Proofs.Walk
import RSource.Proofs.Lookahead
