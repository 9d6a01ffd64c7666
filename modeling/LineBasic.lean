import LineBasic.Block
import LineBasic.Block.Parser
import LineBasic.Command
import LineBasic.CommandLine
import LineBasic.Declaration
import LineBasic.Declaration.Columns
import LineBasic.Declaration.Condition
import LineBasic.Declaration.Layout
import LineBasic.Declaration.Layout.Statement
import LineBasic.Declaration.Layout.Term
import LineBasic.Declaration.Lexeme
import LineBasic.Declaration.Note
import LineBasic.Declaration.NoteText
import LineBasic.Declaration.Page
import LineBasic.Declaration.Page.Notes
import LineBasic.Declaration.Parser
import LineBasic.Declaration.Parser.Statement
import LineBasic.Declaration.Parser.Term
import LineBasic.Declaration.Parser.Type
import LineBasic.Declaration.Place
import LineBasic.Declaration.Prose
import LineBasic.Declaration.Writer
import LineBasic.Digits
import LineBasic.Document.Lexer
import LineBasic.Document.Node
import LineBasic.Document.Scalar
import LineBasic.Document.Source
import LineBasic.Document.Token
import LineBasic.Double
import LineBasic.Double.Decimal
import LineBasic.Double.Print
import LineBasic.Double.Read
import LineBasic.Env
import LineBasic.Expr
import LineBasic.Expr.Parser
import LineBasic.Failure
import LineBasic.FileTree
import LineBasic.Flags
import LineBasic.Input
import LineBasic.Integer
import LineBasic.LabelTable
import LineBasic.Log
import LineBasic.Machine
import LineBasic.Main
import LineBasic.NodeFamily
import LineBasic.Operator
import LineBasic.Program
import LineBasic.Program.Listing
import LineBasic.Proofs.Block.Completeness
import LineBasic.Proofs.Block.Grammar
import LineBasic.Proofs.Block.Joined
import LineBasic.Proofs.Block.Lookahead
import LineBasic.Proofs.Block.Meaning
import LineBasic.Proofs.Block.PrintList
import LineBasic.Proofs.Block.Reline
import LineBasic.Proofs.Block.Soundness
import LineBasic.Proofs.CommandLine.Agreement
import LineBasic.Proofs.CommandLine.Diagnostics
import LineBasic.Proofs.CommandLine.Lines
import LineBasic.Proofs.CommandLine.LogLevel
import LineBasic.Proofs.Digits
import LineBasic.Proofs.Double.Decimal
import LineBasic.Proofs.Double.Grid
import LineBasic.Proofs.Double.Integer
import LineBasic.Proofs.Double.Nearest
import LineBasic.Proofs.Double.Numeral
import LineBasic.Proofs.Double.Print
import LineBasic.Proofs.Double.Read
import LineBasic.Proofs.Double.RoundTrip
import LineBasic.Proofs.Expr.Evaluation
import LineBasic.Proofs.Expr.Kinds
import LineBasic.Proofs.Expr.Layered
import LineBasic.Proofs.Expr.Lookahead
import LineBasic.Proofs.Expr.Parser
import LineBasic.Proofs.Input
import LineBasic.Proofs.LabelTable
import LineBasic.Proofs.LabelTable.History
import LineBasic.Proofs.Machine.Calls
import LineBasic.Proofs.Machine.Check
import LineBasic.Proofs.Machine.Fault
import LineBasic.Proofs.Machine.Limit
import LineBasic.Proofs.Machine.Location
import LineBasic.Proofs.Machine.Logger
import LineBasic.Proofs.Machine.Loops
import LineBasic.Proofs.Machine.Observation
import LineBasic.Proofs.Machine.Path
import LineBasic.Proofs.Machine.Reception
import LineBasic.Proofs.Machine.Rollback
import LineBasic.Proofs.Machine.Run
import LineBasic.Proofs.Machine.Safety
import LineBasic.Proofs.Machine.Simulation
import LineBasic.Proofs.Machine.Termination
import LineBasic.Proofs.Machine.Transfer
import LineBasic.Proofs.NodeFamily.Declarations
import LineBasic.Proofs.NodeFamily.Definition
import LineBasic.Proofs.Program.Acceptance
import LineBasic.Proofs.Program.Joined
import LineBasic.Proofs.Program.Lines
import LineBasic.Proofs.Program.Listing
import LineBasic.Proofs.Program.Nesting
import LineBasic.Proofs.Program.Placement
import LineBasic.Proofs.Program.Precedence
import LineBasic.Proofs.Program.Targets
import LineBasic.Proofs.Program.WellFormed
import LineBasic.Proofs.Table
import LineBasic.Proofs.Text.Glyph
import LineBasic.Proofs.Text.Repair
import LineBasic.Proofs.Text.Trim
import LineBasic.Proofs.Token.Lines
import LineBasic.Proofs.Token.Piece
import LineBasic.Proofs.Token.Quotation
import LineBasic.Proofs.Token.Reserved
import LineBasic.Proofs.Token.Scan
import LineBasic.Proofs.Token.Spacing
import LineBasic.Proofs.Token.Spelling
import LineBasic.Settings
import LineBasic.Settings.Load
import LineBasic.Text
import LineBasic.Text.Base64
import LineBasic.Text.CodeRange
import LineBasic.Text.Glyph
import LineBasic.Text.Graphic
import LineBasic.Text.Letter
import LineBasic.Text.Quoted
import LineBasic.Text.SmallLetter
import LineBasic.Token
import LineBasic.Token.Lexer
import LineBasic.Value
