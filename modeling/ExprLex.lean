import ExprLex.Command.Options
import ExprLex.Command.Report
import ExprLex.Command.Run
import ExprLex.Cursor
import ExprLex.Exchange
import ExprLex.Fault
import ExprLex.Grammar.Catalogue
import ExprLex.Grammar.Name
import ExprLex.Grammar.Number
import ExprLex.Grammar.Proposal
import ExprLex.Grammar.Quotation
import ExprLex.Json.Parsed
import ExprLex.Json.Value
import ExprLex.Limits
import ExprLex.LineIndex
import ExprLex.Literal.Binary
import ExprLex.Literal.Decimal
import ExprLex.Literal.Digits
import ExprLex.Literal.Value
import ExprLex.Log.Code
import ExprLex.Log.Event
import ExprLex.Log.Level
import ExprLex.Log.Service
import ExprLex.Main
import ExprLex.Position
import ExprLex.Proofs.Command
import ExprLex.Proofs.Command.Arguments
import ExprLex.Proofs.Command.Table
import ExprLex.Proofs.Cursor
import ExprLex.Proofs.Exchange
import ExprLex.Proofs.Grammar.Flaw
import ExprLex.Proofs.Grammar.Foreign
import ExprLex.Proofs.Grammar.Fragment
import ExprLex.Proofs.Grammar.Language
import ExprLex.Proofs.Grammar.Longest
import ExprLex.Proofs.Grammar.Matching
import ExprLex.Proofs.Grammar.MaximalMunch
import ExprLex.Proofs.Grammar.Name
import ExprLex.Proofs.Grammar.Number
import ExprLex.Proofs.Grammar.Opening
import ExprLex.Proofs.Grammar.Overlap
import ExprLex.Proofs.Grammar.Precedence
import ExprLex.Proofs.Grammar.Quotation
import ExprLex.Proofs.Grammar.Real
import ExprLex.Proofs.Grammar.Reserved
import ExprLex.Proofs.Grammar.Selection
import ExprLex.Proofs.Grammar.Separation
import ExprLex.Proofs.Json.Reading
import ExprLex.Proofs.Json.Scalars
import ExprLex.Proofs.Limits
import ExprLex.Proofs.LineIndex
import ExprLex.Proofs.Literal.Decoding
import ExprLex.Proofs.Literal.Integer
import ExprLex.Proofs.Literal.Number
import ExprLex.Proofs.Literal.Quoting
import ExprLex.Proofs.Literal.Real
import ExprLex.Proofs.Literal.Rounding
import ExprLex.Proofs.Log.Memory
import ExprLex.Proofs.Pieces
import ExprLex.Proofs.Position
import ExprLex.Proofs.Report
import ExprLex.Proofs.Scan.Appending
import ExprLex.Proofs.Scan.Bounds
import ExprLex.Proofs.Scan.Consumers
import ExprLex.Proofs.Scan.Emission
import ExprLex.Proofs.Scan.Failure
import ExprLex.Proofs.Scan.Feed
import ExprLex.Proofs.Scan.Metrics
import ExprLex.Proofs.Scan.Places
import ExprLex.Proofs.Scan.Reach
import ExprLex.Proofs.Scan.Run
import ExprLex.Proofs.Scan.Safety
import ExprLex.Proofs.Scan.Session
import ExprLex.Proofs.Scan.Spacing
import ExprLex.Proofs.Scan.Tiling
import ExprLex.Proofs.Scan.Words
import ExprLex.Proofs.Stream.Reading
import ExprLex.Proofs.Stream.Walk
import ExprLex.Proofs.Text.Bytes
import ExprLex.Proofs.Text.Clip
import ExprLex.Scan.Feed
import ExprLex.Scan.Metrics
import ExprLex.Scan.Problem
import ExprLex.Scan.Scanner
import ExprLex.Settings
import ExprLex.SourceFile.Folder
import ExprLex.SourceFile.Load
import ExprLex.Span
import ExprLex.Stream.Basic
import ExprLex.Stream.Check
import ExprLex.Stream.Tokenize
import ExprLex.Text.Blank
import ExprLex.Text.Bytes
import ExprLex.Text.Extending
import ExprLex.Text.Flips
import ExprLex.Text.Layout
import ExprLex.Text.Printable
import ExprLex.Text.Quoted
import ExprLex.Token.Basic
import ExprLex.Token.Kind
import ExprLex.Token.Word
