import Lexis.Command.Arguments
import Lexis.Command.Failure
import Lexis.Command.FileTree
import Lexis.Command.Outcome
import Lexis.Command.Path
import Lexis.Command.Plan
import Lexis.Command.Run
import Lexis.Command.Sample
import Lexis.Command.Suggestion
import Lexis.Command.Usage
import Lexis.Cursor
import Lexis.Diagnostic.Diagnostics
import Lexis.Diagnostic.Fault
import Lexis.Item
import Lexis.Json.Value
import Lexis.Lexeme
import Lexis.Lexer.Basic
import Lexis.Lexer.Scan
import Lexis.Lexer.Stream
import Lexis.Location
import Lexis.Log
import Lexis.Main
import Lexis.Options
import Lexis.Proofs.Accounts
import Lexis.Proofs.Blanking
import Lexis.Proofs.Command.Caret
import Lexis.Proofs.Command.Input
import Lexis.Proofs.Command.Json
import Lexis.Proofs.Command.LineCount
import Lexis.Proofs.Command.Output
import Lexis.Proofs.Command.Path
import Lexis.Proofs.Command.Report
import Lexis.Proofs.Command.Shown
import Lexis.Proofs.Command.StandardInput
import Lexis.Proofs.Command.Task
import Lexis.Proofs.Command.Warning
import Lexis.Proofs.CommentSearch
import Lexis.Proofs.Cursor
import Lexis.Proofs.Decomposition
import Lexis.Proofs.Diagnostic.History
import Lexis.Proofs.Diagnostics
import Lexis.Proofs.Excerpt
import Lexis.Proofs.Independence
import Lexis.Proofs.Interleaving
import Lexis.Proofs.Item.Collect
import Lexis.Proofs.Item.First
import Lexis.Proofs.Item.Form
import Lexis.Proofs.Item.Fusion
import Lexis.Proofs.Item.Split
import Lexis.Proofs.Json.Reader
import Lexis.Proofs.Json.RoundTrip
import Lexis.Proofs.Json.Text
import Lexis.Proofs.Json.Value
import Lexis.Proofs.Lexer.Faults
import Lexis.Proofs.Lexer.Log
import Lexis.Proofs.Lexer.Loop
import Lexis.Proofs.Lexer.Names
import Lexis.Proofs.Lexer.Next
import Lexis.Proofs.Lexer.Onlooker
import Lexis.Proofs.Lexer.Records
import Lexis.Proofs.Lexer.Run
import Lexis.Proofs.Lexer.Warnings
import Lexis.Proofs.LineBreak
import Lexis.Proofs.LineEndings
import Lexis.Proofs.Lookahead
import Lexis.Proofs.Mark
import Lexis.Proofs.OpenComment
import Lexis.Proofs.Options
import Lexis.Proofs.Position
import Lexis.Proofs.Progress
import Lexis.Proofs.Recovery
import Lexis.Proofs.Relexing
import Lexis.Proofs.Remainder
import Lexis.Proofs.ReservedWord
import Lexis.Proofs.Scanning
import Lexis.Proofs.Session.Invariant
import Lexis.Proofs.Session.Onlooker
import Lexis.Proofs.Session.Run
import Lexis.Proofs.Session.Trace
import Lexis.Proofs.Skipping
import Lexis.Proofs.Stability
import Lexis.Proofs.Text.ControlSequence
import Lexis.Proofs.Text.Decimal
import Lexis.Proofs.Text.Disjoint
import Lexis.Proofs.Text.Hex
import Lexis.Proofs.Text.LineEnding
import Lexis.Proofs.Text.Lines
import Lexis.Proofs.Text.Numeral
import Lexis.Proofs.Text.Printable
import Lexis.Proofs.Text.Quoted
import Lexis.Proofs.Text.Utf8.Character
import Lexis.Proofs.Text.Utf8.Decode
import Lexis.Proofs.Token.Listing
import Lexis.Proofs.Token.Print
import Lexis.Session.Basic
import Lexis.Session.Step
import Lexis.Text.CharClass
import Lexis.Text.ControlSequence
import Lexis.Text.DecimalDigit
import Lexis.Text.Hex
import Lexis.Text.Letter
import Lexis.Text.LineEnding
import Lexis.Text.Numeral
import Lexis.Text.Printable
import Lexis.Text.Quoted
import Lexis.Text.Space
import Lexis.Text.Utf8
import Lexis.Token.Basic
import Lexis.Token.Json
import Lexis.Token.Keyword
import Lexis.Token.Kind
import Lexis.Token.Listing
import Lexis.Trivia
