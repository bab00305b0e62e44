import Lexis.Arguments.Basic
import Lexis.Arguments.Reader
import Lexis.Config.Basic
import Lexis.Config.Load
import Lexis.Decimal.Binary64
import Lexis.Decimal.Layout
import Lexis.Decimal.Rounding
import Lexis.Decimal.Shortest
import Lexis.Diagnostic.Basic
import Lexis.Diagnostic.Code
import Lexis.Diagnostic.Handler
import Lexis.Dump.Basic
import Lexis.Dump.Record
import Lexis.Environment
import Lexis.Failure
import Lexis.Files.Basic
import Lexis.Files.Tree
import Lexis.Json.Printer
import Lexis.Json.Value
import Lexis.Lexer.Basic
import Lexis.Lexer.Describe
import Lexis.Lexer.Reading
import Lexis.Lexer.Tokenize
import Lexis.Main
import Lexis.Proofs.Encoding
import Lexis.Proofs.Lexemes
import Lexis.Proofs.Lookahead
import Lexis.Proofs.Positions
import Lexis.Proofs.Reports
import Lexis.Proofs.Restart
import Lexis.Proofs.Spacing
import Lexis.Proofs.Symbols
import Lexis.Proofs.Tiling
import Lexis.Proofs.TokenIndex
import Lexis.Proofs.Trivia
import Lexis.Run
import Lexis.Scan.Bytes
import Lexis.Scan.Front
import Lexis.Scan.Number
import Lexis.Scan.Quoted
import Lexis.Scan.Scanned
import Lexis.Scan.Symbol
import Lexis.Scan.Trivia
import Lexis.Scan.Word
import Lexis.Session.Basic
import Lexis.Session.Report
import Lexis.Session.SourceMap
import Lexis.Source.Cursor
import Lexis.Source.Escape
import Lexis.Source.Position
import Lexis.Source.Snippet
import Lexis.Source.Span
import Lexis.Text.Escape
import Lexis.Text.Hash
import Lexis.Text.Unprintable
import Lexis.Text.Utf8
import Lexis.Token.Basic
import Lexis.Token.Fault
import Lexis.Token.Kind
import Lexis.Token.Spelling
import Lexis.Token.Value
import Lexis.Toml.Document
import Lexis.Toml.Numbers
import Lexis.Toml.Reader
import Lexis.Toml.Strings
import Lexis.Toml.Tables
import Lexis.Toml.Value
import Lexis.Toml.View
import Lexis.Proofs.Respacing
import Lexis.Proofs.Printing
import Lexis.Proofs.Paths
import Lexis.Proofs.Places
import Lexis.Proofs.Modes
import Lexis.Proofs.Sessions
import Lexis.Proofs.Outcomes
import Lexis.Proofs.Decimal.Rounding
import Lexis.Proofs.Decimal.Shortest
import Lexis.Proofs.Json.Grammar
import Lexis.Proofs.Json.Reader
import Lexis.Proofs.Json.Numbers
import Lexis.Proofs.Json.Printer
import Lexis.Proofs.Listings
import Lexis.Proofs.Excerpts
import Lexis.Proofs.Findings
import Lexis.Proofs.Quotes
import Lexis.Proofs.Decimal.Nearest
import Lexis.Proofs.Numerals
import Lexis.Proofs.Boundaries
import Lexis.Proofs.Spellings
import Lexis.Proofs.Contents
import Lexis.Proofs.Lines
import Lexis.Proofs.Values
import Lexis.Proofs.SourceLines
import Lexis.Proofs.Carets
import Lexis.Proofs.Progress
import Lexis.Proofs.Cursors
import Lexis.Proofs.Literals
import Lexis.Proofs.Hashes
