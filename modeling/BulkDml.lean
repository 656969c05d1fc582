import BulkDml.Text
import BulkDml.Text.Blank
import BulkDml.Text.LetterCase
import BulkDml.Text.Lowercase
import BulkDml.Number.BinaryFormat
import BulkDml.Number.Binary64
import BulkDml.Number.Numeral
import BulkDml.Number.Shortest
import BulkDml.Number.FloatText
import BulkDml.Operator
import BulkDml.CompileError
import BulkDml.Dialect
import BulkDml.Value
import BulkDml.Expr
import BulkDml.Expr.Rendering
import BulkDml.Assignment
import BulkDml.Lexeme
import BulkDml.SourceQuery
import BulkDml.Sharding.Renaming
import BulkDml.Sharding.Pragma
import BulkDml.Statement
import BulkDml.Placeholder
import BulkDml.Session
import BulkDml.Json
import BulkDml.Json.Token
import BulkDml.Json.Reading
import BulkDml.Json.Number
import BulkDml.Value.Json
import BulkDml.Expr.Json
import BulkDml.Request
import BulkDml.Request.Json
import BulkDml.CommandLine.Arguments
import BulkDml.Database.Token
import BulkDml.Database.Clause
import BulkDml.Database.Action
import BulkDml.Database
import BulkDml.Failure
import BulkDml.CommandLine
import BulkDml.Main
import BulkDml.Proofs.Passage
import BulkDml.Proofs.QueryLayout
import BulkDml.Proofs.Preamble
import BulkDml.Proofs.WrittenQuery
import BulkDml.Proofs.LiteralText
import BulkDml.Proofs.InertText
import BulkDml.Proofs.SetClauseBinding
import BulkDml.Proofs.Term
import BulkDml.Proofs.TermReader
import BulkDml.Proofs.ArithmeticValue
import BulkDml.Proofs.ArithmeticReading
import BulkDml.Proofs.PragmaLine
import BulkDml.Proofs.RoutedStatement
import BulkDml.Proofs.TablePlaces
import BulkDml.Proofs.SegmentSplit
import BulkDml.Proofs.PlaceholderNumbering
import BulkDml.Proofs.OperandText
import BulkDml.Proofs.TermGrammar
import BulkDml.Proofs.TransactionCounters
import BulkDml.Proofs.SegmentCut
import BulkDml.Proofs.MergedBindings
import BulkDml.Proofs.HarmlessPlaces
import BulkDml.Proofs.RenamedStatement
import BulkDml.Proofs.JsonScalars
import BulkDml.Proofs.JsonDocument
import BulkDml.Proofs.Rounding
import BulkDml.Proofs.FloatNumeral
import BulkDml.Proofs.JsonNumbers
import BulkDml.Proofs.JsonRoundTrip
import BulkDml.Proofs.LeadingBlank
import BulkDml.Proofs.PieceCut
import BulkDml.Proofs.CommentedPreamble
import BulkDml.Proofs.ClauseParts
import BulkDml.Proofs.LiteralPlace
import BulkDml.Proofs.LiteralContent
import BulkDml.Proofs.ClauseNumbering
import BulkDml.Proofs.ValueIndependence
import BulkDml.Proofs.TokenPlaces
import BulkDml.Proofs.QueryGrammar
import BulkDml.Proofs.CanonicalRequest
import BulkDml.Proofs.RejectedExpressions
import BulkDml.Proofs.Qualifiers
import BulkDml.Proofs.NameRuns
import BulkDml.Proofs.StandingPlaces
import BulkDml.Proofs.RouteText
import BulkDml.Proofs.StackedPragmas
import BulkDml.Proofs.DoubledIntroducers
import BulkDml.Proofs.WholeWords
import BulkDml.Proofs.IgnoredColumns
import BulkDml.Proofs.ScannedTokens
import BulkDml.Proofs.QuotedRuns
import BulkDml.Proofs.LiteralReading
