import PlaylistRules.Calendar.Date
import PlaylistRules.Calendar.Instant
import PlaylistRules.Calendar.Reading
import PlaylistRules.Catalog.Entity
import PlaylistRules.Catalog.Field
import PlaylistRules.Catalog.Library
import PlaylistRules.Catalog.Schema
import PlaylistRules.Command.Arguments
import PlaylistRules.Command.Run
import PlaylistRules.Json.Basic
import PlaylistRules.Json.Escaped
import PlaylistRules.Json.Fault
import PlaylistRules.Json.Numeral
import PlaylistRules.Json.Printer
import PlaylistRules.Json.Reader
import PlaylistRules.Main
import PlaylistRules.Number.Binary64
import PlaylistRules.Number.Extended
import PlaylistRules.Number.Integer
import PlaylistRules.Number.Layout
import PlaylistRules.Number.Rounding
import PlaylistRules.Number.Shortest
import PlaylistRules.Output.Format
import PlaylistRules.Output.Table
import PlaylistRules.Proofs.Calendar.DayNumbers
import PlaylistRules.Proofs.Calendar.Order
import PlaylistRules.Proofs.Calendar.Reading
import PlaylistRules.Proofs.Calendar.Shown
import PlaylistRules.Proofs.Catalog.Declaration
import PlaylistRules.Proofs.Catalog.Paths
import PlaylistRules.Proofs.Catalog.Resolution
import PlaylistRules.Proofs.Catalog.Validity
import PlaylistRules.Proofs.Command.Limit
import PlaylistRules.Proofs.Json.Agreement
import PlaylistRules.Proofs.Json.Canonical
import PlaylistRules.Proofs.Json.Decimals
import PlaylistRules.Proofs.Json.Grammar
import PlaylistRules.Proofs.Json.Indented
import PlaylistRules.Proofs.Json.Members
import PlaylistRules.Proofs.Json.Numeral
import PlaylistRules.Proofs.Json.Printing
import PlaylistRules.Proofs.Json.Quoted
import PlaylistRules.Proofs.Json.Reading
import PlaylistRules.Proofs.Json.Scaling
import PlaylistRules.Proofs.Json.Values
import PlaylistRules.Proofs.Number.Errors
import PlaylistRules.Proofs.Number.Grid
import PlaylistRules.Proofs.Number.Integers
import PlaylistRules.Proofs.Number.Magnitude
import PlaylistRules.Proofs.Number.Nearest
import PlaylistRules.Proofs.Number.Operations
import PlaylistRules.Proofs.Number.Padded
import PlaylistRules.Proofs.Number.Powers
import PlaylistRules.Proofs.Number.Shortest
import PlaylistRules.Proofs.Outcome
import PlaylistRules.Proofs.Output.Data
import PlaylistRules.Proofs.Output.Lines
import PlaylistRules.Proofs.Output.Literals
import PlaylistRules.Proofs.Output.Statement
import PlaylistRules.Proofs.Query.Compiled
import PlaylistRules.Proofs.Query.EmptyGroups
import PlaylistRules.Proofs.Query.Errors
import PlaylistRules.Proofs.Query.FirstDefect
import PlaylistRules.Proofs.Query.Locations
import PlaylistRules.Proofs.Query.Names
import PlaylistRules.Proofs.Query.Noninterference
import PlaylistRules.Proofs.Query.Parentheses
import PlaylistRules.Proofs.Query.Placeholders
import PlaylistRules.Proofs.Query.QuestionMarks
import PlaylistRules.Proofs.Query.QuotedNames
import PlaylistRules.Proofs.Query.Reading
import PlaylistRules.Proofs.Query.Reloading
import PlaylistRules.Proofs.Query.Unambiguous
import PlaylistRules.Proofs.Query.WellFormed
import PlaylistRules.Proofs.Record.Decoding
import PlaylistRules.Proofs.Record.Format
import PlaylistRules.Proofs.Record.Grammar
import PlaylistRules.Proofs.Record.Locations
import PlaylistRules.Proofs.Record.Reading
import PlaylistRules.Proofs.Record.RoundTrip
import PlaylistRules.Proofs.Record.Values
import PlaylistRules.Proofs.Related
import PlaylistRules.Proofs.Rule.Cutoffs
import PlaylistRules.Proofs.Rule.Defects
import PlaylistRules.Proofs.Rule.Records
import PlaylistRules.Proofs.Rule.Storing
import PlaylistRules.Proofs.Rule.Subgroups
import PlaylistRules.Proofs.Store.Correlation
import PlaylistRules.Proofs.Store.Limits
import PlaylistRules.Proofs.Store.Execution
import PlaylistRules.Proofs.Store.Library
import PlaylistRules.Proofs.Store.Meaning
import PlaylistRules.Proofs.Store.Opposites
import PlaylistRules.Proofs.Store.Patterns
import PlaylistRules.Proofs.Store.Scope
import PlaylistRules.Proofs.Store.Tables
import PlaylistRules.Proofs.Store.Timestamps
import PlaylistRules.Proofs.Text.Separated
import PlaylistRules.Proofs.Text.Tokens
import PlaylistRules.Proofs.Text.Trim
import PlaylistRules.Proofs.Traversal
import PlaylistRules.Query.Basic
import PlaylistRules.Query.Compile
import PlaylistRules.Query.Predicate
import PlaylistRules.Query.Statement
import PlaylistRules.Record.Basic
import PlaylistRules.Record.Printer
import PlaylistRules.Record.Reader
import PlaylistRules.Rule.Error
import PlaylistRules.Rule.Operator
import PlaylistRules.Rule.Scope
import PlaylistRules.Rule.Tree
import PlaylistRules.Scalar
import PlaylistRules.Store.Compare
import PlaylistRules.Store.Database
import PlaylistRules.Store.Depth
import PlaylistRules.Store.Execute
import PlaylistRules.Store.Limits
import PlaylistRules.Store.Numeral
import PlaylistRules.Store.Table
import PlaylistRules.Store.Value
import PlaylistRules.Store.Visit
import PlaylistRules.Text.Blank
import PlaylistRules.Text.Hidden
import PlaylistRules.Text.Mark
import PlaylistRules.Text.Quoted
import PlaylistRules.Text.Range
import PlaylistRules.Text.Shown
import PlaylistRules.Text.Width
