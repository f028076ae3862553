import SchemaSketch.Cli.Invocation
import SchemaSketch.Cli.Options
import SchemaSketch.Cli.Run
import SchemaSketch.Cli.Scope
import SchemaSketch.Decimal.Binary64
import SchemaSketch.Design.Assembly
import SchemaSketch.Design.Basic
import SchemaSketch.Document.Basic
import SchemaSketch.Document.Data
import SchemaSketch.Document.Lookup
import SchemaSketch.Document.Reader
import SchemaSketch.Document.Summary
import SchemaSketch.Document.Writer
import SchemaSketch.Export.Ident
import SchemaSketch.Export.Script
import SchemaSketch.Files.Search
import SchemaSketch.Files.Tree
import SchemaSketch.Files.Wildcard
import SchemaSketch.Import.Event
import SchemaSketch.Import.Report
import SchemaSketch.Json.Basic
import SchemaSketch.Json.Printer
import SchemaSketch.Json.Reader
import SchemaSketch.Log.Clock
import SchemaSketch.Log.Record
import SchemaSketch.Main
import SchemaSketch.Naming
import SchemaSketch.Proofs.Cli.Composition
import SchemaSketch.Proofs.Cli.Documents
import SchemaSketch.Proofs.Cli.Options
import SchemaSketch.Proofs.Design.Attempt
import SchemaSketch.Proofs.Design.Declarations
import SchemaSketch.Proofs.Design.Defaults
import SchemaSketch.Proofs.Design.Fields
import SchemaSketch.Proofs.Design.ForeignKeys
import SchemaSketch.Proofs.Design.Joining
import SchemaSketch.Proofs.Design.Names
import SchemaSketch.Proofs.Design.Order
import SchemaSketch.Proofs.Design.Recovery
import SchemaSketch.Proofs.Design.Relations
import SchemaSketch.Proofs.Design.WellFormed
import SchemaSketch.Proofs.Document.Faults
import SchemaSketch.Proofs.Document.RoundTrip
import SchemaSketch.Proofs.Document.Saving
import SchemaSketch.Proofs.Except
import SchemaSketch.Proofs.Export.ColumnLines
import SchemaSketch.Proofs.Export.Columns
import SchemaSketch.Proofs.Export.Comments
import SchemaSketch.Proofs.Export.Design
import SchemaSketch.Proofs.Export.KeyStatements
import SchemaSketch.Proofs.Export.Keys
import SchemaSketch.Proofs.Export.Rereading
import SchemaSketch.Proofs.Export.Sections
import SchemaSketch.Proofs.Export.Steps
import SchemaSketch.Proofs.Export.Writable
import SchemaSketch.Proofs.Files.Writing
import SchemaSketch.Proofs.Import.Lines
import SchemaSketch.Proofs.Import.Warnings
import SchemaSketch.Proofs.Json.Numbers
import SchemaSketch.Proofs.Json.Reading
import SchemaSketch.Proofs.Json.Strings
import SchemaSketch.Proofs.Log.Lines
import SchemaSketch.Proofs.Measured
import SchemaSketch.Proofs.Naming
import SchemaSketch.Proofs.Register
import SchemaSketch.Proofs.Sql.Agreement
import SchemaSketch.Proofs.Sql.Body
import SchemaSketch.Proofs.Sql.Comment
import SchemaSketch.Proofs.Sql.Cutting
import SchemaSketch.Proofs.Sql.Depth
import SchemaSketch.Proofs.Sql.Heading
import SchemaSketch.Proofs.Sql.Joining
import SchemaSketch.Proofs.Sql.Lexing
import SchemaSketch.Proofs.Sql.Local
import SchemaSketch.Proofs.Sql.Parts
import SchemaSketch.Proofs.Sql.Plain
import SchemaSketch.Proofs.Sql.Recovery
import SchemaSketch.Proofs.Sql.Rules
import SchemaSketch.Proofs.Sql.Shut
import SchemaSketch.Proofs.Sql.Splitting
import SchemaSketch.Proofs.Sql.Stripping
import SchemaSketch.Proofs.Sql.Survivors
import SchemaSketch.Proofs.Sql.Unclosed
import SchemaSketch.Proofs.Sql.Words
import SchemaSketch.Proofs.Table.Calls
import SchemaSketch.Proofs.Table.Checks
import SchemaSketch.Proofs.Table.Clauses
import SchemaSketch.Proofs.Table.Columns
import SchemaSketch.Proofs.Table.Exchange
import SchemaSketch.Proofs.Table.Flags
import SchemaSketch.Proofs.Table.KeyClauses
import SchemaSketch.Proofs.Table.Lines
import SchemaSketch.Proofs.Table.Literals
import SchemaSketch.Proofs.Table.Masks
import SchemaSketch.Proofs.Table.NameLists
import SchemaSketch.Proofs.Table.Origin
import SchemaSketch.Proofs.Table.Reader
import SchemaSketch.Proofs.Table.References
import SchemaSketch.Proofs.Table.Types
import SchemaSketch.Proofs.Text.Case
import SchemaSketch.Proofs.Text.Cased
import SchemaSketch.Proofs.Text.Lines
import SchemaSketch.Proofs.Text.Narrow
import SchemaSketch.Proofs.Text.Pattern
import SchemaSketch.Proofs.Text.Pieces
import SchemaSketch.Proofs.Text.Quotes
import SchemaSketch.Proofs.Text.Search
import SchemaSketch.Proofs.Text.Squeeze
import SchemaSketch.Proofs.Text.Utf8
import SchemaSketch.Sql.ColumnType
import SchemaSketch.Sql.Comment
import SchemaSketch.Sql.Heading
import SchemaSketch.Sql.Identifier
import SchemaSketch.Sql.Script
import SchemaSketch.Sql.Statement
import SchemaSketch.Sql.Token
import SchemaSketch.Table.Basic
import SchemaSketch.Table.Definition
import SchemaSketch.Table.Fault
import SchemaSketch.Table.Note
import SchemaSketch.Table.Reader
import SchemaSketch.Table.Reference
import SchemaSketch.Table.Register
import SchemaSketch.Text.Case
import SchemaSketch.Text.CaseMaps
import SchemaSketch.Text.Class
import SchemaSketch.Text.Pattern
import SchemaSketch.Text.PrintRanges
import SchemaSketch.Text.Quoted
import SchemaSketch.Text.Trim
import SchemaSketch.Text.Utf8
import SchemaSketch.Text.WordRanges
import SchemaSketch.Proofs.Sql.Signs
import SchemaSketch.Proofs.Naming.Humps
import SchemaSketch.Proofs.Export.TableNames
import SchemaSketch.Proofs.Table.ArrayTypes
import SchemaSketch.Proofs.Export.QuotedNames
import SchemaSketch.Proofs.Table.Constraints
import SchemaSketch.Proofs.Design.FreeNames
import SchemaSketch.Proofs.Export.Identifiers
import SchemaSketch.Proofs.Sql.FirstWord
import SchemaSketch.Proofs.Table.Kinds
import SchemaSketch.Proofs.Export.RoundTrip
