import PgToolkit.Error
import PgToolkit.Json.Basic
import PgToolkit.Json.Parser
import PgToolkit.Json.Printer
import PgToolkit.Migration.History
import PgToolkit.Migration.Run
import PgToolkit.Number.Binary
import PgToolkit.Number.Decimal
import PgToolkit.Number.Shortest
import PgToolkit.OrderedMap
import PgToolkit.Pool.Address
import PgToolkit.Pool.Basic
import PgToolkit.Pool.Setting
import PgToolkit.Pool.Url
import PgToolkit.Query.Basic
import PgToolkit.Query.Clause
import PgToolkit.Query.Condition
import PgToolkit.Query.Modify
import PgToolkit.Query.Select
import PgToolkit.Record.Basic
import PgToolkit.Record.Shape
import PgToolkit.Schema.Column
import PgToolkit.Schema.Queue
import PgToolkit.Schema.Run
import PgToolkit.Schema.Statements
import PgToolkit.Schema.Table
import PgToolkit.Session.Event
import PgToolkit.Session.Cut
import PgToolkit.Session.Executor
import PgToolkit.Session.Logging
import PgToolkit.Session.Rows
import PgToolkit.Session.Script
import PgToolkit.Session.Server
import PgToolkit.Sql.Identifier
import PgToolkit.Sql.Operator
import PgToolkit.Sql.Placeholder
import PgToolkit.Sql.Quoted
import PgToolkit.Sql.Scan
import PgToolkit.Sql.Statement
import PgToolkit.Text.Blank
import PgToolkit.Text.Digits
import PgToolkit.Text.Extending
import PgToolkit.Text.Hex
import PgToolkit.Text.Invisible
import PgToolkit.Text.Ranges
import PgToolkit.Text.Shown
import PgToolkit.Text.Uuid
import PgToolkit.Time.Civil
import PgToolkit.Time.Instant
import PgToolkit.Time.Reading
import PgToolkit.Value.Basic
import PgToolkit.Value.Literal
import PgToolkit.Value.Target
import PgToolkit.Wire.Bytes
import PgToolkit.Wire.Calendar
import PgToolkit.Wire.Cell
import PgToolkit.Wire.Numeric
import PgToolkit.Wire.Parameter
import PgToolkit.Wire.PgType
import PgToolkit.Query.Command
import PgToolkit.Proofs.Outcome
import PgToolkit.Proofs.Query.Alignment
import PgToolkit.Proofs.Query.Correspondence
import PgToolkit.Proofs.Query.Structure
import PgToolkit.Proofs.Schema.Batch
import PgToolkit.Proofs.Migration.History
import PgToolkit.Proofs.Migration.Table
import PgToolkit.Proofs.Migration.Run
import PgToolkit.Proofs.Migration.Operation
import PgToolkit.Proofs.Migration.Reachable
import PgToolkit.Proofs.Schema.Run
import PgToolkit.Proofs.Session.Ensures
import PgToolkit.Proofs.Session.Watch
import PgToolkit.Proofs.Sql.Grammar
import PgToolkit.Proofs.Sql.Scan
import PgToolkit.Proofs.Session.Bracket
import PgToolkit.Proofs.Transaction.Database
import PgToolkit.Proofs.Transaction.Batch
import PgToolkit.Proofs.Schema.Atomic
import PgToolkit.Proofs.Transaction.Mirror
import PgToolkit.Proofs.Transaction.Block
import PgToolkit.Proofs.Migration.Calls
import PgToolkit.Proofs.Migration.Concurrent
import PgToolkit.Proofs.Migration.Undoing
import PgToolkit.Proofs.Migration.Opposed
import PgToolkit.Proofs.Session.Record
import PgToolkit.Proofs.Migration.Inverse
import PgToolkit.Proofs.Json.Number
import PgToolkit.Proofs.Text.Uuid
import PgToolkit.Proofs.Wire.Calendar
import PgToolkit.Proofs.Wire.Numeric
import PgToolkit.Proofs.Json.Document
import PgToolkit.Proofs.Wire.Canonical
import PgToolkit.Proofs.Json.Parsed
import PgToolkit.Proofs.Wire.Fetched
import PgToolkit.Proofs.Query.Parameters
import PgToolkit.Proofs.Sql.ServerMarks
import PgToolkit.Proofs.Session.Layers
import PgToolkit.Proofs.Schema.Edit
import PgToolkit.Proofs.Sql.Quotable
import PgToolkit.Proofs.Query.Rows
import PgToolkit.Proofs.Schema.Index
import PgToolkit.Proofs.Sql.Suffix
import PgToolkit.Proofs.Schema.IndexedColumns
import PgToolkit.Proofs.Schema.Replay
import PgToolkit.Proofs.Query.Predicate
import PgToolkit.Proofs.Query.Acceptance
import PgToolkit.Proofs.Query.Overwriting
import PgToolkit.Proofs.Query.Nesting
import PgToolkit.Proofs.Query.Grouping
import PgToolkit.Proofs.Query.Truth
import PgToolkit.Proofs.Sql.WrittenName
import PgToolkit.Proofs.Value.Literal
import PgToolkit.Proofs.Value.LiteralTree
import PgToolkit.Proofs.Migration.Bookkeeping
import PgToolkit.Proofs.Record.Row
import PgToolkit.Proofs.Record.Calls
import PgToolkit.Proofs.Migration.Validation
import PgToolkit.Proofs.Value.Target
import PgToolkit.Proofs.Value.Document
import PgToolkit.Proofs.Schema.Definition
import PgToolkit.Proofs.Schema.IndexName
import PgToolkit.Proofs.Session.Cut
import PgToolkit.Proofs.Sql.ArrayText
import PgToolkit.Proofs.Query.Path
