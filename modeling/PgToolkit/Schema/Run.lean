import PgToolkit.Schema.Queue
import PgToolkit.Session.Executor

/-!
# Running schema changes

The batch of a queue runs as a whole or not at all. The queue is emptied only when it ran.
-/

namespace PgToolkit

variable {σ : Type}

/-- Runs all changes of a queue: the outcome, and the queue behind it. A queue without statements
sends nothing. -/
def SchemaQueue.run (q : SchemaQueue) (conn : Executor σ) :
    Session σ (Except Error Unit × SchemaQueue) :=
  match q.toSql with
  | .error e => return (.error e, q)
  | .ok statements => do
    if statements.isEmpty then return (.ok (), q)
    let sql := batchText statements
    match ← (conn.batchTransaction sql).attempt with
    | .ok () =>
      Session.report (.schemaApplied statements.length)
      return (.ok (), SchemaQueue.empty)
    | .error e =>
      Session.report (.schemaRolledBack statements.length e)
      return (.error (.ddl sql e), q)

/-- Runs a queue that is not used again: when the changes fail, so does the session. -/
def SchemaQueue.apply (q : SchemaQueue) (conn : Executor σ) : Session σ Unit := do
  let (result, _) ← q.run conn
  Session.ofExcept result

namespace Schema

/-- The schema of a table as a parameter: NULL stands for the current one. -/
def schemaParameter (table : String) : Value :=
  match Sql.qualifier? table with
  | some schema => .text schema
  | none => .null

/-- Whether a table exists, in the schema before its last dot or in the current one. -/
def hasTable (conn : Executor σ) (table : String) : Session σ Bool := do
  let rows ← conn.query
    ("SELECT 1 FROM information_schema.tables WHERE " ++
      "table_schema = COALESCE(?::text, current_schema()) AND table_name = ?::text")
    [schemaParameter table, .text (Sql.lastSegment table)]
  return !rows.isEmpty

def hasColumn (conn : Executor σ) (table column : String) : Session σ Bool := do
  let rows ← conn.query
    ("SELECT 1 FROM information_schema.columns WHERE " ++
      "table_schema = COALESCE(?::text, current_schema()) AND table_name = ?::text " ++
      "AND column_name = ?::text")
    [schemaParameter table, .text (Sql.lastSegment table), .text column]
  return !rows.isEmpty

end Schema

end PgToolkit
