import PgToolkit.Schema.Statements

/-!
# Queues of schema changes

Schema changes are queued and compiled together, in the order of the queue, to one batch.
-/

namespace PgToolkit

open Sql

/-- An entry of a queue of schema changes. -/
inductive SchemaChange where
  | raw (sql : String)
  | table (draft : TableDraft)
  | dropTable (name : String) (ifExists : Bool)
  | renameTable (source target : String)
  deriving Repr

/-- The statements of an entry. A renamed table stays in its schema, so the new name is written
without one. -/
def SchemaChange.statements : SchemaChange → Except Error (List String)
  | .raw sql => .ok [sql]
  | .table draft => draft.toSql
  | .dropTable name ifExists => do
    return ["DROP TABLE " ++ (if ifExists then "IF EXISTS " else "") ++ (← quoteIdentifier name)]
  | .renameTable source target => do
    let source ← quoteIdentifier source
    return ["ALTER TABLE " ++ source ++ " RENAME TO " ++ (← quoteIdentifier (lastSegment target))]

/-- Schema changes in the order in which they are made. -/
structure SchemaQueue where
  changes : List SchemaChange := []
  deriving Repr

/-- The text of statements as one batch. -/
def batchText (statements : List String) : String :=
  ";\n".intercalate statements ++ ";"

namespace SchemaQueue

/-- The queue without changes. -/
def empty : SchemaQueue := {}

def isEmpty (q : SchemaQueue) : Bool := q.changes.isEmpty

def push (q : SchemaQueue) (change : SchemaChange) : SchemaQueue :=
  ⟨q.changes ++ [change]⟩

/-- Queues a table as it is defined by `define`, unless the definition has an error: the outcome,
and the queue behind it. -/
def table (q : SchemaQueue) (name : String) (mode : TableMode) (define : TableDraft → TableDraft) :
    Except Error Unit × SchemaQueue :=
  match (define (TableDraft.empty name mode)).finish with
  | .ok draft => (.ok (), q.push (.table draft))
  | .error e => (.error e, q)

/-- Makes edits one after the other, each on the queue that the one before left, up to the first
that fails. -/
def editAll (q : SchemaQueue) : List (SchemaQueue → Except Error Unit × SchemaQueue) →
    Except Error Unit × SchemaQueue
  | [] => (.ok (), q)
  | edit :: rest =>
    match edit q with
    | (.ok (), left) => left.editAll rest
    | (.error e, left) => (.error e, left)

def toSql (q : SchemaQueue) : Except Error (List String) := do
  return (← q.changes.mapM SchemaChange.statements).flatten

def batch (q : SchemaQueue) : Except Error String :=
  batchText <$> q.toSql

end SchemaQueue

end PgToolkit
