import PgToolkit.Migration.History
import PgToolkit.Schema.Run
import PgToolkit.Value.Literal

/-!
# Running migrations

Every migration runs in one transaction together with the statement that keeps its row in the
history. A run stops at the first migration that fails; the ones before it stay applied.
-/

namespace PgToolkit

namespace Migrator

variable {σ : Type}

def historyTable (draft : TableDraft) : TableDraft :=
  (((draft.column "id" { type := .serial, primary := true }).column "name"
    { type := .varchar 255, unique := true }).column "batch" { type := .integer }).column
    "applied_at" { type := .timestamptz, default? := some Value.now }

/-- Creates the table of the history, if it is not there. -/
def ensureTable (m : Migrator) (conn : Executor σ) : Session σ Unit := do
  let (result, q) := SchemaQueue.empty.table m.table .createIfNotExists historyTable
  Session.ofExcept result
  q.apply conn

/-- Reads the history. A table that does not exist is an empty history. -/
def fetchHistory (m : Migrator) (conn : Executor σ) : Session σ (List AppliedMigration) := do
  let table ← Session.ofExcept (Sql.quoteIdentifier m.table)
  let sql := "SELECT \"id\", \"name\", \"batch\", \"applied_at\" FROM " ++ table ++
    " ORDER BY \"id\" ASC"
  match ← (conn.query sql []).attempt with
  | .ok rows => Session.ofExcept (rows.mapM AppliedMigration.ofRecord)
  | .error e => if e.isUndefinedTable then return [] else throw e

/-- The history and what it leaves to do. -/
def status (m : Migrator) (conn : Executor σ) : Session σ MigrationStatus := do
  Session.ofExcept (m.statusOf (← m.fetchHistory conn))

/-- The queue in which a migration starts: the limit on waiting for locks, if there is one. -/
def openingQueue (m : Migrator) : SchemaQueue :=
  match m.lockTimeout? with
  | some micros =>
    SchemaQueue.empty.push
      (.raw ("SET LOCAL lock_timeout = '" ++ toString (micros / 1000) ++ "ms'"))
  | none => SchemaQueue.empty

/-- The statement that adds a row to the history. -/
def insertRow (table name : String) (batch : Int64) : Except Error String := do
  return "INSERT INTO " ++ table ++ " (\"name\", \"batch\") VALUES (" ++
    (← (Value.text name).literal) ++ ", " ++ toString batch.toInt ++ ")"

/-- The statement that removes a row from the history. -/
def deleteRow (table name : String) : Except Error String := do
  return "DELETE FROM " ++ table ++ " WHERE \"name\" = " ++ (← (Value.text name).literal)

/-- Everything that applies a migration: its changes and its row. -/
def upQueue (m : Migrator) (table name : String) (batch : Int64) : Except Error SchemaQueue := do
  let q ← (← m.find name).up m.openingQueue
  return q.push (.raw (← insertRow table name batch))

/-- Everything that undoes a migration: its reverse changes and the removal of its row. -/
def downQueue (m : Migrator) (table name : String) : Except Error SchemaQueue := do
  let q ← (← m.find name).down m.openingQueue
  return q.push (.raw (← deleteRow table name))

def applyOne (m : Migrator) (conn : Executor σ) (table : String) (batch : Int64) (name : String) :
    Session σ Unit := do
  let q ← Session.ofExcept (m.upQueue table name batch)
  q.apply conn
  Session.report (.migrationApplied name batch)

def revertOne (m : Migrator) (conn : Executor σ) (table : String) (batch : Int64) (name : String) :
    Session σ Unit := do
  let q ← Session.ofExcept (m.downQueue table name)
  q.apply conn
  Session.report (.migrationReverted name batch)

/-- Applies everything that is pending as one new batch, and returns the names. -/
def latest (m : Migrator) (conn : Executor σ) : Session σ (List String) := do
  m.ensureTable conn
  let status ← m.status conn
  if status.isUpToDate then
    Session.report .upToDate
    return []
  let table ← Session.ofExcept (Sql.quoteIdentifier m.table)
  status.pending.forM (m.applyOne conn table (status.lastBatch + 1))
  return status.pending

/-- The names of a batch in a history, newest first. -/
def batchNames (status : MigrationStatus) (batch : Int64) : List String :=
  (status.applied.reverse.filter (·.batch = batch)).map (·.name)

/-- Undoes the last batch, newest migration first, and returns the names. -/
def rollback (m : Migrator) (conn : Executor σ) : Session σ (List String) := do
  m.ensureTable conn
  let status ← m.status conn
  let batch := status.lastBatch
  if batch = 0 then
    Session.report .nothingToRollBack
    return []
  let table ← Session.ofExcept (Sql.quoteIdentifier m.table)
  let names := batchNames status batch
  names.forM (m.revertOne conn table batch)
  return names

end Migrator

end PgToolkit
