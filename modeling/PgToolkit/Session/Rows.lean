import PgToolkit.Query.Modify
import PgToolkit.Query.Select
import PgToolkit.Session.Executor
import PgToolkit.Value.Target

/-!
# Running queries

A query is compiled and run over an executor. A query that does not compile sends nothing.
-/

namespace PgToolkit

/-- Runs a compiled statement, unless compiling it failed. -/
def Executor.rows {σ : Type} (conn : Executor σ) (compiled : Except Error Compiled) :
    Session σ (List Record) := do
  let statement ← Session.ofExcept compiled
  conn.query statement.sql statement.params

namespace Query

variable {σ α : Type}

def fetchAll (q : Query) (conn : Executor σ) : Session σ (List Record) :=
  conn.rows q.toSql

/-- All rows, each of them read; the first one that cannot be read counts. -/
def fetchAllAs (q : Query) (conn : Executor σ) (read : Record → Except Error α) :
    Session σ (List α) := do
  Session.ofExcept ((← q.fetchAll conn).mapM read)

/-- The first row. -/
def first (q : Query) (conn : Executor σ) : Session σ (Option Record) := do
  return (← conn.rows q.firstSql).head?

/-- The first row, read. -/
def firstAs (q : Query) (conn : Executor σ) (read : Record → Except Error α) :
    Session σ (Option α) := do
  match ← q.first conn with
  | some row => some <$> Session.ofExcept (read row)
  | none => return none

def count (q : Query) (conn : Executor σ) : Session σ Int64 := do
  match (← conn.rows q.countSql).head?.bind Record.firstValue? with
  | some v => Session.ofExcept (Target.extractInt64 v)
  | none => return 0

/-- The values of one column in all rows. A row without columns counts as NULL. -/
def pluck (q : Query) (conn : Executor σ) (column : Identifier) (t : Target) :
    Session σ (List t.Carrier) := do
  let rows ← conn.rows (q.pluckSql column)
  Session.ofExcept (rows.mapM fun row => t.extract (row.firstValue?.getD .null))

/-- Adds rows and returns columns of them. -/
def insert (q : Query) (conn : Executor σ) (rows : List Record) (returning : List String) :
    Session σ (List Record) :=
  conn.rows (q.insertSql rows returning)

/-- Adds rows, or changes those that are there already. -/
def upsert (q : Query) (conn : Executor σ) (rows : List Record) (u : Upsert) :
    Session σ (List Record) :=
  conn.rows (q.upsertSql rows u)

/-- Changes the rows that match and returns columns of them. -/
def update (q : Query) (conn : Executor σ) (values : Record) (returning : List String) :
    Session σ (List Record) :=
  conn.rows (q.updateSql values returning)

/-- Removes the rows that match and returns columns of them. -/
def delete (q : Query) (conn : Executor σ) (returning : List String) : Session σ (List Record) :=
  conn.rows (q.deleteSql returning)

end Query

end PgToolkit
