import PgToolkit.Proofs.Migration.History
import PgToolkit.Proofs.Outcome
import PgToolkit.Proofs.Session.Ensures

/-!
# The table of the history

Every migrator keeps its history with four statements, and a migration is one batch: its own changes
and one of these statements. What the other side of the connection does with them is not decided
here; that a table behaves like one is a condition on the executor.
-/

namespace PgToolkit

/-! ### Statements -/

namespace HistoryTable

/-- The columns of the table. -/
def columns : List String :=
  ["\"id\" serial NOT NULL PRIMARY KEY", "\"name\" varchar(255) NOT NULL UNIQUE",
    "\"batch\" integer NOT NULL", "\"applied_at\" timestamptz NOT NULL DEFAULT now()::timestamptz"]

/-- Creates the table. -/
def creation (table : String) : String :=
  "CREATE TABLE IF NOT EXISTS " ++ table ++ " (" ++ ", ".intercalate columns ++ ")"

/-- Reads all rows in the order of their keys. -/
def selection (table : String) : String :=
  "SELECT \"id\", \"name\", \"batch\", \"applied_at\" FROM " ++ table ++ " ORDER BY \"id\" ASC"

/-- Adds a row. -/
def insertion (table name : String) (batch : Int64) : String :=
  "INSERT INTO " ++ table ++ " (\"name\", \"batch\") VALUES (" ++ Sql.literal name ++ ", " ++
    toString batch.toInt ++ ")"

theorem toList_insertion (table name : String) (batch : Int64) :
    (insertion table name batch).toList = "INSERT INTO ".toList ++ table.toList ++
      " (\"name\", \"batch\") VALUES (".toList ++ (Sql.literal name).toList ++ ", ".toList ++
      (toString batch.toInt).toList ++ ")".toList := by
  delta insertion
  simp only [String.toList_append]

/-- Removes the row of a migration. -/
def deletion (table name : String) : String :=
  "DELETE FROM " ++ table ++ " WHERE \"name\" = " ++ Sql.literal name

end HistoryTable

/-- A row as it is answered. -/
def AppliedMigration.toRecord (row : AppliedMigration) : Record where
  entries := [("id", .int row.id), ("name", .text row.name), ("batch", .int row.batch),
    ("applied_at", Target.inject (.optional .timestamp) row.appliedAt?)]

theorem AppliedMigration.ofRecord_toRecord (row : AppliedMigration) :
    ofRecord row.toRecord = .ok row := by
  obtain ⟨id, name, batch, appliedAt?⟩ := row
  cases appliedAt? with
  | none => rfl
  | some instant => rfl

/-- The rows of an answered history are read as the history. -/
theorem History.mapM_ofRecord (h : History) :
    (h.map AppliedMigration.toRecord).mapM AppliedMigration.ofRecord = .ok h := by
  rw [List.mapM_map, mapM_eq_ok_iff, List.forall₂_same]
  exact fun row _ => AppliedMigration.ofRecord_toRecord row

/-! ### What is sent -/

namespace Migrator

variable {m : Migrator} {table name : String} {batch : Int64} {q : SchemaQueue}

/-- The name of a migration is written as a literal, unless it is the text of a call. -/
theorem literal_text_of_ne (hname : name ≠ Value.nowText) :
    (Value.text name).literal = .ok (Sql.literal name) := by
  rw [Value.literal, if_neg hname]

theorem insertRow_eq_ok (hname : name ≠ Value.nowText) :
    insertRow table name batch = .ok (HistoryTable.insertion table name batch) := by
  rw [insertRow, literal_text_of_ne hname]
  rfl

theorem deleteRow_eq_ok (hname : name ≠ Value.nowText) :
    deleteRow table name = .ok (HistoryTable.deletion table name) := by
  rw [deleteRow, literal_text_of_ne hname]
  rfl

theorem mem_of_find_eq_ok {migration : Migration} (h : m.find name = .ok migration) :
    migration ∈ m.migrations ∧ migration.name = name := by
  rw [find] at h
  split at h
  · rename_i found hfound
    cases h
    exact ⟨List.mem_of_find?_eq_some hfound, by simpa using List.find?_some hfound⟩
  · cases h

end Migrator

theorem SchemaQueue.toSql_push_raw_eq_ok_iff {q : SchemaQueue} {sql : String}
    {statements : List String} : (q.push (.raw sql)).toSql = .ok statements ↔
      ∃ changes, q.toSql = .ok changes ∧ statements = changes ++ [sql] := by
  have hraw : [SchemaChange.raw sql].mapM SchemaChange.statements = .ok [[sql]] := rfl
  simp only [toSql, push, List.mapM_append, hraw, bind_eq_ok_iff, pure_eq_ok_iff]
  constructor
  · rintro ⟨_, ⟨parts, hparts, _, ⟨⟩, rfl⟩, rfl⟩
    exact ⟨_, ⟨parts, hparts, rfl⟩, by simp⟩
  · rintro ⟨_, ⟨parts, hparts, rfl⟩, rfl⟩
    exact ⟨_, ⟨parts, hparts, _, rfl, rfl⟩, by simp⟩

namespace Migrator

variable {m : Migrator} {table name : String} {batch : Int64} {q : SchemaQueue}
  {statements : List String}

/-- What is queued for a migration: its own changes in one direction, and a statement for its
row. -/
theorem exists_changes_of_push {change : Migration → SchemaQueue → Except Error SchemaQueue}
    {sql : String} (hqueue : (do
      let own ← change (← m.find name) m.openingQueue
      return own.push (.raw sql)) = Except.ok q) (hsql : q.toSql = .ok statements) :
    ∃ migration ∈ m.migrations, ∃ own changes, migration.name = name ∧
      change migration m.openingQueue = .ok own ∧ own.toSql = .ok changes ∧
      statements = changes ++ [sql] := by
  rw [bind_eq_ok_iff] at hqueue
  obtain ⟨migration, hfind, hqueue⟩ := hqueue
  rw [bind_eq_ok_iff] at hqueue
  obtain ⟨own, hown, hqueue⟩ := hqueue
  cases hqueue
  obtain ⟨changes, hchanges, rfl⟩ := SchemaQueue.toSql_push_raw_eq_ok_iff.1 hsql
  obtain ⟨hmem, hmigration⟩ := mem_of_find_eq_ok hfind
  exact ⟨migration, hmem, own, changes, hmigration, hown, hchanges, rfl⟩

/-- The batch that applies a migration: its changes, and the insertion of its row. -/
theorem exists_changes_of_upQueue (hname : name ≠ Value.nowText)
    (hqueue : m.upQueue table name batch = .ok q) (hsql : q.toSql = .ok statements) :
    ∃ migration ∈ m.migrations, ∃ own changes, migration.name = name ∧
      migration.up m.openingQueue = .ok own ∧ own.toSql = .ok changes ∧
      statements = changes ++ [HistoryTable.insertion table name batch] := by
  rw [upQueue, insertRow_eq_ok hname] at hqueue
  exact exists_changes_of_push hqueue hsql

theorem exists_changes_of_downQueue (hname : name ≠ Value.nowText)
    (hqueue : m.downQueue table name = .ok q) (hsql : q.toSql = .ok statements) :
    ∃ migration ∈ m.migrations, ∃ own changes, migration.name = name ∧
      migration.down m.openingQueue = .ok own ∧ own.toSql = .ok changes ∧
      statements = changes ++ [HistoryTable.deletion table name] := by
  rw [downQueue, deleteRow_eq_ok hname] at hqueue
  exact exists_changes_of_push hqueue hsql

theorem tableStatements_historyTable (name table : String) :
    (historyTable (TableDraft.empty name .createIfNotExists)).tableStatements table =
      .ok [HistoryTable.creation table] := by
  let draft := historyTable (TableDraft.empty name .createIfNotExists)
  have hcolumns : draft.columns.mapM (fun entry => entry.2.toSql entry.1) =
      .ok HistoryTable.columns := by
    -- the columns do not depend on the name of the table
    change (historyTable (TableDraft.empty "" .createIfNotExists)).columns.mapM
      (fun entry => entry.2.toSql entry.1) = .ok HistoryTable.columns
    decide +kernel
  have hcreate : draft.createStatement table = .ok (HistoryTable.creation table) := by
    rw [TableDraft.createStatement, bind_eq_ok_iff]
    exact ⟨HistoryTable.columns, hcolumns, rfl⟩
  have hmode : draft.mode.isCreate = true := rfl
  change draft.tableStatements table = .ok [HistoryTable.creation table]
  rw [TableDraft.tableStatements, if_pos hmode, hcreate]
  rfl

/-- The queue that creates the table. -/
def creationQueue (m : Migrator) : SchemaQueue :=
  SchemaQueue.empty.push (.table (historyTable (TableDraft.empty m.table .createIfNotExists)))

theorem ensureTable_eq {σ : Type} (m : Migrator) (conn : Executor σ) :
    m.ensureTable conn = m.creationQueue.apply conn := rfl

/-- The table can be created when its name can be written. -/
theorem toSql_creationQueue (m : Migrator) : m.creationQueue.toSql =
    (do return [HistoryTable.creation (← Sql.quoteIdentifier m.table)]) := by
  let draft := historyTable (TableDraft.empty m.table .createIfNotExists)
  have hname : draft.name = m.table := rfl
  have hstatements : ∀ table, draft.tableStatements table = .ok [HistoryTable.creation table] :=
    tableStatements_historyTable m.table
  show (do return (← [SchemaChange.table draft].mapM SchemaChange.statements).flatten) = _
  rw [List.mapM_cons, SchemaChange.statements, TableDraft.toSql, hname]
  cases Sql.quoteIdentifier m.table with
  | error e => rfl
  | ok table =>
    simp only [hstatements, bind, Except.bind]
    rfl

theorem exists_creation_of_creationQueue (h : m.creationQueue.toSql = .ok statements) :
    ∃ table, Sql.quoteIdentifier m.table = .ok table ∧
      statements = [HistoryTable.creation table] := by
  rw [toSql_creationQueue, bind_eq_ok_iff] at h
  obtain ⟨table, htable, h⟩ := h
  exact ⟨table, htable, (pure_eq_ok_iff.1 h).symm⟩

end Migrator

/-! ### What is relied on -/

variable {σ : Type}

/-- The executor has a table that holds the history of a migrator: `rows` are its rows in the order
of their keys. The changes that the migrations make leave it alone. -/
structure KeepsHistory (conn : Executor σ) (rows : σ → History) (m : Migrator) : Prop where
  /-- A transaction that fails leaves no trace. -/
  failed : ∀ sql s e t, (conn.batchTransaction sql).runFrom s = (.error e, t) →
    rows t.remote = rows s.remote
  created : ∀ table, Sql.quoteIdentifier m.table = .ok table → ∀ s t,
    (conn.batchTransaction (batchText [HistoryTable.creation table])).runFrom s = (.ok (), t) →
      rows t.remote = rows s.remote
  /-- A table that does not exist has no rows. -/
  selected : ∀ table, Sql.quoteIdentifier m.table = .ok table → ∀ s,
    (conn.query (HistoryTable.selection table) []).Ensures s fun r t =>
      rows t.remote = rows s.remote ∧
      (∀ records, r = .ok records → records = (rows s.remote).map AppliedMigration.toRecord) ∧
      ∀ e, r = .error e → e.isUndefinedTable = true → rows s.remote = []
  /-- Keys count up, and the numbers of batches have 32 bits. -/
  inserted : ∀ table, Sql.quoteIdentifier m.table = .ok table →
    ∀ migration ∈ m.migrations, ∀ own changes, migration.up m.openingQueue = .ok own →
    own.toSql = .ok changes → ∀ batch s t,
    (conn.batchTransaction (batchText
      (changes ++ [HistoryTable.insertion table migration.name batch]))).runFrom s = (.ok (), t) →
      ∃ row, rows t.remote = rows s.remote ++ [row] ∧ row.name = migration.name ∧
        row.batch = batch ∧ row.number ≤ Int32.maxValue.toInt ∧
        ∀ old ∈ rows s.remote, old.id < row.id
  deleted : ∀ table, Sql.quoteIdentifier m.table = .ok table →
    ∀ migration ∈ m.migrations, ∀ own changes, migration.down m.openingQueue = .ok own →
    own.toSql = .ok changes → ∀ s t,
    (conn.batchTransaction (batchText
      (changes ++ [HistoryTable.deletion table migration.name]))).runFrom s = (.ok (), t) →
      rows t.remote = (rows s.remote).filter (·.name ≠ migration.name)

end PgToolkit
