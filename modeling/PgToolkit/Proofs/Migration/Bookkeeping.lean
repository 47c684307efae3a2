import PgToolkit.Proofs.Migration.Inverse
import PgToolkit.Proofs.Sql.QuoteToken

/-!
# Names in the history

The name of a migration is not bound to a parameter but written into the statement for its row. The
statement is read as SQL reads it: a string literal stands for the text between its quotes. What is
read is the name, whatever it holds, so the row of a migration is known by its name ever after. One
name is not written as a literal, the text of the call for the current time.
-/

namespace PgToolkit

open Session History Sql

/-! ### Reading statements -/

/-- What a statement does to the table of a history. -/
inductive HistoryEdit where
  /-- A row is added. The number of its batch is given by its digits. -/
  | insert (name : String) (batch : List Char)
  /-- The rows of a name are removed. -/
  | delete (name : String)
  deriving DecidableEq, Repr

namespace HistoryTable

/-- What stands in an insertion in front of its values. -/
def insertionHead (table : String) : String :=
  "INSERT INTO " ++ table ++ " (\"name\", \"batch\") VALUES ("

/-- What stands in a deletion in front of the name. -/
def deletionHead (table : String) : String :=
  "DELETE FROM " ++ table ++ " WHERE \"name\" = "

/-- Reads a string literal, and gives the text behind it. -/
def readString : List Char → Option (String × List Char)
  | '\'' :: text => (readQuoted '\'' text).map fun read => (String.ofList read.1, read.2)
  | _ => none

/-- Reads the values of an insertion: a string, and what stands in front of the last bracket. -/
def readValues (text : List Char) : Option HistoryEdit :=
  match readString text with
  | some (name, ',' :: ' ' :: behind) =>
    if behind.getLast? = some ')' then some (.insert name behind.dropLast) else none
  | _ => none

/-- Reads the key of a deletion: a string, and nothing behind it. -/
def readKey (text : List Char) : Option HistoryEdit :=
  match readString text with
  | some (name, []) => some (.delete name)
  | _ => none

/-- The edit that a statement makes, if its name is a string literal. -/
def readEdit (table sql : String) : Option HistoryEdit :=
  ((sql.toList.dropPrefix? (insertionHead table).toList).bind readValues).or
    ((sql.toList.dropPrefix? (deletionHead table).toList).bind readKey)

variable {table : String}

theorem readString_literal (name : String) {behind : List Char}
    (hbehind : behind.head? ≠ some '\'') :
    readString ((Sql.literal name).toList ++ behind) = some (name, behind) := by
  have htext : (Sql.literal name).toList ++ behind =
      '\'' :: (doubled '\'' name.toList ++ '\'' :: behind) := by
    simp [Sql.literal, quoted]
  rw [htext, readString, readQuoted_doubled _ hbehind, Option.map_some, String.ofList_toList]

theorem dropPrefix?_insertionHead_deletion (values : List Char) :
    ((deletionHead table).toList ++ values).dropPrefix? (insertionHead table).toList = none := by
  simp [deletionHead, insertionHead, List.dropPrefix?]

theorem dropPrefix?_deletionHead_insertion (values : List Char) :
    ((insertionHead table).toList ++ values).dropPrefix? (deletionHead table).toList = none := by
  simp [deletionHead, insertionHead, List.dropPrefix?]

theorem readEdit_insertionHead (values : String) :
    readEdit table (insertionHead table ++ values) = readValues values.toList := by
  rw [readEdit, String.toList_append, dropPrefix?_deletionHead_insertion,
    List.dropPrefix?_append_of_beq _ (by simp), Option.bind_some, Option.bind_none, Option.or_none]

theorem readEdit_deletionHead (key : String) :
    readEdit table (deletionHead table ++ key) = readKey key.toList := by
  rw [readEdit, String.toList_append, dropPrefix?_insertionHead_deletion,
    List.dropPrefix?_append_of_beq _ (by simp), Option.bind_none, Option.bind_some, Option.none_or]

theorem readEdit_insertion (name : String) (batch : Int64) :
    readEdit table (insertion table name batch) =
      some (.insert name (toString batch.toInt).toList) := by
  have hsql : insertion table name batch = insertionHead table ++
      (Sql.literal name ++ ", " ++ toString batch.toInt ++ ")") := by
    delta insertion insertionHead
    simp only [String.append_assoc]
  rw [hsql, readEdit_insertionHead, readValues]
  simp only [String.toList_append, List.append_assoc]
  rw [readString_literal name (by simp)]
  simp

theorem readEdit_deletion (name : String) :
    readEdit table (deletion table name) = some (.delete name) := by
  have hsql : deletion table name = deletionHead table ++ Sql.literal name := rfl
  have hread : readString ((Sql.literal name).toList ++ []) = some (name, []) :=
    readString_literal name (by simp)
  rw [List.append_nil] at hread
  rw [hsql, readEdit_deletionHead, readKey, hread]

/-- The statement that creates the table edits no rows. -/
theorem readEdit_creation : readEdit table (creation table) = none := by
  rw [readEdit]
  delta creation insertionHead deletionHead
  simp [List.dropPrefix?]

/-- A call is no name. -/
theorem readString_nowText (behind : List Char) :
    readString (Value.nowText.toList ++ behind) = none := rfl

end HistoryTable

namespace Migrator

open HistoryTable

variable {m : Migrator} {table name sql : String} {batch : Int64}

/-- The statement that adds a row is read as the name of its migration, unless that is written as a
call. -/
theorem readEdit_insertRow (h : insertRow table name batch = .ok sql) : readEdit table sql =
    if name = Value.nowText then none else some (.insert name (toString batch.toInt).toList) := by
  split
  · next hnow =>
    subst hnow
    obtain rfl := Except.ok.inj h
    have hsql : "INSERT INTO " ++ table ++ " (\"name\", \"batch\") VALUES (" ++ Value.nowText ++
        ", " ++ toString batch.toInt ++ ")" =
          insertionHead table ++ (Value.nowText ++ (", " ++ toString batch.toInt ++ ")")) := by
      simp only [insertionHead, String.append_assoc]
    rw [if_pos rfl, hsql, readEdit_insertionHead, String.toList_append, readValues,
      readString_nowText]
  · next hname =>
    rw [insertRow_eq_ok hname] at h
    obtain rfl := Except.ok.inj h
    exact readEdit_insertion name batch

theorem readEdit_deleteRow (h : deleteRow table name = .ok sql) : readEdit table sql =
    if name = Value.nowText then none else some (.delete name) := by
  split
  · next hnow =>
    subst hnow
    obtain rfl := Except.ok.inj h
    have hread := readString_nowText []
    rw [List.append_nil] at hread
    rw [if_pos rfl, ← deletionHead, readEdit_deletionHead, readKey, hread]
  · next hname =>
    rw [deleteRow_eq_ok hname] at h
    obtain rfl := Except.ok.inj h
    exact readEdit_deletion name

/-- The batch of a migration is its changes and the statement for its row. -/
theorem exists_row_of_push {change : Migration → SchemaQueue → Except Error SchemaQueue}
    {row : Except Error String} {q : SchemaQueue} {statements : List String} (hqueue : (do
      let own ← change (← m.find name) m.openingQueue
      return own.push (.raw (← row))) = Except.ok q) (hsql : q.toSql = .ok statements) :
    ∃ migration ∈ m.migrations, ∃ own changes sql, migration.name = name ∧
      change migration m.openingQueue = .ok own ∧ own.toSql = .ok changes ∧
      row = .ok sql ∧ statements = changes ++ [sql] := by
  cases row with
  | error e =>
    simp only [bind_eq_ok_iff] at hqueue
    obtain ⟨_, -, _, -, _, ⟨⟩, -⟩ := hqueue
  | ok sql =>
    obtain ⟨migration, hmem, own, changes, hname, hown, hchanges, hstatements⟩ :=
      exists_changes_of_push hqueue hsql
    exact ⟨migration, hmem, own, changes, sql, hname, hown, hchanges, rfl, hstatements⟩

end Migrator

/-! ### What is asked for -/

variable {σ : Type}

/-- What an operation asks for: the table, its rows, and for every migration one batch, which ends
with the statement for its row. -/
inductive Operation.Asked (m : Migrator) (table : String) : Operation → Request → Prop where
  | creation {op : Operation} : op ≠ .status →
    Operation.Asked m table op (.transaction (batchText [HistoryTable.creation table]))
  | selection {op : Operation} :
    Operation.Asked m table op (.query (HistoryTable.selection table) [])
  | insertion {migration : Migration} {own : SchemaQueue} {changes : List String} {sql : String}
    {batch : Int64} : migration ∈ m.migrations → migration.up m.openingQueue = .ok own →
    own.toSql = .ok changes →
    HistoryTable.readEdit table sql = (if migration.name = Value.nowText then none
      else some (.insert migration.name (toString batch.toInt).toList)) →
    Operation.Asked m table .latest (.transaction (batchText (changes ++ [sql])))
  | deletion {migration : Migration} {own : SchemaQueue} {changes : List String} {sql : String} :
    migration ∈ m.migrations → migration.down m.openingQueue = .ok own →
    own.toSql = .ok changes →
    HistoryTable.readEdit table sql = (if migration.name = Value.nowText then none
      else some (.delete migration.name)) →
    Operation.Asked m table .rollback (.transaction (batchText (changes ++ [sql])))

/-- A request of an operation, if the name of the table can be written. -/
def Operation.MayAsk (m : Migrator) (op : Operation) (request : Request) : Prop :=
  ∃ table, Sql.quoteIdentifier m.table = .ok table ∧ op.Asked m table request

theorem SchemaQueue.asks_apply {asked : Request → Prop} {q : SchemaQueue} {conn : Executor σ}
    (h : ∀ statements, q.toSql = .ok statements → asked (.transaction (batchText statements))) :
    Asks asked (q.apply conn.recorded) := by
  rw [apply_eq]
  refine Asks.ofExcept_bind fun statements hsql => ?_
  by_cases hempty : statements.isEmpty = true
  · rw [if_pos hempty]
    exact asks_pure ()
  · rw [if_neg hempty]
    refine (asks_record (h statements hsql) _).attempt.bind ?_
    rintro (e | ⟨⟩)
    · exact (asks_report _).bind fun _ => asks_throw _
    · exact asks_report _

namespace Migrator

variable {m : Migrator} {op : Operation} {table name : String} {batch : Int64} {conn : Executor σ}

theorem asks_ensureTable (hop : op ≠ .status) :
    Asks (op.MayAsk m) (m.ensureTable conn.recorded) := by
  rw [ensureTable_eq]
  refine SchemaQueue.asks_apply fun statements hsql => ?_
  obtain ⟨table, htable, rfl⟩ := exists_creation_of_creationQueue hsql
  exact ⟨table, htable, .creation hop⟩

theorem asks_status : Asks (op.MayAsk m) (m.status conn.recorded) := by
  refine Asks.bind ?_ fun history => asks_ofExcept _
  refine Asks.ofExcept_bind fun table htable => ?_
  refine (asks_record ⟨table, htable, .selection⟩ _).attempt.bind ?_
  rintro (e | records)
  · by_cases hmissing : e.isUndefinedTable = true
    · dsimp only
      rw [if_pos hmissing]
      exact asks_pure []
    · dsimp only
      rw [if_neg hmissing]
      exact asks_throw e
  · exact asks_ofExcept _

theorem asks_applyOne (htable : Sql.quoteIdentifier m.table = .ok table) :
    Asks (Operation.latest.MayAsk m) (m.applyOne conn.recorded table batch name) := by
  refine Asks.ofExcept_bind fun q hq => (SchemaQueue.asks_apply fun statements hsql => ?_).bind
    fun _ => asks_report _
  obtain ⟨migration, hmem, own, changes, sql, rfl, hup, hchanges, hrow, rfl⟩ :=
    exists_row_of_push hq hsql
  exact ⟨table, htable, .insertion hmem hup hchanges (readEdit_insertRow hrow)⟩

theorem asks_revertOne (htable : Sql.quoteIdentifier m.table = .ok table) :
    Asks (Operation.rollback.MayAsk m) (m.revertOne conn.recorded table batch name) := by
  refine Asks.ofExcept_bind fun q hq => (SchemaQueue.asks_apply fun statements hsql => ?_).bind
    fun _ => asks_report _
  obtain ⟨migration, hmem, own, changes, sql, rfl, hdown, hchanges, hrow, rfl⟩ :=
    exists_row_of_push hq hsql
  exact ⟨table, htable, .deletion hmem hdown hchanges (readEdit_deleteRow hrow)⟩

end Migrator

/-- An operation asks for nothing else. -/
theorem Operation.asks_run (op : Operation) (m : Migrator) (conn : Executor σ) :
    Asks (op.MayAsk m) (op.run m conn.recorded) := by
  cases op with
  | latest =>
    refine (Migrator.asks_ensureTable (by decide)).bind fun _ =>
      Migrator.asks_status.bind fun status => ?_
    by_cases hdone : status.isUpToDate = true
    · rw [if_pos hdone]
      exact (asks_report _).bind fun _ => asks_pure []
    · rw [if_neg hdone]
      refine Asks.ofExcept_bind fun table htable => Asks.bind ?_ fun _ => asks_pure _
      exact asks_forM (fun name => Migrator.asks_applyOne htable) _
  | rollback =>
    refine (Migrator.asks_ensureTable (by decide)).bind fun _ =>
      Migrator.asks_status.bind fun status => ?_
    dsimp only
    by_cases hnone : status.lastBatch = 0
    · rw [if_pos hnone]
      exact (asks_report _).bind fun _ => asks_pure []
    · rw [if_neg hnone]
      refine Asks.ofExcept_bind fun table htable => Asks.bind ?_ fun _ => asks_pure _
      exact asks_forM (fun name => Migrator.asks_revertOne htable) _
  | status => exact Migrator.asks_status.bind fun _ => asks_pure _

/-! ### What the table tells -/

/-- The executor has a table that does what statements are read as: `rows` are its rows in the order
of their keys. The changes that the migrations make leave it alone. -/
structure ReadsHistory (conn : Executor σ) (rows : σ → History) (m : Migrator) : Prop where
  /-- A transaction that fails leaves no trace. -/
  failed : ∀ sql s e t, (conn.batchTransaction sql).runFrom s = (.error e, t) →
    rows t.remote = rows s.remote
  created : ∀ table, Sql.quoteIdentifier m.table = .ok table → ∀ s t,
    (conn.batchTransaction (batchText [HistoryTable.creation table])).runFrom s = (.ok (), t) →
      rows t.remote = rows s.remote
  /-- A table that does not exist has no rows. -/
  selected : ∀ table, Sql.quoteIdentifier m.table = .ok table → ∀ s,
    (conn.query (HistoryTable.selection table) []).Ensures s fun r t =>
      rows t.remote = rows s.remote ∧
      (∀ records, r = .ok records → records = (rows s.remote).map AppliedMigration.toRecord) ∧
      ∀ e, r = .error e → e.isUndefinedTable = true → rows s.remote = []
  /-- A row has the name in the statement. Keys count up, and the numbers of batches have 32
  bits. -/
  inserted : ∀ table, Sql.quoteIdentifier m.table = .ok table →
    ∀ migration ∈ m.migrations, ∀ own changes, migration.up m.openingQueue = .ok own →
    own.toSql = .ok changes → ∀ sql name (batch : Int64),
    HistoryTable.readEdit table sql = some (.insert name (toString batch.toInt).toList) →
    ∀ s t, (conn.batchTransaction (batchText (changes ++ [sql]))).runFrom s = (.ok (), t) →
      ∃ row, rows t.remote = rows s.remote ++ [row] ∧ row.name = name ∧ row.batch = batch ∧
        row.number ≤ Int32.maxValue.toInt ∧ ∀ old ∈ rows s.remote, old.id < row.id
  /-- The rows with the name in the statement are removed. -/
  deleted : ∀ table, Sql.quoteIdentifier m.table = .ok table →
    ∀ migration ∈ m.migrations, ∀ own changes, migration.down m.openingQueue = .ok own →
    own.toSql = .ok changes → ∀ sql name,
    HistoryTable.readEdit table sql = some (.delete name) →
    ∀ s t, (conn.batchTransaction (batchText (changes ++ [sql]))).runFrom s = (.ok (), t) →
      rows t.remote = (rows s.remote).filter (·.name ≠ name)

/-- A table that does what statements are read as holds the history. -/
theorem ReadsHistory.keeps {conn : Executor σ} {rows : σ → History} {m : Migrator}
    (h : ReadsHistory conn rows m) : KeepsHistory conn rows m where
  failed := h.failed
  created := h.created
  selected := h.selected
  inserted table htable migration hmem own changes hup hchanges batch :=
    h.inserted table htable migration hmem own changes hup hchanges _ _ batch
      (HistoryTable.readEdit_insertion migration.name batch)
  deleted table htable migration hmem own changes hdown hchanges :=
    h.deleted table htable migration hmem own changes hdown hchanges _ _
      (HistoryTable.readEdit_deletion migration.name)

/-- What the table tells after an operation on a history. -/
structure Operation.Kept (conn : Executor σ) (rows : σ → History) (m : Migrator) (old : History)
    (op : Operation) (r : Except Error (List String)) (t : SessionState σ) : Prop where
  /-- The names compare equal to the declared ones. -/
  names : (rows t.remote).names <+: m.names
  /-- The history is read back, unless it cannot be asked for. -/
  status : ∀ table, Sql.quoteIdentifier m.table = .ok table → (m.status conn).Ensures t fun r u =>
    r = .ok ⟨rows t.remote, m.names.drop (rows t.remote).length⟩ ∨
    ∃ e, r = .error e ∧ (conn.query (HistoryTable.selection table) []).runFrom t = (.error e, u)
  applied : op = .latest → ∀ names, r = .ok names → (rows t.remote).names = m.names ∧
    ∃ added : History, rows t.remote = old ++ added ∧ added.names = names
  reverted : op = .rollback → ∀ names, r = .ok names →
    ∃ removed : History, old = rows t.remote ++ removed ∧ removed.names.reverse = names
  /-- The name of a row is that of no other. -/
  single : ∀ front row back, rows t.remote = front ++ row :: back →
    (rows t.remote).filter (·.name ≠ row.name) = front ++ back

/-- The status after a history was kept. -/
theorem Migrator.ensures_status_of_legal {conn : Executor σ} {rows : σ → History} {m : Migrator}
    {t : SessionState σ} {table : String} (hkeeps : KeepsHistory conn rows m)
    (hdistinct : m.names.Nodup) (hlegal : Legal m.names (rows t.remote))
    (htable : Sql.quoteIdentifier m.table = .ok table) :
    (m.status conn).Ensures t fun r u =>
      r = .ok ⟨rows t.remote, m.names.drop (rows t.remote).length⟩ ∨
      ∃ e, r = .error e ∧
        (conn.query (HistoryTable.selection table) []).runFrom t = (.error e, u) := by
  have hread := hkeeps.selected table htable t
  have hquery : (conn.query (HistoryTable.selection table) []).Ensures t fun r u =>
      (conn.query (HistoryTable.selection table) []).runFrom t = (r, u) := rfl
  have hhistory : (m.fetchHistory conn).Ensures t fun r u => r = .ok (rows t.remote) ∨
      ∃ e, r = .error e ∧
        (conn.query (HistoryTable.selection table) []).runFrom t = (.error e, u) := by
    rw [fetchHistory, htable]
    refine Ensures.ofExcept_bind ?_ (by simp)
    rintro _ ⟨⟩
    refine hquery.attempt_bind ?_
    rintro (e | records) u hrun
    · obtain ⟨-, -, hmissing⟩ := hread.of_runFrom_eq hrun
      dsimp only
      by_cases hundefined : e.isUndefinedTable = true
      · rw [if_pos hundefined]
        exact .inl (congrArg Except.ok (hmissing e rfl hundefined).symm)
      · rw [if_neg hundefined]
        exact .inr ⟨e, rfl, hrun⟩
    · obtain ⟨-, hrecords, -⟩ := hread.of_runFrom_eq hrun
      rw [hrecords records rfl]
      exact .inl (mapM_ofRecord _)
  refine hhistory.bind ?_ ?_
  · intro history u hpost
    obtain rfl : history = rows t.remote := by simpa using hpost
    rw [Ensures, runFrom_ofExcept]
    exact .inl (statusOf_of_legal hlegal hdistinct)
  · intro e u hpost
    exact .inr (by simpa using hpost)

/-- When everything is applied the names are the declared ones. -/
theorem History.Applied.names_eq {declared : List String} {old h : History}
    (happlied : Applied old (declared.drop old.length) h) (hnames : old.names <+: declared) :
    h.names = declared := by
  obtain ⟨added, rfl, hadded, -⟩ := happlied
  have htake : old.names = declared.take old.length := by
    rw [← length_names]
    exact List.prefix_iff_eq_take.1 hnames
  rw [names_append, hadded, htake, List.take_append_drop]

namespace Operation

variable {op : Operation} {m : Migrator} {conn : Executor σ} {rows : σ → History}
  {s t : SessionState σ} {r : Except Error (List String)}

/-- The requests of a run, when they are recorded. -/
theorem exists_seen_of_run (hrun : (op.run m conn).runFrom s = (r, t)) :
    ∃ seen, (op.run m conn.recorded).runFrom s.unseen =
        (r, { t with remote := ⟨t.remote, seen⟩ }) ∧
      ∀ answered ∈ seen, op.MayAsk m answered.request := by
  rcases hrecorded : (op.run m conn.recorded).runFrom s.unseen with ⟨r', t'⟩
  obtain ⟨made, hseen, hmade⟩ := op.asks_run m conn s.unseen
  have hforget := (op.related_run conn.related_recorded m).forgets.runFrom_eq hrecorded
  rw [SessionState.forget_unseen, hrun] at hforget
  obtain ⟨rfl, rfl⟩ := Prod.mk.inj hforget
  rw [hrecorded, SessionState.seen_unseen, List.nil_append] at hseen
  exact ⟨t'.remote.seen, rfl, fun answered hmem => hmade answered (hseen ▸ hmem)⟩

/-- What a run does to a legal history, watched or not. -/
theorem outcome_of_run (hkeeps : KeepsHistory conn rows m) (hdistinct : m.names.Nodup)
    (hplain : Value.nowText ∉ m.names) (hlegal : Legal m.names (rows s.remote))
    (hrun : (op.run m conn).runFrom s = (r, t)) :
    Legal m.names (rows t.remote) ∧ ∃ seen, Outcome conn rows m s seen op r t := by
  rcases hwatched : (op.run m (conn.watched rows)).runFrom s.unseen with ⟨r', t'⟩
  obtain ⟨htrail, houtcome⟩ :=
    (op.ensures_run hkeeps hdistinct hplain hlegal).of_runFrom_eq hwatched
  have hforget := (op.forgets_run m conn rows).runFrom_eq hwatched
  rw [SessionState.forget_unseen, hrun] at hforget
  obtain ⟨rfl, rfl⟩ := Prod.mk.inj hforget
  exact ⟨htrail.legal hlegal, _, houtcome⟩

theorem kept_of_run (hkeeps : KeepsHistory conn rows m) (hdistinct : m.names.Nodup)
    (hplain : Value.nowText ∉ m.names) (hlegal : Legal m.names (rows s.remote))
    (hrun : (op.run m conn).runFrom s = (r, t)) : op.Kept conn rows m (rows s.remote) r t := by
  obtain ⟨hlegal', seen, houtcome⟩ := outcome_of_run hkeeps hdistinct hplain hlegal hrun
  refine ⟨hlegal'.names, ?_, ?_, ?_, ?_⟩
  · intro table htable
    exact Migrator.ensures_status_of_legal hkeeps hdistinct hlegal' htable
  · rintro rfl names rfl
    cases houtcome with
    | applied happlied =>
      have hnames := happlied.names_eq hlegal.names
      obtain ⟨added, hrows, hadded, -⟩ := happlied
      exact ⟨hnames, added, hrows, hadded⟩
  · rintro rfl names rfl
    cases houtcome with
    | reverted hreverted =>
      obtain ⟨removed, hrows, hremoved, -⟩ := hreverted
      exact ⟨removed, hrows, hremoved⟩
  · intro front row back hrows
    have hnodup := hdistinct.sublist hlegal'.names.sublist
    rw [hrows] at hnodup ⊢
    exact filter_name_ne_of_nodup hnodup

/-- An operation asks for the table, its rows, and a batch for every migration, in which the
statement for the row is read as the name of the migration, unless that name is written as a call.
With a table that does what statements are read as, the names are kept as they are declared. -/
theorem keeps_names (hrun : (op.run m conn).runFrom s = (r, t)) :
    (∃ seen, (op.run m conn.recorded).runFrom s.unseen =
        (r, { t with remote := ⟨t.remote, seen⟩ }) ∧
      ∀ answered ∈ seen, op.MayAsk m answered.request) ∧
    ∀ rows, ReadsHistory conn rows m → m.names.Nodup → Value.nowText ∉ m.names →
      Legal m.names (rows s.remote) → op.Kept conn rows m (rows s.remote) r t :=
  ⟨exists_seen_of_run hrun, fun _ hreads hdistinct hplain hlegal =>
    kept_of_run hreads.keeps hdistinct hplain hlegal hrun⟩

end Operation

/-! ### A table that reads its statements -/

namespace Ledger

/-- Makes an edit. The numbers of batches have one digit. -/
def edit (l : Ledger) : HistoryEdit → Option Ledger
  | .insert name digits =>
    if l.rows.all (·.id < l.next) = true then
      ((List.range 10).find? fun (n : Nat) => (toString (n : Int)).toList = digits).map fun n =>
        ⟨l.rows ++ [⟨l.next, name, Int64.ofNat n, none⟩], l.next + 1⟩
    else none
  | .delete name => some { l with rows := l.rows.filter (·.name ≠ name) }

/-- Runs a batch that is one statement. -/
def obey (l : Ledger) (sql : String) : Option Ledger :=
  if sql = batchText [HistoryTable.creation table] then some l
  else (HistoryTable.readEdit table (String.ofList sql.toList.dropLast)).bind l.edit

/-- An executor over a table that does what statements are read as. -/
def reader : Executor Ledger where
  query sql _ := ExceptT.mk fun s =>
    (if sql = HistoryTable.selection table then .ok (s.remote.rows.map (·.toRecord))
      else .error refusal, s)
  execute _ _ := throw refusal
  batch _ := throw refusal
  batchTransaction sql := ExceptT.mk fun s =>
    match s.remote.obey sql with
    | some l => (.ok (), { s with remote := l })
    | none => (.error refusal, s)

/-- Two migrations without changes, with quotes in their names. -/
def quotedNames : Migrator where
  migrations := [⟨"it's; --", .ok, .ok⟩, ⟨"'), ('x", .ok, .ok⟩]

theorem obey_cases {sql : String} {s t : SessionState Ledger} {r : Except Error Unit}
    (h : (reader.batchTransaction sql).runFrom s = (r, t)) :
    (r = .ok () ∧ s.remote.obey sql = some t.remote) ∨ (r = .error refusal ∧ t = s) := by
  simp only [reader, runFrom, ExceptT.run_mk, StateT.run] at h
  split at h
  · next l hl =>
    cases h
    exact .inl ⟨rfl, hl⟩
  · cases h
    exact .inr ⟨rfl, rfl⟩

theorem edit_of_run {sql : String} {change : HistoryEdit} {s t : SessionState Ledger}
    (hread : HistoryTable.readEdit table sql = some change)
    (h : (reader.batchTransaction (batchText [sql])).runFrom s = (.ok (), t)) :
    s.remote.edit change = some t.remote := by
  have hother : batchText [sql] ≠ batchText [HistoryTable.creation table] := by
    intro hsame
    rw [eq_of_batchText_eq hsame, HistoryTable.readEdit_creation] at hread
    cases hread
  have hstatement : String.ofList (batchText [sql]).toList.dropLast = sql := by
    simp [batchText]
  obtain ⟨-, hsome⟩ | ⟨⟨⟩, -⟩ := obey_cases h
  rwa [obey, if_neg hother, hstatement, hread, Option.bind_some] at hsome

theorem changes_quotedNames {change : Migration → SchemaQueue → Except Error SchemaQueue}
    {migration : Migration} {own : SchemaQueue} {changes : List String}
    (hchange : ∀ migration ∈ quotedNames.migrations, change migration = .ok)
    (hmem : migration ∈ quotedNames.migrations)
    (hown : change migration quotedNames.openingQueue = .ok own)
    (hsql : own.toSql = .ok changes) : changes = [] := by
  rw [hchange migration hmem] at hown
  cases hown
  cases hsql
  rfl

theorem readsHistory : ReadsHistory reader Ledger.rows quotedNames where
  failed sql s e t hrun := by
    obtain ⟨⟨⟩, -⟩ | ⟨-, rfl⟩ := obey_cases hrun
    rfl
  created quoted hquoted s t hrun := by
    obtain rfl := quoteIdentifier_table hquoted
    obtain ⟨-, hsome⟩ | ⟨⟨⟩, -⟩ := obey_cases hrun
    rw [obey, if_pos rfl] at hsome
    exact congrArg rows (Option.some.inj hsome).symm
  selected quoted hquoted s := by
    obtain rfl := quoteIdentifier_table hquoted
    refine ⟨rfl, ?_, by rintro e ⟨⟩⟩
    rintro records ⟨⟩
    rfl
  inserted quoted hquoted migration hmem own changes hup hchanges sql name batch hread s t
      hrun := by
    obtain rfl := quoteIdentifier_table hquoted
    rw [changes_quotedNames (by simp [quotedNames]) hmem hup hchanges, List.nil_append] at hrun
    have hedit := edit_of_run hread hrun
    simp only [edit] at hedit
    split at hedit
    · next hkeys =>
      obtain ⟨n, hfound, hnew⟩ := Option.map_eq_some_iff.1 hedit
      have hdigits : (n : Int) = batch.toInt := by
        refine Int.repr_injective (String.toList_injective ?_)
        simpa using List.find?_some hfound
      have hsmall : ∀ n ∈ List.range 10, (Int64.ofNat n).toInt = n ∧
          (Int64.ofNat n).toInt ≤ Int32.maxValue.toInt := by
        decide
      obtain ⟨hvalue, hfits⟩ := hsmall n (List.mem_of_find?_eq_some hfound)
      have hbatch : Int64.ofNat n = batch := Int64.toInt_inj.1 (hvalue.trans hdigits)
      rw [← hnew]
      exact ⟨_, rfl, rfl, hbatch, hfits, by simpa using hkeys⟩
    · cases hedit
  deleted quoted hquoted migration hmem own changes hdown hchanges sql name hread s t hrun := by
    obtain rfl := quoteIdentifier_table hquoted
    rw [changes_quotedNames (by simp [quotedNames]) hmem hdown hchanges, List.nil_append] at hrun
    have hedit := edit_of_run hread hrun
    exact congrArg rows (Option.some.inj hedit).symm

end Ledger

open Ledger in
/-- Names with quotes are written, and the table has them as they are declared. -/
theorem Operation.keeps_names_quoted :
    ∃ t, (Operation.latest.run quotedNames reader).runFrom { remote := {} } =
        (.ok ["it's; --", "'), ('x"], t) ∧
      t.remote.rows.names = ["it's; --", "'), ('x"] ∧
      ((quotedNames.status reader).runFrom t).1 = .ok ⟨t.remote.rows, []⟩ := by
  have hresult : ((Operation.latest.run quotedNames reader).runFrom { remote := {} }).1 =
      .ok ["it's; --", "'), ('x"] := by
    decide +kernel
  rcases hrun : (Operation.latest.run quotedNames reader).runFrom { remote := {} } with ⟨r, t⟩
  rw [hrun] at hresult
  obtain rfl : r = .ok ["it's; --", "'), ('x"] := hresult
  have hkept := (Operation.keeps_names hrun).2 Ledger.rows readsHistory (by decide) (by decide)
    (.nil _)
  obtain ⟨hnames, -⟩ := hkept.applied rfl _ rfl
  refine ⟨t, rfl, hnames, ?_⟩
  have htable : Sql.quoteIdentifier quotedNames.table = .ok table := by decide +kernel
  have hlength : t.remote.rows.length = 2 := by
    rw [← length_names, hnames]
    rfl
  rcases hstatus : (quotedNames.status reader).runFrom t with ⟨result, u⟩
  rcases (hkept.status table htable).of_runFrom_eq hstatus with hok | ⟨e, -, ⟨⟩⟩
  rwa [hlength] at hok

/-- A migration with the name of the call: no name is written for it, so none is read, neither when
its row is added nor when it is removed. -/
theorem Migrator.nowText_unwritten :
    insertRow "\"pgfluent_migrations\"" "now()" 1 = .ok
      "INSERT INTO \"pgfluent_migrations\" (\"name\", \"batch\") VALUES (now(), 1)" ∧
    deleteRow "\"pgfluent_migrations\"" "now()" = .ok
      "DELETE FROM \"pgfluent_migrations\" WHERE \"name\" = now()" ∧
    HistoryTable.readEdit "\"pgfluent_migrations\""
      "INSERT INTO \"pgfluent_migrations\" (\"name\", \"batch\") VALUES (now(), 1)" = none ∧
    HistoryTable.readEdit "\"pgfluent_migrations\""
      "DELETE FROM \"pgfluent_migrations\" WHERE \"name\" = now()" = none := by
  decide +kernel

end PgToolkit
