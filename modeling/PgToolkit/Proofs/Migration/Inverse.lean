import PgToolkit.Proofs.Migration.Reachable
import PgToolkit.Proofs.Session.Record

/-!
# Undoing what was applied

A run that undoes the last batch, directly after one that applied migrations, takes exactly these
back, even when the one that applied them was stopped by a failure. The next run applies them again
under the same number. What the runs send is recorded.
-/

namespace PgToolkit

open Session History

variable {σ : Type}

theorem Executor.related_recorded (conn : Executor σ) :
    Related (@Records σ) conn.recorded conn where
  toRespectful := records_respectful
  query _ _ := records_record _ _
  transaction _ := records_record _ _

section Recording

variable {conn : Executor σ} {rows : σ → History} {s : SessionState (Recorded σ)}

/-- A queue is run: one transaction, and it is known what that did to the other side. -/
theorem SchemaQueue.succeeds_apply {q : SchemaQueue} {statements : List String}
    (post : Recorded σ → Prop) (hsql : q.toSql = .ok statements) (hne : statements ≠ [])
    (hpost : ∀ t, (conn.batchTransaction (batchText statements)).runFrom s.forget = (.ok (), t) →
      post ⟨t.remote, s.remote.seen ++ [⟨.transaction (batchText statements), true⟩]⟩) :
    (q.apply conn.recorded).Succeeds s fun _ u => post u.remote := by
  have hcall : (conn.recorded.batchTransaction (batchText statements)).Succeeds s
      fun _ u => post u.remote := succeeds_record fun _ t hrun => hpost t hrun
  rw [apply_eq]
  refine Succeeds.ofExcept_bind hsql ?_
  rw [if_neg (by simpa using hne)]
  refine hcall.attempt_bind ?_ ?_
  · rintro (e | ⟨⟩)
    · exact ((noCall_report _).bind fun _ => noCall_throw (α := Unit) _).records.grows
    · exact (noCall_report _).records.grows
  · intro _ t ht
    refine succeeds_report (fun _ u => post u.remote) fun u hu => ?_
    rw [hu]
    exact ht

namespace Migrator

variable {m : Migrator} {table name : String} {batch : Int64}

/-! ### One request -/

/-- The transaction of a migration: its changes in one direction, and a statement for its row. -/
def Sends (m : Migrator) (change : Migration → SchemaQueue → Except Error SchemaQueue)
    (statement : String → String) (name : String) (answered : Answered) : Prop :=
  ∃ migration ∈ m.migrations, ∃ own changes, migration.name = name ∧
    change migration m.openingQueue = .ok own ∧ own.toSql = .ok changes ∧
    answered = ⟨.transaction (batchText (changes ++ [statement name])), true⟩

/-- The changes of migrations in one direction can be written down. -/
def Writable (m : Migrator) (change : Migration → SchemaQueue → Except Error SchemaQueue)
    (names : List String) : Prop :=
  ∀ migration ∈ m.migrations, migration.name ∈ names →
    ∃ own changes, change migration m.openingQueue = .ok own ∧ own.toSql = .ok changes

theorem Writable.mono {change : Migration → SchemaQueue → Except Error SchemaQueue}
    {names names' : List String} (h : m.Writable change names) (hsub : names' ⊆ names) :
    m.Writable change names' :=
  fun migration hmem hname => h migration hmem (hsub hname)

theorem find_eq_ok_of_mem (hname : name ∈ m.names) :
    ∃ migration, m.find name = .ok migration ∧ migration ∈ m.migrations ∧
      migration.name = name := by
  obtain ⟨migration, hmem, rfl⟩ := List.mem_map.1 hname
  have hfound : (m.migrations.find? (·.name = migration.name)).isSome = true :=
    List.find?_isSome.2 ⟨migration, hmem, by simp⟩
  obtain ⟨found, hfind⟩ := Option.isSome_iff_exists.1 hfound
  have hok : m.find migration.name = .ok found := by
    rw [find, hfind]
  exact ⟨found, hok, mem_of_find_eq_ok hok⟩

/-- What is queued for a migration whose changes can be written down. -/
theorem Writable.exists_queue {change : Migration → SchemaQueue → Except Error SchemaQueue}
    {names : List String} (h : m.Writable change names) (hdeclared : name ∈ m.names)
    (hname : name ∈ names) (sql : String) :
    ∃ migration ∈ m.migrations, ∃ own changes, migration.name = name ∧
      change migration m.openingQueue = .ok own ∧ own.toSql = .ok changes ∧
      (do
        let own ← change (← m.find name) m.openingQueue
        return own.push (.raw sql)) = Except.ok (own.push (.raw sql)) ∧
      (own.push (.raw sql)).toSql = .ok (changes ++ [sql]) := by
  obtain ⟨migration, hfind, hmem, rfl⟩ := find_eq_ok_of_mem hdeclared
  obtain ⟨own, changes, hown, hchanges⟩ := h migration hmem hname
  refine ⟨migration, hmem, own, changes, rfl, hown, hchanges, ?_,
    SchemaQueue.toSql_push_raw_eq_ok_iff.2 ⟨changes, hchanges, rfl⟩⟩
  rw [hfind, bind_eq_ok_iff]
  refine ⟨migration, rfl, ?_⟩
  rw [hown]
  rfl

/-- Running what is queued for a migration, and telling so. -/
theorem succeeds_queue {queue : Except Error SchemaQueue} {q : SchemaQueue}
    {statements : List String} {event : Event} (post : Recorded σ → Prop) (hqueue : queue = .ok q)
    (hsql : q.toSql = .ok statements) (hne : statements ≠ [])
    (hpost : ∀ t, (conn.batchTransaction (batchText statements)).runFrom s.forget = (.ok (), t) →
      post ⟨t.remote, s.remote.seen ++ [⟨.transaction (batchText statements), true⟩]⟩) :
    Succeeds (do
      let q ← Session.ofExcept queue
      q.apply conn.recorded
      Session.report event) s fun _ u => post u.remote := by
  refine Succeeds.ofExcept_bind hqueue ?_
  refine (SchemaQueue.succeeds_apply post hsql hne hpost).bind
    (fun _ => (noCall_report _).records.grows) fun _ t ht => succeeds_report _ fun u hu => ?_
  rw [hu]
  exact ht

theorem succeeds_ensureTable (hkeeps : KeepsHistory conn rows m)
    (htable : Sql.quoteIdentifier m.table = .ok table) :
    (m.ensureTable conn.recorded).Succeeds s fun _ u =>
      rows u.remote.remote = rows s.remote.remote ∧ u.remote.seen = s.remote.seen ++
        [⟨.transaction (batchText [HistoryTable.creation table]), true⟩] := by
  have hsql : m.creationQueue.toSql = .ok [HistoryTable.creation table] := by
    rw [toSql_creationQueue, htable]
    rfl
  rw [ensureTable_eq]
  refine SchemaQueue.succeeds_apply (fun w => rows w.remote = rows s.remote.remote ∧
    w.seen = s.remote.seen ++ [⟨.transaction (batchText [HistoryTable.creation table]), true⟩])
    hsql (by simp) fun t hrun => ?_
  exact ⟨hkeeps.created table htable _ t hrun, rfl⟩

theorem succeeds_status (hkeeps : KeepsHistory conn rows m) (hdistinct : m.names.Nodup)
    (hlegal : Legal m.names (rows s.remote.remote))
    (htable : Sql.quoteIdentifier m.table = .ok table) :
    (m.status conn.recorded).Succeeds s fun status u =>
      status = ⟨rows s.remote.remote, m.names.drop (rows s.remote.remote).length⟩ ∧
      rows u.remote.remote = rows s.remote.remote ∧ u.remote.seen = s.remote.seen ++
        [⟨.query (HistoryTable.selection table) [], true⟩] := by
  have hquery : (conn.recorded.query (HistoryTable.selection table) []).Succeeds s
      fun records u => records = (rows s.remote.remote).map AppliedMigration.toRecord ∧
        rows u.remote.remote = rows s.remote.remote ∧ u.remote.seen = s.remote.seen ++
          [⟨.query (HistoryTable.selection table) [], true⟩] := by
    refine succeeds_record fun records t hrun => ?_
    obtain ⟨hsame, hrecords, -⟩ := (hkeeps.selected table htable s.forget).of_runFrom_eq hrun
    exact ⟨hrecords records rfl, hsame, rfl⟩
  have hhistory : (m.fetchHistory conn.recorded).Succeeds s fun history u =>
      history = rows s.remote.remote ∧ rows u.remote.remote = rows s.remote.remote ∧
        u.remote.seen = s.remote.seen ++ [⟨.query (HistoryTable.selection table) [], true⟩] := by
    refine Succeeds.ofExcept_bind htable (hquery.attempt_bind ?_ ?_)
    · rintro (e | records)
      · dsimp only
        split
        · exact (noCall_pure _).records.grows
        · exact (noCall_throw _).records.grows
      · exact (noCall_ofExcept _).records.grows
    · rintro _ t ⟨rfl, hsame, hseen⟩
      exact fun _ => ⟨_, mapM_ofRecord _, rfl, hsame, hseen⟩
  refine hhistory.bind (fun _ => (noCall_ofExcept _).records.grows) ?_
  rintro _ t ⟨rfl, hsame, hseen⟩
  exact fun _ => ⟨_, statusOf_of_legal hlegal hdistinct, rfl, hsame, hseen⟩

/-- What a run sends before its migrations. -/
def opening (table : String) : List Answered :=
  [⟨.transaction (batchText [HistoryTable.creation table]), true⟩,
    ⟨.query (HistoryTable.selection table) [], true⟩]

/-- How a run begins in which no request fails. -/
theorem succeeds_opening {α : Type} {next : MigrationStatus → Session (Recorded σ) α}
    {last : α → SessionState (Recorded σ) → Prop} (hkeeps : KeepsHistory conn rows m)
    (hdistinct : m.names.Nodup) (hlegal : Legal m.names (rows s.remote.remote))
    (htable : Sql.quoteIdentifier m.table = .ok table) (hgrows : ∀ status, Grows (next status))
    (hnext : ∀ t, rows t.remote.remote = rows s.remote.remote →
      t.remote.seen = s.remote.seen ++ opening table →
      (next ⟨rows s.remote.remote, m.names.drop (rows s.remote.remote).length⟩).Succeeds t last) :
    Succeeds (m.ensureTable conn.recorded >>= fun _ => m.status conn.recorded >>= next) s last := by
  have hstatus : Grows (m.status conn.recorded) := (m.related_status conn.related_recorded).grows
  refine (succeeds_ensureTable hkeeps htable).bind (fun _ => hstatus.bind hgrows) ?_
  · rintro _ t ⟨hsame, hseen⟩
    refine (succeeds_status hkeeps hdistinct (hsame ▸ hlegal) htable).bind hgrows ?_
    rintro _ u ⟨rfl, hsame', hseen'⟩
    rw [hsame] at hsame' ⊢
    refine hnext u hsame' ?_
    rw [hseen', hseen, List.append_assoc]
    rfl

/-! ### Runs -/

/-- One migration is undone. -/
theorem succeeds_revertOne (hkeeps : KeepsHistory conn rows m)
    (htable : Sql.quoteIdentifier m.table = .ok table) {names : List String}
    (hwritable : m.Writable Migration.down names) (hdeclared : name ∈ m.names)
    (hname : name ∈ names) (hplain : name ≠ Value.nowText) :
    (m.revertOne conn.recorded table batch name).Succeeds s fun _ u =>
      rows u.remote.remote = (rows s.remote.remote).filter (·.name ≠ name) ∧
      ∃ answered, m.Sends Migration.down (HistoryTable.deletion table) name answered ∧
        u.remote.seen = s.remote.seen ++ [answered] := by
  obtain ⟨migration, hmem, own, changes, rfl, hdown, hchanges, hqueue, hsql⟩ :=
    hwritable.exists_queue hdeclared hname (HistoryTable.deletion table name)
  have hqueue' : m.downQueue table migration.name =
      .ok (own.push (.raw (HistoryTable.deletion table migration.name))) := by
    rw [downQueue, deleteRow_eq_ok hplain]
    exact hqueue
  refine succeeds_queue (fun w =>
    rows w.remote = (rows s.remote.remote).filter (·.name ≠ migration.name) ∧
      ∃ answered, m.Sends Migration.down (HistoryTable.deletion table) migration.name answered ∧
        w.seen = s.remote.seen ++ [answered]) hqueue' hsql (by simp) fun t hrun => ?_
  exact ⟨hkeeps.deleted table htable migration hmem own changes hdown hchanges _ t hrun, _,
    ⟨migration, hmem, own, changes, rfl, hdown, hchanges, rfl⟩, rfl⟩

/-- One migration is applied. -/
theorem succeeds_applyOne (hkeeps : KeepsHistory conn rows m)
    (htable : Sql.quoteIdentifier m.table = .ok table) {names : List String}
    (hwritable : m.Writable Migration.up names) (hdeclared : name ∈ m.names)
    (hname : name ∈ names) (hplain : name ≠ Value.nowText) :
    (m.applyOne conn.recorded table batch name).Succeeds s fun _ u =>
      (∃ row : AppliedMigration, rows u.remote.remote = rows s.remote.remote ++ [row] ∧
        row.name = name ∧ row.batch = batch) ∧
      ∃ answered, m.Sends Migration.up (HistoryTable.insertion table · batch) name answered ∧
        u.remote.seen = s.remote.seen ++ [answered] := by
  obtain ⟨migration, hmem, own, changes, rfl, hup, hchanges, hqueue, hsql⟩ :=
    hwritable.exists_queue hdeclared hname (HistoryTable.insertion table name batch)
  have hqueue' : m.upQueue table migration.name batch =
      .ok (own.push (.raw (HistoryTable.insertion table migration.name batch))) := by
    rw [upQueue, insertRow_eq_ok hplain]
    exact hqueue
  refine succeeds_queue (fun w =>
    (∃ row : AppliedMigration, rows w.remote = rows s.remote.remote ++ [row] ∧
      row.name = migration.name ∧ row.batch = batch) ∧
      ∃ answered, m.Sends Migration.up (HistoryTable.insertion table · batch) migration.name
        answered ∧ w.seen = s.remote.seen ++ [answered]) hqueue' hsql (by simp) fun t hrun => ?_
  obtain ⟨row, hrows, hrow, hbatch, -⟩ :=
    hkeeps.inserted table htable migration hmem own changes hup hchanges batch _ t hrun
  exact ⟨⟨row, hrows, hrow, hbatch⟩, _, ⟨migration, hmem, own, changes, rfl, hup, hchanges, rfl⟩,
    rfl⟩

/-- What was sent for the migrations `names`, in this order. -/
def SendsAll (m : Migrator) (change : Migration → SchemaQueue → Except Error SchemaQueue)
    (statement : String → String) (names : List String) (before after : List Answered) : Prop :=
  ∃ sent, after = before ++ sent ∧ List.Forall₂ (m.Sends change statement) names sent

theorem SendsAll.nil {change : Migration → SchemaQueue → Except Error SchemaQueue}
    {statement : String → String} (before : List Answered) :
    m.SendsAll change statement [] before before :=
  ⟨[], (List.append_nil _).symm, .nil⟩

theorem SendsAll.cons {change : Migration → SchemaQueue → Except Error SchemaQueue}
    {statement : String → String} {names : List String} {before after : List Answered}
    {answered : Answered} (hfirst : m.Sends change statement name answered)
    (hrest : m.SendsAll change statement names (before ++ [answered]) after) :
    m.SendsAll change statement (name :: names) before after := by
  obtain ⟨sent, rfl, hsent⟩ := hrest
  exact ⟨answered :: sent, List.append_assoc .., .cons hfirst hsent⟩

/-- The last migrations of a history are undone, newest first. -/
theorem succeeds_revertAll {kept removed : History} (hkeeps : KeepsHistory conn rows m)
    (htable : Sql.quoteIdentifier m.table = .ok table) (hplain : Value.nowText ∉ m.names)
    (hwritable : m.Writable Migration.down removed.names)
    (hnames : (History.names (kept ++ removed)).Sublist m.names) (hdistinct : m.names.Nodup)
    (hrows : rows s.remote.remote = kept ++ removed) :
    (removed.names.reverse.forM (m.revertOne conn.recorded table batch)).Succeeds s fun _ u =>
      rows u.remote.remote = kept ∧ m.SendsAll Migration.down (HistoryTable.deletion table)
        removed.names.reverse s.remote.seen u.remote.seen := by
  induction removed using List.reverseRecOn generalizing s with
  | nil =>
    exact succeeds_pure ⟨hrows.trans (List.append_nil kept), .nil _⟩
  | append_singleton front row ih =>
    have hdeclared : row.name ∈ m.names := hnames.subset (by simp)
    have hreverse : (History.names (front ++ [row])).reverse =
        row.name :: (History.names front).reverse := by
      rw [names_append, List.reverse_append]
      rfl
    have hcons : (row.name :: (History.names front).reverse).forM
        (m.revertOne conn.recorded table batch) =
          m.revertOne conn.recorded table batch row.name >>= fun _ =>
            (History.names front).reverse.forM (m.revertOne conn.recorded table batch) := rfl
    have hgrows : Grows ((History.names front).reverse.forM
        (m.revertOne conn.recorded table batch)) :=
      (records_respectful.forM (fun name => m.related_revertOne conn.related_recorded table name
        batch) _).grows
    rw [hreverse, hcons]
    refine (succeeds_revertOne hkeeps htable hwritable hdeclared (by simp)
      (fun h => hplain (h ▸ hdeclared))).bind (fun _ => hgrows) ?_
    rintro _ t ⟨hleft, answered, hsends, hseen⟩
    -- the row of the migration is the last one
    rw [← List.append_assoc] at hrows hnames
    have hfront : rows t.remote.remote = kept ++ front := by
      rw [hleft, hrows, filter_name_ne_of_nodup (hdistinct.sublist hnames), List.append_nil]
    rw [names_append] at hnames
    refine (ih (hwritable.mono (by simp)) ((List.sublist_append_left _ _).trans hnames)
      hfront).mono ?_
    rintro _ u ⟨hkept, hsent⟩
    rw [hseen] at hsent
    exact ⟨hkept, .cons hsends hsent⟩

/-- Migrations are applied under one number. -/
theorem succeeds_applyAll (batch : Int64) {pending : List String}
    (hkeeps : KeepsHistory conn rows m) (htable : Sql.quoteIdentifier m.table = .ok table)
    (hplain : Value.nowText ∉ m.names)
    (hwritable : m.Writable Migration.up pending) (hdeclared : pending ⊆ m.names) :
    (pending.forM (m.applyOne conn.recorded table batch)).Succeeds s fun _ u =>
      (∃ added : History, rows u.remote.remote = rows s.remote.remote ++ added ∧
        added.names = pending ∧ ∀ row ∈ added, row.batch = batch) ∧
      m.SendsAll Migration.up (HistoryTable.insertion table · batch) pending s.remote.seen
        u.remote.seen := by
  induction pending generalizing s with
  | nil => exact succeeds_pure ⟨⟨[], (List.append_nil _).symm, rfl, by simp⟩, .nil _⟩
  | cons name rest ih =>
    obtain ⟨hname, hrest⟩ := List.cons_subset.1 hdeclared
    have hcons : (name :: rest).forM (m.applyOne conn.recorded table batch) =
        m.applyOne conn.recorded table batch name >>= fun _ =>
          rest.forM (m.applyOne conn.recorded table batch) := rfl
    have hgrows : Grows (rest.forM (m.applyOne conn.recorded table batch)) :=
      (records_respectful.forM (fun name => m.related_applyOne conn.related_recorded table name
        batch) _).grows
    rw [hcons]
    refine (succeeds_applyOne hkeeps htable hwritable hname List.mem_cons_self
      (fun h => hplain (h ▸ hname))).bind (fun _ => hgrows) ?_
    rintro _ t ⟨⟨row, hrow, rfl, hbatch⟩, answered, hsends, hseen⟩
    refine (ih (hwritable.mono (List.subset_cons_self ..)) hrest).mono ?_
    rintro _ u ⟨⟨added, hadded, rfl, hnumbers⟩, hsent⟩
    rw [hseen] at hsent
    refine ⟨⟨row :: added, ?_, rfl, List.forall_mem_cons.2 ⟨hbatch, hnumbers⟩⟩, .cons hsends hsent⟩
    rw [hadded, hrow, List.append_assoc]
    rfl

/-- The last batch is undone: the rows in front of it are left. -/
theorem succeeds_rollback {kept removed : History} (hkeeps : KeepsHistory conn rows m)
    (hdistinct : m.names.Nodup) (hplain : Value.nowText ∉ m.names)
    (htable : Sql.quoteIdentifier m.table = .ok table)
    (hwritable : m.Writable Migration.down removed.names)
    (hlegal : Legal m.names (kept ++ removed)) (hne : removed ≠ [])
    (hremoved : ∀ row ∈ removed, row.number = lastNumber (kept ++ removed))
    (hkept : ∀ row ∈ kept, row.number < lastNumber (kept ++ removed))
    (hrows : rows s.remote.remote = kept ++ removed) :
    (m.rollback conn.recorded).Succeeds s fun undone u => undone = removed.names.reverse ∧
      rows u.remote.remote = kept ∧ m.SendsAll Migration.down (HistoryTable.deletion table)
        removed.names.reverse (s.remote.seen ++ opening table) u.remote.seen := by
  refine succeeds_opening hkeeps hdistinct (hrows ▸ hlegal) htable ?_ ?_
  · intro status
    dsimp only
    by_cases hnone : status.lastBatch = 0
    · rw [if_pos hnone]
      exact ((noCall_report _).bind fun _ => noCall_pure _).records.grows
    · rw [if_neg hnone]
      refine (noCall_ofExcept _).records.grows.bind fun table => Grows.bind ?_ fun _ =>
        (noCall_pure _).records.grows
      exact (records_respectful.forM (fun name =>
        m.related_revertOne conn.related_recorded table name _) _).grows
  · intro t hsame hseen
    rw [hrows] at hsame ⊢
    dsimp only
    have hlast := hlegal.sorted.toInt_lastBatch (m.names.drop (kept ++ removed).length)
    have hsome : (MigrationStatus.mk (kept ++ removed)
        (m.names.drop (kept ++ removed).length)).lastBatch ≠ 0 := by
      rw [Ne, hlegal.lastBatch_eq_zero_iff]
      simp [hne]
    rw [if_neg hsome, batchNames_eq rfl (hlast ▸ hremoved) (hlast ▸ hkept)]
    refine Succeeds.ofExcept_bind htable ?_
    refine (succeeds_revertAll hkeeps htable hplain hwritable hlegal.names.sublist hdistinct
      hsame).bind (fun _ => (noCall_pure _).records.grows) ?_
    rintro _ u ⟨hleft, hsent⟩
    rw [hseen] at hsent
    exact succeeds_pure ⟨rfl, hleft, hsent⟩

/-- Everything that is pending is applied under one number. -/
theorem succeeds_latest {old : History} (hkeeps : KeepsHistory conn rows m)
    (hdistinct : m.names.Nodup) (hplain : Value.nowText ∉ m.names)
    (htable : Sql.quoteIdentifier m.table = .ok table)
    (hwritable : m.Writable Migration.up (m.names.drop old.length))
    (hlegal : Legal m.names old) (hrows : rows s.remote.remote = old) :
    (m.latest conn.recorded).Succeeds s fun done u => done = m.names.drop old.length ∧
      ∃ batch : Int64, batch.toInt = old.lastNumber + 1 ∧
        (∃ added : History, rows u.remote.remote = old ++ added ∧
          added.names = m.names.drop old.length ∧ ∀ row ∈ added, row.batch = batch) ∧
        m.SendsAll Migration.up (HistoryTable.insertion table · batch) (m.names.drop old.length)
          (s.remote.seen ++ opening table) u.remote.seen := by
  subst hrows
  refine succeeds_opening hkeeps hdistinct hlegal htable ?_ ?_
  · intro status
    by_cases hdone : status.isUpToDate = true
    · rw [if_pos hdone]
      exact ((noCall_report _).bind fun _ => noCall_pure _).records.grows
    · rw [if_neg hdone]
      refine (noCall_ofExcept _).records.grows.bind fun table => Grows.bind ?_ fun _ =>
        (noCall_pure _).records.grows
      exact (records_respectful.forM (fun name =>
        m.related_applyOne conn.related_recorded table name _) _).grows
  · intro t hsame hseen
    have hbatch := hlegal.sorted.toInt_lastBatch_add_one
      (m.names.drop (rows s.remote.remote).length)
    have hall := succeeds_applyAll (s := t) ((MigrationStatus.mk (rows s.remote.remote)
      (m.names.drop (rows s.remote.remote).length)).lastBatch + 1) hkeeps htable hplain hwritable
      (List.drop_subset ..)
    rw [hsame, hseen] at hall
    by_cases hdone : (MigrationStatus.mk (rows s.remote.remote)
      (m.names.drop (rows s.remote.remote).length)).isUpToDate = true
    · rw [if_pos hdone]
      have hnone : m.names.drop (rows s.remote.remote).length = [] :=
        MigrationStatus.isUpToDate_iff.1 hdone
      refine (succeeds_report (fun _ u => u.remote = t.remote) fun u hu => hu).bind
        (fun _ => (noCall_pure _).records.grows) fun _ u hu => succeeds_pure ?_
      rw [hnone, hu, hsame, hseen]
      exact ⟨rfl, _, hbatch, ⟨[], (List.append_nil _).symm, rfl, by simp⟩, .nil _⟩
    · rw [if_neg hdone]
      refine Succeeds.ofExcept_bind htable ?_
      refine hall.bind (fun _ => (noCall_pure _).records.grows) ?_
      rintro _ u ⟨hadded, hsent⟩
      exact succeeds_pure ⟨rfl, _, hbatch, hadded, hsent⟩

end Migrator

end Recording

/-- How a run ends that applies what is pending: it has applied some of it in order, as a batch of
its own. -/
theorem Operation.Outcome.exists_applied {conn : Executor σ} {rows : σ → History} {m : Migrator}
    {seen : List History} {r : Except Error (List String)} {s t : SessionState σ}
    (h : Operation.Outcome conn rows m s seen .latest r t) :
    ∃ done, done <+: m.names.drop (rows s.remote).length ∧
      Applied (rows s.remote) done (rows t.remote) := by
  cases h with
  | refused _ _ hsame =>
    exact ⟨[], List.nil_prefix, [], by rw [hsame, List.append_nil], rfl, by simp⟩
  | applied happlied => exact ⟨_, List.prefix_rfl, happlied⟩
  | stopped _ _ _ hsplit _ happlied _ hsame =>
    rw [hsame]
    exact ⟨_, hsplit ▸ List.prefix_append .., happlied⟩

namespace Migrator

/-- A run ends before its first request, unless the name of the table can be written. -/
theorem quoteIdentifier_or_latest_eq_error (m : Migrator) (conn : Executor σ)
    (s : SessionState σ) : (∃ table, Sql.quoteIdentifier m.table = .ok table) ∨
      ∃ e, (m.latest conn).runFrom s = (.error e, s) := by
  cases hsql : m.creationQueue.toSql with
  | error e =>
    right
    have hensure : (m.ensureTable conn).runFrom s = (.error e, s) :=
      SchemaQueue.runFrom_apply_of_error hsql
    exact ⟨e, runFrom_bind_of_error hensure⟩
  | ok statements =>
    left
    obtain ⟨table, htable, -⟩ := exists_creation_of_creationQueue hsql
    exact ⟨table, htable⟩

end Migrator

namespace Reachable

variable {conn : Executor σ} {rows : σ → History} {declared : List String} {s t : SessionState σ}
  {m : Migrator}

/-- A run that applies what is pending leaves a legal history with a batch more. -/
theorem exists_applied (hreach : Reachable conn rows declared s)
    (hm : Admitted conn rows declared m) {r : Except Error (List String)}
    (hlatest : (m.latest conn).runFrom s = (r, t)) : Legal m.names (rows t.remote) ∧
      ∃ done, done <+: m.names.drop (rows s.remote).length ∧
        Applied (rows s.remote) done (rows t.remote) := by
  have hnext := (hreach.operate .latest hm).legal
  rw [Operation.run, hlatest] at hnext
  refine ⟨hnext, ?_⟩
  rcases hrun : (m.latest (conn.watched rows)).runFrom s.unseen with ⟨r', t'⟩
  have hforget := (Operation.latest.forgets_run m conn rows).runFrom_eq hrun
  rw [SessionState.forget_unseen, Operation.run, hlatest] at hforget
  cases hforget
  exact ((ensures_next .latest hreach.legal hm).of_runFrom_eq hrun).outcome.exists_applied

/-- A run that applies what is pending, possibly stopped by a failure, has applied the rows `added`.
When no request of the next run fails and the reverse changes can be written down, that run undoes
exactly these migrations, newest first, each in one transaction with the removal of its row, and the
history is what it was before. When nothing fails then either, the run after it applies everything
that is pending, beginning with the same migrations and under the same number. -/
theorem rollback_latest (hreach : Reachable conn rows declared s)
    (hm : Admitted conn rows declared m) {r : Except Error (List String)}
    (hlatest : (m.latest conn).runFrom s = (r, t)) {added : History}
    (hadded : rows t.remote = rows s.remote ++ added) (hne : added ≠ [])
    {undone : Except Error (List String)} {u : SessionState (Recorded σ)}
    (hrollback : (m.rollback conn.recorded).runFrom t.unseen = (undone, u)) (hnone : NoneFailed u)
    (hdown : m.Writable Migration.down added.names) :
    added.names.Nodup ∧
    (m.rollback conn).runFrom t = (.ok added.names.reverse, u.forget) ∧
    rows u.forget.remote = rows s.remote ∧
    ∃ table, Sql.quoteIdentifier m.table = .ok table ∧
      m.SendsAll Migration.down (HistoryTable.deletion table) added.names.reverse
        (Migrator.opening table) u.remote.seen ∧
      ∀ again v, (m.latest conn.recorded).runFrom u.forget.unseen = (again, v) → NoneFailed v →
        m.Writable Migration.up (m.names.drop (rows s.remote).length) →
        (m.latest conn).runFrom u.forget = (.ok (m.names.drop (rows s.remote).length), v.forget) ∧
        added.names <+: m.names.drop (rows s.remote).length ∧
        ∃ batch, (∀ row ∈ added, row.batch = batch) ∧
          (∃ readded : History, rows v.forget.remote = rows s.remote ++ readded ∧
            readded.names = m.names.drop (rows s.remote).length ∧
            ∀ row ∈ readded, row.batch = batch) ∧
          m.SendsAll Migration.up (HistoryTable.insertion table · batch)
            (m.names.drop (rows s.remote).length) (Migrator.opening table) v.remote.seen := by
  have hlegal : Legal m.names (rows s.remote) := hreach.legal.mono hm.grown
  obtain ⟨hlegal', done, hdone, added', hadded', rfl, hnumber⟩ := hreach.exists_applied hm hlatest
  obtain rfl : added' = added := List.append_cancel_left (hadded'.symm.trans hadded)
  -- the name of the table can be written, or nothing would have been applied
  obtain ⟨table, htable⟩ : ∃ table, Sql.quoteIdentifier m.table = .ok table := by
    refine (m.quoteIdentifier_or_latest_eq_error conn s).resolve_right ?_
    rintro ⟨e, herror⟩
    rw [herror] at hlatest
    cases hlatest
    exact hne (List.append_cancel_left (hadded.symm.trans (List.append_nil _).symm))
  -- the rows were applied as a batch of their own, which is the last one
  have hlast : lastNumber (rows s.remote ++ added') = (rows s.remote).lastNumber + 1 :=
    lastNumber_append hne hnumber
  have hkept : ∀ row ∈ rows s.remote, row.number < lastNumber (rows s.remote ++ added') := by
    intro row hrow
    rw [hlast]
    exact Int.lt_add_one_of_le (hlegal.sorted.number_le_lastNumber hrow)
  rw [hadded] at hlegal'
  have hrun := (m.related_rollback conn.related_recorded).forgets.runFrom_eq hrollback
  obtain ⟨_, rfl, rfl, hrows, hsent⟩ := (Migrator.succeeds_rollback hm.keeps hm.distinct hm.plain
    htable hdown hlegal' hne (hlast ▸ hnumber) hkept hadded).of_runFrom_eq hrollback hnone
  have hnodup : added'.names.Nodup := by
    refine hm.distinct.sublist (List.Sublist.trans ?_ hlegal'.names.sublist)
    rw [names_append]
    exact List.sublist_append_right ..
  refine ⟨hnodup, hrun, hrows, table, htable, hsent, ?_⟩
  intro again v hagain hnone' hup
  have hrun' := (m.related_latest conn.related_recorded).forgets.runFrom_eq hagain
  obtain ⟨_, rfl, rfl, batch, hbatch, hreadded, hsent'⟩ := (Migrator.succeeds_latest
    (s := u.forget.unseen) hm.keeps hm.distinct hm.plain htable hup hlegal hrows).of_runFrom_eq
      hagain hnone'
  refine ⟨hrun', hdone, batch, ?_, hreadded, hsent'⟩
  intro row hrow
  exact Int64.toInt_inj.1 ((hnumber row hrow).trans hbatch.symm)

end Reachable

/-! ### A table in memory -/

namespace Ledger

/-- Undoing the second migration after it was applied in a run of its own. -/
def undoing : Except Error (List String) × SessionState (Recorded Ledger) :=
  (migrator.rollback conn.recorded).runFrom afterTwoRuns.unseen

/-- Applying it again. -/
def redoing : Except Error (List String) × SessionState (Recorded Ledger) :=
  (migrator.latest conn.recorded).runFrom undoing.2.forget.unseen

theorem latest_afterOneRun : (migrator.latest conn).runFrom afterOneRun =
    (((migrator.latest conn).runFrom afterOneRun).1, afterTwoRuns) := by
  rw [afterTwoRuns, Operation.run, Prod.mk.eta]

theorem runs_succeed :
    afterOneRun.remote.rows = [⟨1, "001_users", 1, none⟩] ∧
      afterTwoRuns.remote.rows = [⟨1, "001_users", 1, none⟩, ⟨2, "002_posts", 2, none⟩] ∧
      undoing.2.remote.seen.all (·.succeeded) = true ∧
      redoing.2.remote.seen.all (·.succeeded) = true := by
  decide +kernel

theorem writable (change : Migration → SchemaQueue → Except Error SchemaQueue)
    (hchange : ∀ migration ∈ migrator.migrations, change migration = .ok) (names : List String) :
    migrator.Writable change names :=
  fun migration hmem _ => ⟨migrator.openingQueue, [], by rw [hchange migration hmem], rfl⟩

end Ledger

namespace Reachable

open Ledger in
/-- The second migration is applied, undone, and applied again. -/
theorem rollback_latest_ledger :
    Reachable conn Ledger.rows migrator.names afterOneRun ∧
    Admitted conn Ledger.rows migrator.names migrator ∧
    (migrator.latest conn).runFrom afterOneRun =
      (((migrator.latest conn).runFrom afterOneRun).1, afterTwoRuns) ∧
    afterTwoRuns.remote.rows = afterOneRun.remote.rows ++ [⟨2, "002_posts", 2, none⟩] ∧
    (migrator.rollback conn.recorded).runFrom afterTwoRuns.unseen = (undoing.1, undoing.2) ∧
    NoneFailed undoing.2 ∧ migrator.Writable Migration.down ["002_posts"] ∧
    (migrator.rollback conn).runFrom afterTwoRuns = (.ok ["002_posts"], undoing.2.forget) ∧
    undoing.2.forget.remote.rows = afterOneRun.remote.rows ∧
    (migrator.latest conn).runFrom undoing.2.forget = (.ok ["002_posts"], redoing.2.forget) := by
  obtain ⟨hone, htwo, hundone, hredone⟩ := runs_succeed
  have hdrop : migrator.names.drop afterOneRun.remote.rows.length = ["002_posts"] := by
    rw [hone]
    rfl
  have hadded : afterTwoRuns.remote.rows =
      afterOneRun.remote.rows ++ [⟨2, "002_posts", 2, none⟩] := by
    rw [htwo, hone]
    rfl
  have hundoing : (migrator.rollback conn.recorded).runFrom afterTwoRuns.unseen =
      (undoing.1, undoing.2) := by
    rw [undoing, Prod.mk.eta]
  have hredoing : (migrator.latest conn.recorded).runFrom undoing.2.forget.unseen =
      (redoing.1, redoing.2) := by
    rw [redoing, Prod.mk.eta]
  obtain ⟨-, hrollback, hrows, _, _, _, hagain⟩ := rollback_latest reachable_afterOneRun
    (admitted List.prefix_rfl) latest_afterOneRun hadded (by simp) hundoing
    (List.all_eq_true.1 hundone) (writable Migration.down (by simp [migrator]) _)
  obtain ⟨hlatest, -⟩ := hagain _ _ hredoing (List.all_eq_true.1 hredone)
    (writable Migration.up (by simp [migrator]) _)
  rw [hdrop] at hlatest
  exact ⟨reachable_afterOneRun, admitted List.prefix_rfl, latest_afterOneRun, hadded, hundoing,
    List.all_eq_true.1 hundone, writable Migration.down (by simp [migrator]) _, hrollback, hrows,
    hlatest⟩

end Reachable

end PgToolkit
