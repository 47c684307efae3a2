import PgToolkit.Proofs.Migration.Table
import PgToolkit.Proofs.Schema.Run
import PgToolkit.Proofs.Session.Watch

/-!
# Calls of a migrator

Every part of a run makes at most one call. What such a part does to the history is told by its
result: it fails and does nothing, or it does what its call is for.
-/

namespace PgToolkit

open Session History

variable {σ α : Type} {conn : Executor σ} {rows : σ → History}

/-- What a session made of the history `old` when it succeeded. It left it alone when it failed. -/
structure Changed (rows : σ → History) (old : History) (change : α → History → Prop)
    (r : Except Error α) (t : SessionState σ) : Prop where
  ok : ∀ a, r = .ok a → change a (rows t.remote)
  error : ∀ e, r = .error e → rows t.remote = old

/-- A row that was added behind a history for a migration. -/
structure Inserted (old : History) (name : String) (batch : Int64) (row : AppliedMigration) :
    Prop where
  name : row.name = name
  batch : row.batch = batch
  fits : row.number ≤ Int32.maxValue.toInt
  key : ∀ other ∈ old, other.id < row.id

namespace Changed

variable {s t : SessionState σ} {old : History} {change change' : α → History → Prop}
  {r : Except Error α}

theorem mono (h : Changed rows old change r t) (himp : ∀ a k, change a k → change' a k) :
    Changed rows old change' r t where
  ok a hr := himp a _ (h.ok a hr)
  error := h.error

theorem of_error (e : Error) : Changed rows (rows s.remote) change (.error e) s where
  ok := by simp
  error _ _ := rfl

end Changed

/-! ### What the calls do -/

variable {s : SessionState σ}

/-- Running a queue with one transaction: it is enough to know what the transaction does to the
history when it succeeds. -/
theorem SchemaQueue.changed_apply {m : Migrator} {q : SchemaQueue} {change : History → Prop}
    (hkeeps : KeepsHistory conn rows m)
    (hbatch : ∀ statements, q.toSql = .ok statements → statements ≠ [] ∧
      ∀ t, (conn.batchTransaction (batchText statements)).runFrom s = (.ok (), t) →
        change (rows t.remote)) :
    (q.apply conn).Ensures s (Changed rows (rows s.remote) fun _ => change) := by
  cases hsql : q.toSql with
  | error e =>
    rw [Ensures, runFrom_apply_of_error hsql]
    exact .of_error e
  | ok statements =>
    -- the transaction is the only call
    obtain ⟨hne, hcall⟩ := hbatch statements hsql
    let post (r : Except Error Unit) (remote : σ) : Prop :=
      (r = .ok () → change (rows remote)) ∧ ∀ e, r = .error e → rows remote = rows s.remote
    have htransaction : (conn.batchTransaction (batchText statements)).Ensures s
        fun r t => post r t.remote := by
      rcases hrun : (conn.batchTransaction (batchText statements)).runFrom s with ⟨e | ⟨⟩, t⟩
      · rw [Ensures, hrun]
        exact ⟨by simp, fun _ _ => hkeeps.failed _ _ _ _ hrun⟩
      · rw [Ensures, hrun]
        exact ⟨fun _ => hcall t hrun, by simp⟩
    refine (ensures_run hsql hne htransaction).bind ?_ ?_
    · rintro _ t (⟨⟨⟩, hpost⟩ | ⟨e, ⟨⟩, hpost⟩)
      · exact ⟨fun _ _ => hpost.1 rfl, by simp⟩
      · exact ⟨by simp, fun _ _ => hpost.2 e rfl⟩
    · rintro e t (⟨he, -⟩ | ⟨e', he, -⟩)
      · cases he
      · cases he

/-- Telling what was done does not touch the history. -/
theorem Changed.report {old : History} {change : History → Prop} {x : Session σ Unit}
    (h : x.Ensures s (Changed rows old fun _ => change)) (event : Event) :
    Ensures (x >>= fun _ => Session.report event) s (Changed rows old fun _ => change) := by
  refine h.bind ?_ ?_
  · intro _ t hpost
    exact ⟨fun _ _ => hpost.ok () rfl, by simp⟩
  · intro e t hpost
    exact ⟨by simp, fun _ _ => hpost.error e rfl⟩

namespace Migrator

variable {m : Migrator} {table name : String} {batch : Int64}

theorem changed_ensureTable (hkeeps : KeepsHistory conn rows m) :
    (m.ensureTable conn).Ensures s
      (Changed rows (rows s.remote) fun _ h => h = rows s.remote) := by
  rw [ensureTable_eq]
  refine SchemaQueue.changed_apply hkeeps ?_
  intro statements hsql
  obtain ⟨table, htable, rfl⟩ := exists_creation_of_creationQueue hsql
  exact ⟨by simp, fun t hrun => hkeeps.created table htable s t hrun⟩

theorem changed_fetchHistory (hkeeps : KeepsHistory conn rows m) :
    (m.fetchHistory conn).Ensures s
      (Changed rows (rows s.remote) fun history h => h = rows s.remote ∧ history = h) := by
  refine Ensures.ofExcept_bind ?_ fun e _ => .of_error e
  intro table htable
  refine (hkeeps.selected table htable s).attempt_bind ?_
  rintro (e | records) t ⟨hsame, hok, herror⟩
  · dsimp only
    by_cases hmissing : e.isUndefinedTable = true
    · -- a table that is missing reads as an empty history, and it is empty
      have hnone : rows t.remote = [] := hsame.trans (herror e rfl hmissing)
      rw [if_pos hmissing]
      refine ⟨?_, by simp⟩
      rintro _ ⟨⟩
      exact ⟨hsame, hnone.symm⟩
    · rw [if_neg hmissing]
      exact ⟨by simp, fun _ _ => hsame⟩
  · have hread : records.mapM AppliedMigration.ofRecord = .ok (rows s.remote) := by
      rw [hok records rfl, mapM_ofRecord]
    refine ⟨?_, fun _ _ => hsame⟩
    intro history hhistory
    rw [runFrom_ofExcept, hread] at hhistory
    cases hhistory
    exact ⟨hsame, hsame.symm⟩

theorem changed_status (hkeeps : KeepsHistory conn rows m) :
    (m.status conn).Ensures s (Changed rows (rows s.remote) fun status h =>
      h = rows s.remote ∧ status = ⟨h, m.names.drop h.length⟩) := by
  refine (changed_fetchHistory hkeeps).bind ?_ ?_
  · intro history t hpost
    obtain ⟨hsame, rfl⟩ := hpost.ok history rfl
    refine ⟨?_, fun _ _ => hsame⟩
    intro status hstatus
    rw [runFrom_ofExcept, statusOf, bind_eq_ok_iff] at hstatus
    obtain ⟨-, -, hstatus⟩ := hstatus
    exact ⟨hsame, (pure_eq_ok_iff.1 hstatus).symm⟩
  · intro e t hpost
    exact ⟨by simp, fun _ _ => hpost.error e rfl⟩

/-- One migration is applied: a transaction that succeeds adds its row. -/
theorem changed_applyOne (hkeeps : KeepsHistory conn rows m) (hname : name ≠ Value.nowText)
    (htable : Sql.quoteIdentifier m.table = .ok table) :
    (m.applyOne conn table batch name).Ensures s (Changed rows (rows s.remote) fun _ h =>
      (∃ row, h = rows s.remote ++ [row] ∧ Inserted (rows s.remote) name batch row) ∧
        ∃ sql t, (conn.batchTransaction sql).runFrom s = (.ok (), t) ∧ rows t.remote = h) := by
  refine Ensures.ofExcept_bind ?_ fun e _ => .of_error e
  intro q hq
  refine Changed.report (SchemaQueue.changed_apply hkeeps ?_) _
  intro statements hsql
  obtain ⟨migration, hmem, own, changes, rfl, hup, hchanges, rfl⟩ :=
    exists_changes_of_upQueue hname hq hsql
  refine ⟨by simp, fun t hrun => ⟨?_, _, t, hrun, rfl⟩⟩
  obtain ⟨row, hrows, hrow, hbatch, hfits, hkey⟩ :=
    hkeeps.inserted table htable migration hmem own changes hup hchanges batch s t hrun
  exact ⟨row, hrows, hrow, hbatch, hfits, hkey⟩

theorem changed_revertOne (hkeeps : KeepsHistory conn rows m) (hname : name ≠ Value.nowText)
    (htable : Sql.quoteIdentifier m.table = .ok table) :
    (m.revertOne conn table batch name).Ensures s (Changed rows (rows s.remote) fun _ h =>
      h = (rows s.remote).filter (·.name ≠ name)) := by
  refine Ensures.ofExcept_bind ?_ fun e _ => .of_error e
  intro q hq
  refine Changed.report (SchemaQueue.changed_apply hkeeps ?_) _
  intro statements hsql
  obtain ⟨migration, hmem, own, changes, rfl, hdown, hchanges, rfl⟩ :=
    exists_changes_of_downQueue hname hq hsql
  exact ⟨by simp, fun t hrun =>
    hkeeps.deleted table htable migration hmem own changes hdown hchanges s t hrun⟩

end Migrator

/-! ### How many there are -/

variable {η : Type}

theorem SchemaQueue.oneCall_apply (q : SchemaQueue) (conn : Executor σ) (view : σ → η) :
    OneCall view (q.apply (conn.watched view)) (q.apply conn) := by
  rw [apply_eq, apply_eq]
  refine (noCall_ofExcept _).bind_oneCall fun statements => ?_
  by_cases hempty : statements.isEmpty = true
  · rw [if_pos hempty, if_pos hempty]
    exact (noCall_pure ()).oneCall
  · rw [if_neg hempty, if_neg hempty]
    refine (oneCall_watch view _).attempt.bind ?_
    rintro (e | ⟨⟩)
    · exact (noCall_report _).bind fun _ => noCall_throw _
    · exact noCall_report _

namespace Migrator

variable (m : Migrator) (conn : Executor σ) (view : σ → η)

theorem oneCall_ensureTable :
    OneCall view (m.ensureTable (conn.watched view)) (m.ensureTable conn) :=
  m.creationQueue.oneCall_apply conn view

theorem oneCall_status : OneCall view (m.status (conn.watched view)) (m.status conn) := by
  refine OneCall.bind ?_ fun history => noCall_ofExcept _
  refine (noCall_ofExcept _).bind_oneCall fun table => (oneCall_watch view _).attempt.bind ?_
  rintro (e | records)
  · by_cases hmissing : e.isUndefinedTable = true
    · dsimp only
      rw [if_pos hmissing, if_pos hmissing]
      exact noCall_pure []
    · dsimp only
      rw [if_neg hmissing, if_neg hmissing]
      exact noCall_throw e
  · exact noCall_ofExcept _

theorem oneCall_applyOne (table name : String) (batch : Int64) :
    OneCall view (m.applyOne (conn.watched view) table batch name)
      (m.applyOne conn table batch name) :=
  (noCall_ofExcept _).bind_oneCall fun q =>
    (q.oneCall_apply conn view).bind fun _ => noCall_report _

theorem oneCall_revertOne (table name : String) (batch : Int64) :
    OneCall view (m.revertOne (conn.watched view) table batch name)
      (m.revertOne conn table batch name) :=
  (noCall_ofExcept _).bind_oneCall fun q =>
    (q.oneCall_apply conn view).bind fun _ => noCall_report _

end Migrator

end PgToolkit
