import PgToolkit.Proofs.Migration.Run

/-!
# Operations of a migrator

What the operations do to the history from beginning to end: applying adds rows of one new batch,
undoing removes rows of the last one, and both stop at the first migration that fails.

## Main definitions

- `Executor.Related` — two executors whose requests are related
- `Operation.run`, `Operation.preamble` — an operation, and what it does before any migration
- `Operation.Outcome` — how an operation ends, and the history that it leaves
- `Operation.Ends` — the same, and the histories on the way

## Main statements

- `Operation.ensures_run` — every operation leaves a trail and has an outcome
- `Operation.related_run` — an operation over two connections that are related
- `Operation.forgets_run` — that the connection is watched makes no difference
-/

namespace PgToolkit

open Session History

variable {σ : Type}

/-- Runs an operation, and returns names: those that were applied or undone, or those that are left
to apply. -/
def Operation.run (op : Operation) (m : Migrator) (conn : Executor σ) : Session σ (List String) :=
  match op with
  | .latest => m.latest conn
  | .rollback => m.rollback conn
  | .status => do return (← m.status conn).pending

/-- What an operation does in front of its first migration. -/
def Operation.preamble (op : Operation) (m : Migrator) (conn : Executor σ) :
    Session σ MigrationStatus :=
  match op with
  | .latest | .rollback => do
    m.ensureTable conn
    m.status conn
  | .status => m.status conn

/-- How an operation ends that began in the state `s`, when the histories `seen` were there behind
its calls. -/
inductive Operation.Outcome (conn : Executor σ) (rows : σ → History) (m : Migrator)
    (s : SessionState σ) (seen : List History) :
    Operation → Except Error (List String) → SessionState σ → Prop where
  /-- The failure came before the first migration, and the history was the old one all the time. -/
  | refused {op : Operation} {e : Error} {t : SessionState σ} :
      (op.preamble m conn).runFrom s = (.error e, t) → (∀ h ∈ seen, h = rows s.remote) →
      rows t.remote = rows s.remote → Operation.Outcome conn rows m s seen op (.error e) t
  | counted {t : SessionState σ} : rows t.remote = rows s.remote →
      Operation.Outcome conn rows m s seen .status (.ok (m.names.drop (rows s.remote).length)) t
  | applied {t : SessionState σ} :
      Applied (rows s.remote) (m.names.drop (rows s.remote).length) (rows t.remote) →
      Operation.Outcome conn rows m s seen .latest (.ok (m.names.drop (rows s.remote).length)) t
  /-- The migrations `done` were applied one after the other. The next one failed, and with it the
  run: what it left is what the run left, and the rows of the ones before are kept. -/
  | stopped {e : Error} {t u v : SessionState σ} {status : MigrationStatus}
      {done rest : List String} {name table : String} {batch : Int64} :
      (Operation.latest.preamble m conn).runFrom s = (.ok status, u) →
      Sql.quoteIdentifier m.table = .ok table → batch.toInt = (rows s.remote).lastNumber + 1 →
      m.names.drop (rows s.remote).length = done ++ name :: rest →
      (done.forM (m.applyOne conn table batch)).runFrom u = (.ok (), v) →
      Applied (rows s.remote) done (rows v.remote) →
      (m.applyOne conn table batch name).runFrom v = (.error e, t) →
      rows t.remote = rows v.remote → Operation.Outcome conn rows m s seen .latest (.error e) t
  | reverted {t : SessionState σ} {undone : List String} :
      Reverted (rows s.remote) undone (rows t.remote) →
      (∀ row ∈ rows t.remote, row.number < (rows s.remote).lastNumber) →
      Operation.Outcome conn rows m s seen .rollback (.ok undone) t
  /-- The migrations `undone` were undone one after the other. The next row of the last batch could
  not be removed. -/
  | halted {e : Error} {t u v : SessionState σ} {status : MigrationStatus} {undone : List String}
      {rest : History} {row : AppliedMigration} {table : String} {batch : Int64} :
      (Operation.rollback.preamble m conn).runFrom s = (.ok status, u) →
      Sql.quoteIdentifier m.table = .ok table → batch.toInt = (rows s.remote).lastNumber →
      (undone.forM (m.revertOne conn table batch)).runFrom u = (.ok (), v) →
      Reverted (rows s.remote) undone (rows v.remote) → rows v.remote = rest ++ [row] →
      row.number = (rows s.remote).lastNumber →
      (m.revertOne conn table batch row.name).runFrom v = (.error e, t) →
      rows t.remote = rows v.remote → Operation.Outcome conn rows m s seen .rollback (.error e) t

/-- How an operation ends from the side of one who watches it. -/
structure Operation.Ends (conn : Executor σ) (rows : σ → History) (m : Migrator)
    (s : SessionState (Watched σ History)) (op : Operation) (r : Except Error (List String))
    (t : SessionState (Watched σ History)) : Prop where
  trail : Trail rows m.names op s.remote t.remote
  outcome : Operation.Outcome conn rows m s.forget (t.remote.seen.drop s.remote.seen.length) op r
    t.forget

/-! ### Two connections -/

/-- Two executors whose requests are related, in a way that goes along with putting sessions
together. -/
structure Executor.Related {τ : Type} (R : ∀ {α : Type}, Session τ α → Session σ α → Prop)
    (conn' : Executor τ) (conn : Executor σ) : Prop extends Respectful R where
  query : ∀ sql params, R (conn'.query sql params) (conn.query sql params)
  transaction : ∀ sql, R (conn'.batchTransaction sql) (conn.batchTransaction sql)

section Related

variable {τ : Type} {R : ∀ {α : Type}, Session τ α → Session σ α → Prop} {conn' : Executor τ}
  {conn : Executor σ} (h : Executor.Related R conn' conn) (m : Migrator)
include h

theorem SchemaQueue.related_apply (q : SchemaQueue) : R (q.apply conn') (q.apply conn) := by
  rw [apply_eq, apply_eq]
  refine h.bind (h.ofExcept _) fun statements => ?_
  by_cases hempty : statements.isEmpty = true
  · rw [if_pos hempty, if_pos hempty]
    exact h.pure ()
  · rw [if_neg hempty, if_neg hempty]
    refine h.bind (h.attempt (h.transaction _)) ?_
    rintro (e | ⟨⟩)
    · exact h.bind (h.report _) fun _ => h.throw _
    · exact h.report _

namespace Migrator

theorem related_ensureTable : R (m.ensureTable conn') (m.ensureTable conn) :=
  m.creationQueue.related_apply h

theorem related_status : R (m.status conn') (m.status conn) := by
  refine h.bind (h.bind (h.ofExcept _) fun table => ?_) fun history => h.ofExcept _
  refine h.bind (h.attempt (h.query _ _)) ?_
  rintro (e | records)
  · by_cases hmissing : e.isUndefinedTable = true
    · dsimp only
      rw [if_pos hmissing, if_pos hmissing]
      exact h.pure []
    · dsimp only
      rw [if_neg hmissing, if_neg hmissing]
      exact h.throw e
  · exact h.ofExcept _

theorem related_applyOne (table name : String) (batch : Int64) :
    R (m.applyOne conn' table batch name) (m.applyOne conn table batch name) :=
  h.bind (h.ofExcept _) fun q => h.bind (q.related_apply h) fun _ => h.report _

theorem related_revertOne (table name : String) (batch : Int64) :
    R (m.revertOne conn' table batch name) (m.revertOne conn table batch name) :=
  h.bind (h.ofExcept _) fun q => h.bind (q.related_apply h) fun _ => h.report _

theorem related_forM_applyOne (table : String) (batch : Int64) (names : List String) :
    R (names.forM (m.applyOne conn' table batch)) (names.forM (m.applyOne conn table batch)) :=
  h.forM (fun name => m.related_applyOne h table name batch) names

theorem related_forM_revertOne (table : String) (batch : Int64) (names : List String) :
    R (names.forM (m.revertOne conn' table batch)) (names.forM (m.revertOne conn table batch)) :=
  h.forM (fun name => m.related_revertOne h table name batch) names

theorem related_latest : R (m.latest conn') (m.latest conn) := by
  refine h.bind (m.related_ensureTable h) fun _ => h.bind (m.related_status h) fun status => ?_
  by_cases hdone : status.isUpToDate = true
  · rw [if_pos hdone, if_pos hdone]
    exact h.bind (h.report _) fun _ => h.pure []
  · rw [if_neg hdone, if_neg hdone]
    exact h.bind (h.ofExcept _) fun table =>
      h.bind (m.related_forM_applyOne h table _ _) fun _ => h.pure _

theorem related_rollback : R (m.rollback conn') (m.rollback conn) := by
  refine h.bind (m.related_ensureTable h) fun _ => h.bind (m.related_status h) fun status => ?_
  dsimp only
  by_cases hnone : status.lastBatch = 0
  · rw [if_pos hnone, if_pos hnone]
    exact h.bind (h.report _) fun _ => h.pure []
  · rw [if_neg hnone, if_neg hnone]
    exact h.bind (h.ofExcept _) fun table =>
      h.bind (m.related_forM_revertOne h table _ _) fun _ => h.pure _

end Migrator

theorem Operation.related_preamble (op : Operation) :
    R (op.preamble m conn') (op.preamble m conn) := by
  cases op with
  | latest => exact h.bind (m.related_ensureTable h) fun _ => m.related_status h
  | rollback => exact h.bind (m.related_ensureTable h) fun _ => m.related_status h
  | status => exact m.related_status h

/-- An operation over two connections that are related. -/
theorem Operation.related_run (op : Operation) : R (op.run m conn') (op.run m conn) := by
  cases op with
  | latest => exact m.related_latest h
  | rollback => exact m.related_rollback h
  | status => exact h.bind (m.related_status h) fun _ => h.pure _

end Related

theorem Executor.related_watched {η : Type} (conn : Executor σ) (view : σ → η) :
    Related (@Forgets σ η) (conn.watched view) conn where
  toRespectful := forgets_respectful
  query _ _ := forgets_watch view _
  transaction _ := forgets_watch view _

/-- A watched operation does what the operation does. -/
theorem Operation.forgets_run {η : Type} (op : Operation) (m : Migrator) (conn : Executor σ)
    (view : σ → η) : Forgets (op.run m (conn.watched view)) (op.run m conn) :=
  op.related_run (conn.related_watched view) m

/-! ### Runs -/

/-- An operation knows the name of its table when it gets to its migrations. -/
theorem Operation.exists_quoted_of_preamble {op : Operation} {m : Migrator} {conn : Executor σ}
    {status : MigrationStatus} {s t : SessionState σ}
    (hrun : (op.preamble m conn).runFrom s = (.ok status, t)) :
    ∃ table, Sql.quoteIdentifier m.table = .ok table := by
  cases htable : Sql.quoteIdentifier m.table with
  | ok table => exact ⟨table, rfl⟩
  | error e =>
    have hstatus : ∀ u, (m.status conn).Ensures u fun r _ => ∀ status, r ≠ .ok status := by
      intro u
      have hfailed : (m.status conn).runFrom u = (.error e, u) := by
        rw [Migrator.status, Migrator.fetchHistory, htable]
        rfl
      rw [Ensures, hfailed]
      simp
    have hnever : (op.preamble m conn).Ensures s fun r _ => ∀ status, r ≠ .ok status := by
      cases op with
      | latest => exact Ensures.bind_of_forall (fun _ => hstatus) (by simp)
      | rollback => exact Ensures.bind_of_forall (fun _ => hstatus) (by simp)
      | status => exact hstatus s
    exact absurd rfl (hnever.of_runFrom_eq hrun status)

namespace Migrator

variable {conn : Executor σ} {rows : σ → History} {m : Migrator}
  {s s' : SessionState (Watched σ History)}

/-- In front of the first migration the history stays as it is, and it is known. -/
theorem ensures_preamble (op : Operation) (hkeeps : KeepsHistory conn rows m)
    (hlegal : Legal m.names (rows s.remote.remote)) :
    (op.preamble m (conn.watched rows)).Ensures s fun r t =>
      Advances rows m.names .status s.remote (fun status h => h = rows s.remote.remote ∧
        status = ⟨h, m.names.drop h.length⟩) r t.remote := by
  have hboth : Ensures (m.ensureTable (conn.watched rows) >>= fun _ =>
      m.status (conn.watched rows)) s fun r t =>
        Advances rows m.names .status s.remote (fun status h => h = rows s.remote.remote ∧
          status = ⟨h, m.names.drop h.length⟩) r t.remote := by
    refine Advances.bind (ensures_ensureTable .status hkeeps hlegal) fun _ t hsame => ?_
    rw [← hsame] at hlegal ⊢
    exact ensures_status .status hkeeps hlegal
  cases op with
  | latest => exact hboth
  | rollback => exact hboth
  | status => exact ensures_status .status hkeeps hlegal

/-- How an operation begins: the history and what it leaves to do are known, or the failure is that
of the operation. -/
theorem ensures_preamble_bind (op : Operation) {next : MigrationStatus →
      Session (Watched σ History) (List String)} (hkeeps : KeepsHistory conn rows m)
    (hlegal : Legal m.names (rows s.remote.remote))
    (hnext : ∀ status t, (op.preamble m (conn.watched rows)).runFrom s = (.ok status, t) →
      status = ⟨rows s.remote.remote, m.names.drop (rows s.remote.remote).length⟩ →
      Trail rows m.names op s.remote t.remote → rows t.remote.remote = rows s.remote.remote →
      (next status).Ensures t (op.Ends conn rows m s)) :
    Ensures (op.preamble m (conn.watched rows) >>= next) s (op.Ends conn rows m s) := by
  rcases hrun : (op.preamble m (conn.watched rows)).runFrom s with ⟨e | status, t⟩
  · have hpost := (ensures_preamble op hkeeps hlegal).of_runFrom_eq hrun
    have hforget := (op.related_preamble (conn.related_watched rows) m).runFrom_eq hrun
    rw [Ensures, runFrom_bind_of_error hrun]
    exact ⟨hpost.trail.of_status,
      .refused hforget hpost.trail.eq_of_status (hpost.error e rfl)⟩
  · have hpost := (ensures_preamble op hkeeps hlegal).of_runFrom_eq hrun
    obtain ⟨hsame, hstatus⟩ := hpost.ok status rfl
    rw [hsame] at hstatus
    rw [Ensures, runFrom_bind_of_ok hrun]
    exact hnext status t hrun hstatus hpost.trail.of_status hsame

/-- Where a run is that has applied some migrations. -/
structure Applying (rows : σ → History) (m : Migrator) (w : Watched σ History) (done : List String)
    (t : SessionState (Watched σ History)) : Prop where
  trail : Trail rows m.names .latest w t.remote
  applied : Applied (rows w.remote) done (rows t.remote.remote)

theorem Applying.ensures_applyOne {w : Watched σ History} {done rest : List String}
    {name table : String} {batch : Int64} (hkeeps : KeepsHistory conn rows m)
    (hplain : Value.nowText ∉ m.names) (hlegal : Legal m.names (rows w.remote))
    (htable : Sql.quoteIdentifier m.table = .ok table)
    (hbatch : batch.toInt = (rows w.remote).lastNumber + 1)
    (hsplit : m.names.drop (rows w.remote).length = done ++ name :: rest)
    (happlying : Applying rows m w done s) :
    (m.applyOne (conn.watched rows) table batch name).Ensures s fun r t =>
      Trail rows m.names .latest w t.remote ∧
        (r = .ok () → Applying rows m w (done ++ [name]) t) ∧
        ∀ e, r = .error e → rows t.remote.remote = rows s.remote.remote := by
  obtain ⟨htrail, added, hrows, hdone, hadded⟩ := happlying
  -- the names of the history are the declared ones up to this one
  have hnext : m.names[(rows s.remote.remote).length]? = some name := by
    rw [hrows, List.length_append, ← List.getElem?_drop, hsplit, ← length_names added, hdone]
    simp
  have hnumber : rows s.remote.remote ≠ [] ∧ batch.toInt = (rows s.remote.remote).lastNumber ∨
      batch.toInt = (rows s.remote.remote).lastNumber + 1 := by
    -- the first migration of a run opens a batch, and the others join it
    by_cases hnone : added = []
    · right
      rw [hbatch, hrows, hnone, List.append_nil]
    · left
      rw [hbatch, hrows, lastNumber_append hnone hadded]
      exact ⟨by simp [hnone], rfl⟩
  have hname : name ≠ Value.nowText := by
    rintro rfl
    exact hplain (List.mem_of_getElem? hnext)
  refine (Migrator.ensures_applyOne hkeeps hname (htrail.legal hlegal) hnext hnumber
    htable).mono ?_
  intro r t hpost
  refine ⟨htrail.trans hpost.trail, ?_, hpost.error⟩
  intro hok
  obtain ⟨row, hnew, hrow, hrowBatch⟩ := hpost.ok () hok
  refine ⟨htrail.trans hpost.trail, added ++ [row], ?_, ?_, ?_⟩
  · rw [hnew, hrows, List.append_assoc]
  · rw [names_append, hdone, ← hrow]
    rfl
  · intro other hother
    rcases List.mem_append.1 hother with hother | hother
    · exact hadded other hother
    · rw [List.mem_singleton.1 hother, AppliedMigration.number, hrowBatch, hbatch]

theorem Applying.ensures_forM {status : MigrationStatus} {table : String} {batch : Int64}
    (hkeeps : KeepsHistory conn rows m) (hplain : Value.nowText ∉ m.names)
    (hlegal : Legal m.names (rows s'.remote.remote))
    (hbegun : (Operation.latest.preamble m (conn.watched rows)).runFrom s' = (.ok status, s))
    (htable : Sql.quoteIdentifier m.table = .ok table)
    (hbatch : batch.toInt = (rows s'.remote.remote).lastNumber + 1)
    (hstart : Applying rows m s'.remote [] s) :
    ((m.names.drop (rows s'.remote.remote).length).forM
      (m.applyOne (conn.watched rows) table batch)).Ensures s fun r t =>
        (r = .ok () →
          Applying rows m s'.remote (m.names.drop (rows s'.remote.remote).length) t) ∧
        ∀ e, r = .error e → Operation.latest.Ends conn rows m s' (.error e) t := by
  have hwatched := conn.related_watched rows
  -- what one migration preserves carries the run
  refine (forM_runFrom hstart ?_).mono ?_
  · intro done name rest hsplit t happlying u hrun
    have hone := happlying.ensures_applyOne hkeeps hplain hlegal htable hbatch hsplit
    exact (hone.of_runFrom_eq hrun).2.1 rfl
  · rintro r t (⟨rfl, happlying⟩ | ⟨e, done, name, rest, u, hsplit, happlying, hdone, rfl, hrun⟩)
    · exact ⟨fun _ => happlying, by simp⟩
    · refine ⟨by simp, ?_⟩
      rintro _ ⟨⟩
      have hone := happlying.ensures_applyOne hkeeps hplain hlegal htable hbatch hsplit
      obtain ⟨htrail, -, hfailed⟩ := hone.of_runFrom_eq hrun
      exact ⟨htrail, .stopped
        ((Operation.latest.related_preamble hwatched m).runFrom_eq hbegun) htable hbatch hsplit
        ((m.related_forM_applyOne hwatched table batch done).runFrom_eq hdone) happlying.applied
        ((m.related_applyOne hwatched table name batch).runFrom_eq hrun) (hfailed e rfl)⟩

theorem ensures_latest (hkeeps : KeepsHistory conn rows m)
    (hplain : Value.nowText ∉ m.names) (hlegal : Legal m.names (rows s.remote.remote)) :
    (m.latest (conn.watched rows)).Ensures s (Operation.latest.Ends conn rows m s) := by
  rw [latest, ← bind_assoc]
  refine ensures_preamble_bind .latest hkeeps hlegal ?_
  rintro _ t hbegun rfl htrail hsame
  have hstart : Applying rows m s.remote [] t :=
    ⟨htrail, [], hsame.trans (List.append_nil _).symm, rfl, by simp⟩
  by_cases hdone : (MigrationStatus.mk (rows s.remote.remote)
      (m.names.drop (rows s.remote.remote).length)).isUpToDate = true
  · rw [if_pos hdone]
    have hnone : m.names.drop (rows s.remote.remote).length = [] :=
      MigrationStatus.isUpToDate_iff.1 hdone
    have houtcome : ∀ u : SessionState σ, u.remote = t.remote.remote →
        Operation.Outcome conn rows m s.forget (t.remote.seen.drop s.remote.seen.length) .latest
          (.ok (m.names.drop (rows s.remote.remote).length)) u := by
      intro u hu
      refine .applied ?_
      rw [SessionState.remote_forget, hu, hnone]
      exact hstart.applied
    rw [hnone] at houtcome
    exact ⟨htrail, houtcome _ rfl⟩
  · rw [if_neg hdone]
    obtain ⟨table, htable⟩ := Operation.exists_quoted_of_preamble hbegun
    rw [htable]
    have hbatch := hlegal.sorted.toInt_lastBatch_add_one
      (m.names.drop (rows s.remote.remote).length)
    refine (hstart.ensures_forM hkeeps hplain hlegal hbegun htable hbatch).bind ?_ ?_
    · intro _ u hpost
      have happlied := hpost.1 rfl
      exact ⟨happlied.trail, .applied happlied.applied⟩
    · intro e u hpost
      exact hpost.2 e rfl

/-- Where a run is that has undone some migrations of the last batch. -/
structure Reverting (rows : σ → History) (m : Migrator) (w : Watched σ History)
    (kept batch : History) (undone : List String) (t : SessionState (Watched σ History)) :
    Prop where
  trail : Trail rows m.names .rollback w t.remote
  split : ∃ left removed : History, batch = left ++ removed ∧ rows t.remote.remote = kept ++ left ∧
    removed.names.reverse = undone

theorem Reverting.ensures_revertOne {w : Watched σ History} {kept last : History}
    {undone rest : List String} {name table : String} {batch : Int64}
    (hkeeps : KeepsHistory conn rows m) (hdistinct : m.names.Nodup)
    (hplain : Value.nowText ∉ m.names) (hlegal : Legal m.names (rows w.remote))
    (htable : Sql.quoteIdentifier m.table = .ok table)
    (hsplit : last.names.reverse = undone ++ name :: rest)
    (hreverting : Reverting rows m w kept last undone s) :
    ∃ (left : History) (row : AppliedMigration) (removed : History),
      last = left ++ row :: removed ∧ removed.names.reverse = undone ∧
      rows s.remote.remote = kept ++ left ++ [row] ∧ row.name = name ∧
      (m.revertOne (conn.watched rows) table batch name).Ensures s fun r t =>
        Trail rows m.names .rollback w t.remote ∧
          (r = .ok () → Reverting rows m w kept last (undone ++ [name]) t) ∧
          ∀ e, r = .error e → rows t.remote.remote = rows s.remote.remote := by
  obtain ⟨htrail, left, removed, rfl, hrows, rfl⟩ := hreverting
  -- the row of the migration is the last one of those that are left
  rw [names_append, List.reverse_append, List.append_cancel_left_eq] at hsplit
  rcases List.eq_nil_or_concat' left with rfl | ⟨front, row, rfl⟩
  · cases hsplit
  rw [names_append, List.reverse_append] at hsplit
  obtain ⟨hname, -⟩ := List.cons.inj hsplit
  have hlast : rows s.remote.remote = kept ++ front ++ [row] := by
    rw [hrows, List.append_assoc]
  have hlegal' := htrail.legal hlegal
  have hrow : row.name ≠ Value.nowText := by
    intro hnow
    refine hplain (hlegal'.names.subset ?_)
    rw [hlast, names_append, ← hnow]
    simp
  refine ⟨front, row, removed, List.append_assoc .., rfl, hlast, hname, ?_⟩
  subst hname
  refine (Migrator.ensures_revertOne hkeeps hdistinct hrow hlegal' hlast htable).mono ?_
  intro r t hpost
  refine ⟨htrail.trans hpost.trail, ?_, hpost.error⟩
  intro hok
  refine ⟨htrail.trans hpost.trail, front, row :: removed, List.append_assoc .., ?_, ?_⟩
  · exact hpost.ok () hok
  · rw [names_cons, List.reverse_cons]

/-- When all migrations of the last batch are undone, the rows in front of it are left. -/
theorem Reverting.rows_eq {w : Watched σ History} {kept last : History}
    (hreverting : Reverting rows m w kept last last.names.reverse s) :
    rows s.remote.remote = kept := by
  obtain ⟨left, removed, hsplit, hrows, hundone⟩ := hreverting.split
  have hlength : removed.length = last.length := by
    simpa using congrArg List.length hundone
  rw [hsplit, List.length_append] at hlength
  have hnone : left = [] := List.length_eq_zero_iff.1 (by omega)
  rw [hrows, hnone, List.append_nil]

theorem Reverting.ensures_forM {kept last : History} {status : MigrationStatus} {table : String}
    {batch : Int64} (hkeeps : KeepsHistory conn rows m) (hdistinct : m.names.Nodup)
    (hplain : Value.nowText ∉ m.names) (hlegal : Legal m.names (rows s'.remote.remote))
    (hbegun : (Operation.rollback.preamble m (conn.watched rows)).runFrom s' = (.ok status, s))
    (htable : Sql.quoteIdentifier m.table = .ok table)
    (hbatch : batch.toInt = (rows s'.remote.remote).lastNumber)
    (hrows : rows s'.remote.remote = kept ++ last)
    (hlast : ∀ row ∈ last, row.number = (rows s'.remote.remote).lastNumber)
    (hstart : Reverting rows m s'.remote kept last [] s) :
    (last.names.reverse.forM (m.revertOne (conn.watched rows) table batch)).Ensures s fun r t =>
      (r = .ok () → Reverting rows m s'.remote kept last last.names.reverse t) ∧
        ∀ e, r = .error e → Operation.rollback.Ends conn rows m s' (.error e) t := by
  have hwatched := conn.related_watched rows
  refine (forM_runFrom hstart ?_).mono ?_
  · intro undone name rest hsplit t hreverting u hrun
    obtain ⟨_, _, _, _, _, _, _, hone⟩ :=
      hreverting.ensures_revertOne hkeeps hdistinct hplain hlegal htable hsplit
    exact (hone.of_runFrom_eq hrun).2.1 rfl
  · rintro r t
      (⟨rfl, hreverting⟩ | ⟨e, undone, name, rest, u, hsplit, hreverting, hundone, rfl, hrun⟩)
    · exact ⟨fun _ => hreverting, by simp⟩
    · refine ⟨by simp, ?_⟩
      rintro _ ⟨⟩
      obtain ⟨left, row, removed, rfl, rfl, hcurrent, rfl, hone⟩ :=
        hreverting.ensures_revertOne hkeeps hdistinct hplain hlegal htable hsplit
      obtain ⟨htrail, -, hfailed⟩ := hone.of_runFrom_eq hrun
      have hreverted : Reverted (rows s'.remote.remote) removed.names.reverse
          (rows u.remote.remote) := by
        refine ⟨removed, ?_, rfl, ?_⟩
        · rw [hcurrent, hrows]
          simp
        · intro other hother
          exact hlast other (by simp [hother])
      exact ⟨htrail, .halted
        ((Operation.rollback.related_preamble hwatched m).runFrom_eq hbegun) htable hbatch
        ((m.related_forM_revertOne hwatched table batch _).runFrom_eq hundone) hreverted hcurrent
        (hlast row (by simp))
        ((m.related_revertOne hwatched table row.name batch).runFrom_eq hrun) (hfailed e rfl)⟩

theorem ensures_rollback (hkeeps : KeepsHistory conn rows m) (hdistinct : m.names.Nodup)
    (hplain : Value.nowText ∉ m.names) (hlegal : Legal m.names (rows s.remote.remote)) :
    (m.rollback (conn.watched rows)).Ensures s (Operation.rollback.Ends conn rows m s) := by
  rw [rollback, ← bind_assoc]
  refine ensures_preamble_bind .rollback hkeeps hlegal ?_
  rintro _ t hbegun rfl htrail hsame
  dsimp only
  by_cases hnone : (MigrationStatus.mk (rows s.remote.remote)
      (m.names.drop (rows s.remote.remote).length)).lastBatch = 0
  · rw [if_pos hnone]
    have hempty : rows s.remote.remote = [] := (hlegal.lastBatch_eq_zero_iff _).1 hnone
    have houtcome : ∀ u : SessionState σ, u.remote = t.remote.remote →
        Operation.Outcome conn rows m s.forget (t.remote.seen.drop s.remote.seen.length) .rollback
          (.ok []) u := by
      intro u hu
      refine .reverted ⟨[], ?_, rfl, by simp⟩ ?_
      · rw [SessionState.remote_forget, hu, hsame, List.append_nil]
      · rw [hu, hsame, hempty]
        simp
    exact ⟨htrail, houtcome _ rfl⟩
  · rw [if_neg hnone]
    obtain ⟨table, htable⟩ := Operation.exists_quoted_of_preamble hbegun
    rw [htable]
    -- the rows with the greatest number are the end of the history
    obtain ⟨kept, last, hrows, hlast, hkept⟩ := hlegal.sorted.exists_lastBatch
    have hbatch := hlegal.sorted.toInt_lastBatch (m.names.drop (rows s.remote.remote).length)
    rw [batchNames_eq hrows (hbatch ▸ hlast) (hbatch ▸ hkept)]
    have hstart : Reverting rows m s.remote kept last [] t :=
      ⟨htrail, last, [], (List.append_nil _).symm, hsame.trans hrows, rfl⟩
    refine (hstart.ensures_forM hkeeps hdistinct hplain hlegal hbegun htable hbatch hrows
      hlast).bind ?_ ?_
    · intro _ u hpost
      have hreverted := hpost.1 rfl
      have hleft : rows u.forget.remote = kept := hreverted.rows_eq
      refine ⟨hreverted.trail, .reverted ⟨last, ?_, rfl, hlast⟩ ?_⟩
      · exact hrows.trans (congrArg (· ++ last) hleft.symm)
      · exact fun row hrow => hkept row (hleft ▸ hrow)
    · intro e u hpost
      exact hpost.2 e rfl

end Migrator

/-- Every operation on a legal history leaves a trail and has an outcome. -/
theorem Operation.ensures_run (op : Operation) {conn : Executor σ} {rows : σ → History}
    {m : Migrator} {s : SessionState (Watched σ History)} (hkeeps : KeepsHistory conn rows m)
    (hdistinct : m.names.Nodup) (hplain : Value.nowText ∉ m.names)
    (hlegal : Legal m.names (rows s.remote.remote)) :
    (op.run m (conn.watched rows)).Ensures s (op.Ends conn rows m s) := by
  cases op with
  | latest => exact Migrator.ensures_latest hkeeps hplain hlegal
  | rollback => exact Migrator.ensures_rollback hkeeps hdistinct hplain hlegal
  | status =>
    refine Migrator.ensures_preamble_bind .status hkeeps hlegal ?_
    rintro _ t - rfl htrail hsame
    exact ⟨htrail, .counted hsame⟩

end PgToolkit
