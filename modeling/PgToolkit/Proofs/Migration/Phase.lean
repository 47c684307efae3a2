import PgToolkit.Proofs.Migration.Calls

/-!
# A run in phases

A run that applies what is pending, cut into pieces of at most one call each. Between two pieces a
run keeps what it has read: the names that are left and the number of its batch. Others may use the
connection meanwhile.
-/

namespace PgToolkit

open Session History

/-- Where a run is that applies what is pending. -/
inductive Phase where
  /-- The table of the history may be missing. -/
  | opening
  | reading
  /-- The migrations `left` are the last ones of the migrations `pending`. -/
  | applying (table : String) (batch : Int64) (pending left : List String)
  | ended (result : Except Error (List String))

/-- The phase behind a piece of a run. The run ends with the first piece that fails. -/
def Phase.behind : Except Error Phase → Phase
  | .ok phase => phase
  | .error e => .ended (.error e)

variable {σ : Type}

namespace Migrator

/-- The next piece of a run. -/
def advance (m : Migrator) (conn : Executor σ) : Phase → Session σ Phase
  | .opening => do
    m.ensureTable conn
    return .reading
  | .reading => do
    let status ← m.status conn
    if status.isUpToDate then
      Session.report .upToDate
      return .ended (.ok [])
    let table ← Session.ofExcept (Sql.quoteIdentifier m.table)
    return .applying table (status.lastBatch + 1) status.pending status.pending
  | .applying table batch pending (name :: left) => do
    m.applyOne conn table batch name
    return .applying table batch pending left
  | .applying _ _ pending [] => return .ended (.ok pending)
  | .ended result => return .ended result

/-- All pieces of a run that are left. -/
def finish (m : Migrator) (conn : Executor σ) : Phase → Session σ (List String)
  | .opening => m.latest conn
  | .reading => do
    let status ← m.status conn
    if status.isUpToDate then
      Session.report .upToDate
      return []
    let table ← Session.ofExcept (Sql.quoteIdentifier m.table)
    status.pending.forM (m.applyOne conn table (status.lastBatch + 1))
    return status.pending
  | .applying table batch pending left => do
    left.forM (m.applyOne conn table batch)
    return pending
  | .ended result => Session.ofExcept result

variable {m : Migrator} {conn : Executor σ} {rows : σ → History}

/-- What is left of a run is its next piece and what is left behind that. -/
theorem finish_eq_advance (m : Migrator) (conn : Executor σ) (phase : Phase) :
    m.finish conn phase = m.advance conn phase >>= m.finish conn := by
  cases phase with
  | opening =>
    rw [advance, bind_assoc]
    simp only [pure_bind]
    rfl
  | reading =>
    rw [advance, finish, bind_assoc]
    refine congrArg (m.status conn >>= ·) (funext fun status => ?_)
    by_cases hdone : status.isUpToDate = true
    · rw [if_pos hdone, if_pos hdone, bind_assoc]
      rfl
    · rw [if_neg hdone, if_neg hdone, bind_assoc]
      simp only [pure_bind]
      rfl
  | applying table batch pending left =>
    cases left with
    | nil => rfl
    | cons name left =>
      have hcons : (name :: left).forM (m.applyOne conn table batch) =
          m.applyOne conn table batch name >>= fun _ => left.forM (m.applyOne conn table batch) :=
        rfl
      rw [advance, finish, hcons, bind_assoc, bind_assoc]
      simp only [pure_bind]
      rfl
  | ended result => rfl

/-- What is left of a run after a piece, also when the piece fails. -/
theorem runFrom_finish {phase : Phase} {s t : SessionState σ} {r : Except Error Phase}
    (hrun : (m.advance conn phase).runFrom s = (r, t)) :
    (m.finish conn phase).runFrom s = (m.finish conn (.behind r)).runFrom t := by
  rw [finish_eq_advance]
  cases r with
  | error e =>
    rw [runFrom_bind_of_error hrun]
    rfl
  | ok next =>
    rw [runFrom_bind_of_ok hrun]
    rfl

theorem oneCall_advance {η : Type} (m : Migrator) (conn : Executor σ) (view : σ → η)
    (phase : Phase) :
    OneCall view (m.advance (conn.watched view) phase) (m.advance conn phase) := by
  cases phase with
  | opening => exact (m.oneCall_ensureTable conn view).bind fun _ => noCall_pure _
  | reading =>
    refine (m.oneCall_status conn view).bind fun status => ?_
    by_cases hdone : status.isUpToDate = true
    · rw [if_pos hdone, if_pos hdone]
      exact (noCall_report _).bind fun _ => noCall_pure _
    · rw [if_neg hdone, if_neg hdone]
      exact (noCall_ofExcept _).bind fun table => noCall_pure _
  | applying table batch pending left =>
    cases left with
    | nil => exact (noCall_pure _).oneCall
    | cons name left =>
      exact (m.oneCall_applyOne conn view table name batch).bind fun _ => noCall_pure _
  | ended result => exact (noCall_pure _).oneCall

end Migrator

/-! ### What a piece does -/

/-- A phase in which the table can be named and the names that are left can be written. -/
def Phase.Ready (m : Migrator) : Phase → Prop
  | .applying table _ _ left => Sql.quoteIdentifier m.table = .ok table ∧ Value.nowText ∉ left
  | _ => True

/-- What a piece of a run may do to the history `h`: in front of it the run is in one phase, and
behind it in another one. -/
inductive Advanced (m : Migrator) (conn : Executor σ) (rows : σ → History) (h : History) :
    Phase → Phase → History → Prop where
  | opened : Advanced m conn rows h .opening .reading h
  | read {table : String} {pending : List String} : Sql.quoteIdentifier m.table = .ok table →
      pending = m.names.drop h.length →
      Advanced m conn rows h .reading
        (.applying table ((MigrationStatus.mk h pending).lastBatch + 1) pending pending) h
  | applied {table name : String} {batch : Int64} {pending left : List String}
      {row : AppliedMigration} {sql : String} {s t : SessionState σ} :
      Inserted h name batch row → (conn.batchTransaction sql).runFrom s = (.ok (), t) →
      rows t.remote = h ++ [row] →
      Advanced m conn rows h (.applying table batch pending (name :: left))
        (.applying table batch pending left) (h ++ [row])
  | ended {phase : Phase} {result : Except Error (List String)} :
      Advanced m conn rows h phase (.ended result) h

theorem Migrator.advanced_advance {m : Migrator} {conn : Executor σ} {rows : σ → History}
    {phase : Phase} {s : SessionState σ} (hkeeps : KeepsHistory conn rows m)
    (hready : phase.Ready m) :
    (m.advance conn phase).Ensures s fun r t =>
      Advanced m conn rows (rows s.remote) phase (.behind r) (rows t.remote) := by
  cases phase with
  | opening =>
    refine (changed_ensureTable hkeeps).bind ?_ ?_
    · intro _ t hchanged
      have hsame := hchanged.ok () rfl
      rw [Ensures, runFrom_pure, hsame]
      exact .opened
    · intro e t hchanged
      rw [hchanged.error e rfl]
      exact .ended
  | reading =>
    refine (changed_status hkeeps).bind ?_ ?_
    · intro status t hchanged
      -- what was read is the history as it is, and it is not changed by reading
      obtain ⟨hsame, rfl⟩ := hchanged.ok status rfl
      by_cases hdone : (MigrationStatus.mk (rows t.remote)
          (m.names.drop (rows t.remote).length)).isUpToDate = true
      · rw [if_pos hdone, ← hsame]
        exact .ended
      · rw [if_neg hdone, ← hsame]
        refine Ensures.ofExcept_bind ?_ fun e _ => .ended
        intro table htable
        exact .read htable rfl
    · intro e t hchanged
      rw [hchanged.error e rfl]
      exact .ended
  | applying table batch pending left =>
    cases left with
    | nil => exact .ended
    | cons name left =>
      obtain ⟨htable, hplain⟩ := hready
      have hname : name ≠ Value.nowText := (List.ne_of_not_mem_cons hplain).symm
      refine (changed_applyOne hkeeps hname htable).bind ?_ ?_
      · intro _ t hchanged
        obtain ⟨⟨row, hrows, hrow⟩, sql, u, hrun, hcommitted⟩ := hchanged.ok () rfl
        rw [Ensures, runFrom_pure, hrows]
        exact .applied hrow hrun (hcommitted.trans hrows)
      · intro e t hchanged
        rw [hchanged.error e rfl]
        exact .ended
  | ended result => exact .ended

end PgToolkit
