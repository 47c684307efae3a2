import PgToolkit.Proofs.Migration.Calls

/-!
# Undoing in phases

A run that undoes the last batch, cut into pieces of at most one call each. Between two pieces it
keeps the names that it has read and that are left. Others may use the connection meanwhile.
-/

namespace PgToolkit

open Session History

/-- Where a run is that undoes the last batch. -/
inductive UndoPhase where
  /-- The table of the history may be missing. -/
  | opening
  | reading
  /-- The migrations `left` are the last ones of the migrations `names` of the batch. -/
  | reverting (table : String) (batch : Int64) (names left : List String)
  | ended (result : Except Error (List String))

/-- The phase behind a piece of a run. The run ends with the first piece that fails. -/
def UndoPhase.behind : Except Error UndoPhase → UndoPhase
  | .ok phase => phase
  | .error e => .ended (.error e)

variable {σ : Type}

namespace Migrator

/-- The next piece of a run that undoes the last batch. -/
def retreat (m : Migrator) (conn : Executor σ) : UndoPhase → Session σ UndoPhase
  | .opening => do
    m.ensureTable conn
    return .reading
  | .reading => do
    let status ← m.status conn
    if status.lastBatch = 0 then
      Session.report .nothingToRollBack
      return .ended (.ok [])
    let table ← Session.ofExcept (Sql.quoteIdentifier m.table)
    let names := batchNames status status.lastBatch
    return .reverting table status.lastBatch names names
  | .reverting table batch names (name :: left) => do
    m.revertOne conn table batch name
    return .reverting table batch names left
  | .reverting _ _ names [] => return .ended (.ok names)
  | .ended result => return .ended result

/-- All pieces of a run that are left. -/
def unwind (m : Migrator) (conn : Executor σ) : UndoPhase → Session σ (List String)
  | .opening => m.rollback conn
  | .reading => do
    let status ← m.status conn
    if status.lastBatch = 0 then
      Session.report .nothingToRollBack
      return []
    let table ← Session.ofExcept (Sql.quoteIdentifier m.table)
    let names := batchNames status status.lastBatch
    names.forM (m.revertOne conn table status.lastBatch)
    return names
  | .reverting table batch names left => do
    left.forM (m.revertOne conn table batch)
    return names
  | .ended result => Session.ofExcept result

variable {m : Migrator} {conn : Executor σ} {rows : σ → History}

/-- What is left of a run is its next piece and what is left behind that. -/
theorem unwind_eq_retreat (m : Migrator) (conn : Executor σ) (phase : UndoPhase) :
    m.unwind conn phase = m.retreat conn phase >>= m.unwind conn := by
  cases phase with
  | opening =>
    rw [retreat, bind_assoc]
    simp only [pure_bind]
    rfl
  | reading =>
    rw [retreat, unwind, bind_assoc]
    refine congrArg (m.status conn >>= ·) (funext fun status => ?_)
    by_cases hnone : status.lastBatch = 0
    · rw [if_pos hnone, if_pos hnone, bind_assoc]
      rfl
    · rw [if_neg hnone, if_neg hnone, bind_assoc]
      simp only [pure_bind]
      rfl
  | reverting table batch names left =>
    cases left with
    | nil => rfl
    | cons name left =>
      have hcons : (name :: left).forM (m.revertOne conn table batch) =
          m.revertOne conn table batch name >>= fun _ => left.forM (m.revertOne conn table batch) :=
        rfl
      rw [retreat, unwind, hcons, bind_assoc, bind_assoc]
      simp only [pure_bind]
      rfl
  | ended result => rfl

theorem oneCall_retreat {η : Type} (m : Migrator) (conn : Executor σ) (view : σ → η)
    (phase : UndoPhase) :
    OneCall view (m.retreat (conn.watched view) phase) (m.retreat conn phase) := by
  cases phase with
  | opening => exact (m.oneCall_ensureTable conn view).bind fun _ => noCall_pure _
  | reading =>
    refine (m.oneCall_status conn view).bind fun status => ?_
    by_cases hnone : status.lastBatch = 0
    · rw [if_pos hnone, if_pos hnone]
      exact (noCall_report _).bind fun _ => noCall_pure _
    · rw [if_neg hnone, if_neg hnone]
      exact (noCall_ofExcept _).bind fun table => noCall_pure _
  | reverting table batch names left =>
    cases left with
    | nil => exact (noCall_pure _).oneCall
    | cons name left =>
      exact (m.oneCall_revertOne conn view table name batch).bind fun _ => noCall_pure _
  | ended result => exact (noCall_pure _).oneCall

end Migrator

/-! ### What a piece does -/

/-- The names of the migrations that are left to undo. -/
def UndoPhase.left : UndoPhase → List String
  | .reverting _ _ _ left => left
  | _ => []

/-- A phase in which the table can be named and the names that are left can be written. -/
def UndoPhase.Ready (m : Migrator) : UndoPhase → Prop
  | .reverting table _ _ left => Sql.quoteIdentifier m.table = .ok table ∧ Value.nowText ∉ left
  | _ => True

/-- What a piece of a run may do to the history `h`: in front of it the run is in one phase, and
behind it in another one. Undoing a migration removes its row, wherever it stands. -/
inductive Retreated (m : Migrator) (h : History) : UndoPhase → UndoPhase → History → Prop where
  | opened : Retreated m h .opening .reading h
  | read {table : String} {pending names : List String} {batch : Int64} :
      Sql.quoteIdentifier m.table = .ok table → batch = (MigrationStatus.mk h pending).lastBatch →
      names = Migrator.batchNames ⟨h, pending⟩ batch →
      Retreated m h .reading (.reverting table batch names names) h
  | reverted {table name : String} {batch : Int64} {names left : List String} :
      Retreated m h (.reverting table batch names (name :: left))
        (.reverting table batch names left) (h.filter (·.name ≠ name))
  | ended {phase : UndoPhase} {result : Except Error (List String)} :
      Retreated m h phase (.ended result) h

theorem Migrator.retreated_retreat {m : Migrator} {conn : Executor σ} {rows : σ → History}
    {phase : UndoPhase} {s : SessionState σ} (hkeeps : KeepsHistory conn rows m)
    (hready : phase.Ready m) :
    (m.retreat conn phase).Ensures s fun r t =>
      Retreated m (rows s.remote) phase (.behind r) (rows t.remote) := by
  cases phase with
  | opening =>
    refine (changed_ensureTable hkeeps).bind ?_ ?_
    · intro _ t hchanged
      rw [Ensures, runFrom_pure, hchanged.ok () rfl]
      exact .opened
    · intro e t hchanged
      rw [hchanged.error e rfl]
      exact .ended
  | reading =>
    refine (changed_status hkeeps).bind ?_ ?_
    · intro status t hchanged
      -- what was read is the history as it is, and it is not changed by reading
      obtain ⟨hsame, rfl⟩ := hchanged.ok status rfl
      by_cases hnone : (MigrationStatus.mk (rows t.remote)
          (m.names.drop (rows t.remote).length)).lastBatch = 0
      · rw [if_pos hnone, ← hsame]
        exact .ended
      · rw [if_neg hnone, ← hsame]
        refine Ensures.ofExcept_bind ?_ fun e _ => .ended
        intro table htable
        exact .read htable rfl rfl
    · intro e t hchanged
      rw [hchanged.error e rfl]
      exact .ended
  | reverting table batch names left =>
    cases left with
    | nil => exact .ended
    | cons name left =>
      obtain ⟨htable, hplain⟩ := hready
      have hname : name ≠ Value.nowText := (List.ne_of_not_mem_cons hplain).symm
      refine (changed_revertOne hkeeps hname htable).bind ?_ ?_
      · intro _ t hchanged
        rw [Ensures, runFrom_pure, hchanged.ok () rfl]
        exact .reverted
      · intro e t hchanged
        rw [hchanged.error e rfl]
        exact .ended
  | ended result => exact .ended

end PgToolkit
