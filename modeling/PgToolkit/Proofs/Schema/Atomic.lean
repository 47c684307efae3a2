import PgToolkit.Proofs.Schema.Batch
import PgToolkit.Proofs.Schema.Run
import PgToolkit.Proofs.Transaction.Batch

/-!
# All of a queue or nothing

The run of a queue takes place between the statements of a bracket. Whichever of the calls fails, no
statement of the queue has an effect, and the queue is as it was, so that it can be run again.
-/

namespace PgToolkit

variable {σ κ δ : Type}

/-- Whether the opening, the batch and the closing all succeed. -/
def Executor.completes (e : Executor σ) (b : Bracket) (sql : String) (s : SessionState σ) : Bool :=
  (([b.opening, sql, b.closing].forM e.batch).runFrom s).1.isOk

/-- How a run of a queue ends. When all calls succeed, the queue is empty and `done` holds.
Otherwise the error tells the batch, the queue is as it was, and `undone` holds. -/
structure SchemaQueue.AllOrNone (q : SchemaQueue) (result : Except Error Unit)
    (left : SchemaQueue) (succeeded : Bool) (done undone : Prop) : Prop where
  isOk_eq : result.isOk = succeeded
  ok : result.isOk = true → left = SchemaQueue.empty ∧ done
  error : result.isOk = false → left = q ∧ undone ∧
    ∃ sql cause, q.batch = .ok sql ∧ result = .error (.ddl sql cause)

/-- The outcome of a call: `done` holds behind it when it succeeds, and `undone` when it fails. -/
structure Settled (succeeded : Bool) (done undone : σ → Prop) (r : Except Error Unit) (db : σ) :
    Prop where
  isOk_eq : r.isOk = succeeded
  ok : r.isOk = true → done db
  error : r.isOk = false → undone db

namespace SchemaQueue

variable {q : SchemaQueue} {statements : List String}

/-- A run ends as its batch does. -/
theorem ensures_run_allOrNone {conn : Executor σ} {s : SessionState σ} {succeeded : Bool}
    {done undone : σ → Prop} (hsql : q.toSql = .ok statements) (hne : statements ≠ [])
    (hcall : (conn.batchTransaction (batchText statements)).Ensures s fun r t =>
      Settled succeeded done undone r t.remote) :
    (q.run conn).Ensures s fun r t => ∃ result left, r = .ok (result, left) ∧
      q.AllOrNone result left succeeded (done t.remote) (undone t.remote) := by
  refine (ensures_run hsql hne hcall).mono fun r t h => ?_
  obtain ⟨rfl, hok, hdone, -⟩ | ⟨cause, rfl, hok, -, hundone⟩ := h
  · exact ⟨_, _, rfl, hok, fun _ => ⟨rfl, hdone rfl⟩, nofun⟩
  · refine ⟨_, _, rfl, hok, nofun, fun _ => ⟨rfl, hundone rfl, _, cause, ?_, rfl⟩⟩
    rw [batch, hsql]
    rfl

/-- A run of a queue is atomic and can be repeated. The executor brings its batches to a server with
transactions that runs the statements of a batch one by one; any of them may fail, and any statement
that controls a transaction as well. -/
theorem run_allOrNone (engine : Server (Store κ δ)) (accept : Control → Exchange κ Unit)
    (apply : String → Exchange (Store κ δ) Unit) (e : Executor (Database κ δ)) (q : SchemaQueue)
    (he : e.Reaches (engine.transactional accept))
    (hcommand : ∀ statements, q.toSql = .ok statements →
      engine.command (batchText statements) = statements.forM apply)
    (s : SessionState (Database κ δ)) :
    (∀ failure, q.toSql = .error failure → ∀ conn : Executor (Database κ δ),
      (q.run conn).runFrom s = (.ok (.error failure, q), s)) ∧
    ∀ statements, q.toSql = .ok statements → statements ≠ [] →
      ((q.run e.pooled).Ensures s fun r t => ∃ result left, r = .ok (result, left) ∧
        q.AllOrNone result left (e.completes .plain (batchText statements) s)
          (Committed apply statements s.remote t.remote) (Abandoned s.remote t.remote)) ∧
      ((q.run e.inTransaction).Ensures s fun r t => ∃ result left, r = .ok (result, left) ∧
        q.AllOrNone result left (e.completes (.savepointBatch (Control.savepointName s.savepoints))
            (batchText statements) s.named)
          (Absorbed apply statements s.remote t.remote) (Restored s.remote t.remote)) := by
  refine ⟨fun failure hfailure conn => runFrom_run_of_error hfailure,
    fun statements hsql hne => ⟨?_, ?_⟩⟩
  · refine ensures_run_allOrNone hsql hne ?_
    refine (Bracket.plain.left_around _ _ _ s).mono fun r t hleft => ?_
    obtain ⟨hok, herror⟩ := plain_left he (hcommand statements hsql) hleft
    exact ⟨hleft.isOk_eq, hok, herror⟩
  · refine ensures_run_allOrNone hsql hne ?_
    rw [Session.Ensures, Executor.inTransaction,
      Session.runFrom_bind_of_ok (Session.runFrom_nextSavepoint s)]
    have hleft := Bracket.left_around (.savepointBatch (Control.savepointName s.savepoints)) e.batch
      Error.message (e.batch (batchText statements)) s.named
    obtain ⟨hok, herror⟩ := savepointBatch_left he (hcommand statements hsql) rfl hleft
    exact ⟨Bracket.Left.isOk_eq hleft, hok, herror⟩

end SchemaQueue

/-- A server without transactions that cuts a command into statements and runs one after the other.
It prepares nothing. -/
def cuttingServer (apply : String → Exchange (Store κ δ) Unit) : Server (Store κ δ) where
  prepare _ := return ⟨[], []⟩
  run _ := return ⟨[], 0⟩
  command sql := (cutStatements sql).forM apply
  post sql store := (((cutStatements sql).forM apply).run store).2

/-- It runs the statements of a queue without SQL of the caller one by one. -/
theorem cuttingServer_command {apply : String → Exchange (Store κ δ) Unit} {q : SchemaQueue}
    (hraw : q.rawTexts = []) {statements : List String} (hsql : q.toSql = .ok statements) :
    (cuttingServer apply).command (batchText statements) = statements.forM apply := by
  have hcut := cutStatements_batchText (q.standsAlone_toSql hraw hsql)
  show (cutStatements (batchText statements)).forM apply = _
  rw [hcut]

/-- A statement that only writes itself down, unless it is the one that is refused. -/
def noted (refused sql : String) : Exchange (Store Unit (List String)) Unit :=
  if sql = refused then throw savepointRefusal
  else modify fun store => { store with data := store.data ++ [sql] }

/-- A server that writes statements down and accepts every control statement. -/
def notingServer : Server (Database Unit (List String)) :=
  (cuttingServer (noted "DROP TABLE \"t\"")).transactional fun _ => pure ()

/-- Two tables are dropped, of which only one has to exist. -/
def dropQueue : SchemaQueue where
  changes := [.dropTable "app.users" false, .dropTable "old;" true]

theorem run_allOrNone_dropQueue :
    notingServer.client.Reaches notingServer ∧ dropQueue.rawTexts = [] ∧
    ∃ statements, dropQueue.toSql = .ok statements ∧ statements.length = 2 ∧
      ∀ s : SessionState (Database Unit (List String)),
        (dropQueue.run notingServer.client.pooled).Ensures s fun r t =>
          ∃ result left, r = .ok (result, left) ∧ dropQueue.AllOrNone result left
            (notingServer.client.completes .plain (batchText statements) s)
            (Committed (noted "DROP TABLE \"t\"") statements s.remote t.remote)
            (Abandoned s.remote t.remote) := by
  have hreaches := notingServer.reaches_client
  have hraw : dropQueue.rawTexts = [] := by decide
  have hlength : List.length <$> dropQueue.toSql = .ok 2 := by decide +kernel
  obtain ⟨statements, hsql, htwo⟩ := map_eq_ok_iff.1 hlength
  have hne : statements ≠ [] := by
    rintro rfl
    cases htwo
  exact ⟨hreaches, hraw, statements, hsql, htwo, fun s =>
    ((SchemaQueue.run_allOrNone _ _ _ _ _ hreaches (fun _ h => cuttingServer_command hraw h) s).2
      statements hsql hne).1⟩

end PgToolkit
