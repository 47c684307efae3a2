import PgToolkit.Proofs.Session.Ensures
import PgToolkit.Session.Server

/-!
# Blocks between statements

A block between the statements of a bracket is left in one of five ways. Which one it is depends on
what fails: the opening, the block, or the statement that ends it.
-/

namespace PgToolkit

variable {σ α : Type}

/-- A session state in which one more savepoint has been named. -/
def SessionState.named (s : SessionState σ) : SessionState σ :=
  { s with savepoints := s.savepoints + 1 }

namespace Bracket

/-- A block between an opening and the end of a bracket. -/
def enclosed (b : Bracket) (enter : Session σ Unit) (command : String → Session σ Unit)
    (reason : Error → String) (body : Session σ α) : Session σ α := do
  enter
  b.leave command reason (← body.attempt)

/-- A block between the statements of a bracket with a new name. -/
def savepointed (bracket : String → Bracket) (enter : Bracket → Session σ Unit)
    (command : String → Session σ Unit) (reason : Error → String) (body : Session σ α) :
    Session σ α := do
  let name ← Session.nextSavepoint
  (bracket name).enclosed (enter (bracket name)) command reason body

/-- The ways in which a block is left: `s` is the state in front of it, `u` the one behind the
opening, and `v` the one behind the block. -/
inductive Left (b : Bracket) (enter : Session σ Unit) (command : String → Session σ Unit)
    (reason : Error → String) (body : Session σ α) (s : SessionState σ) :
    Except Error α → SessionState σ → Prop
  | notEntered {e : Error} {t : SessionState σ} (hopen : enter.runFrom s = (.error e, t)) :
    Left b enter command reason body s (.error e) t
  | closed {a : α} {u v t : SessionState σ} (hopen : enter.runFrom s = (.ok (), u))
    (hbody : body.runFrom u = (.ok a, v)) (hend : (command b.closing).runFrom v = (.ok (), t)) :
    Left b enter command reason body s (.ok a) t
  | notClosed {a : α} {e : Error} {u v t : SessionState σ} (hopen : enter.runFrom s = (.ok (), u))
    (hbody : body.runFrom u = (.ok a, v)) (hend : (command b.closing).runFrom v = (.error e, t)) :
    Left b enter command reason body s (.error e) t
  | undone {cause : Error} {u v t : SessionState σ} (hopen : enter.runFrom s = (.ok (), u))
    (hbody : body.runFrom u = (.error cause, v))
    (hend : (command b.undoing).runFrom v = (.ok (), t)) :
    Left b enter command reason body s (.error cause) t
  | notUndone {cause failure : Error} {u v t : SessionState σ}
    (hopen : enter.runFrom s = (.ok (), u)) (hbody : body.runFrom u = (.error cause, v))
    (hend : (command b.undoing).runFrom v = (.error failure, t)) :
    Left b enter command reason body s (.error (.rollbackFailed b.scope cause (reason failure))) t

section

variable {b : Bracket} {enter : Session σ Unit} {command : String → Session σ Unit}
  {reason : Error → String} {body : Session σ α} {s t u v : SessionState σ} {a : α}
  {cause : Error}

/-- Behind the block, its result decides how the bracket ends. -/
theorem runFrom_enclosed {r : Except Error α} (hopen : enter.runFrom s = (.ok (), u))
    (hbody : body.runFrom u = (r, v)) :
    (b.enclosed enter command reason body).runFrom s = (b.leave command reason r).runFrom v := by
  have hattempt : body.attempt.runFrom u = (.ok r, v) := by
    rw [Session.runFrom_attempt, hbody]
  rw [enclosed, Session.runFrom_bind_of_ok hopen, Session.runFrom_bind_of_ok hattempt]

theorem runFrom_leave_ok (hend : (command b.closing).runFrom v = (.ok (), t)) :
    (b.leave command reason (.ok a)).runFrom v = (.ok a, t) := by
  have hleave : b.leave command reason (.ok a) = command b.closing >>= fun _ => (return a) := rfl
  rw [hleave, Session.runFrom_bind_of_ok hend]
  rfl

theorem runFrom_leave_error (hend : (command b.undoing).runFrom v = (.ok (), t)) :
    (b.leave command reason (.error cause : Except Error α)).runFrom v = (.error cause, t) := by
  have hattempt : (command b.undoing).attempt.runFrom v = (.ok (.ok ()), t) := by
    rw [Session.runFrom_attempt, hend]
  rw [leave, Session.runFrom_bind_of_ok hattempt]
  rfl

end

theorem left_enclosed (b : Bracket) (enter : Session σ Unit) (command : String → Session σ Unit)
    (reason : Error → String) (body : Session σ α) (s : SessionState σ) :
    (b.enclosed enter command reason body).Ensures s (b.Left enter command reason body s) := by
  rw [Session.Ensures]
  -- the opening, the body and the end can fail, one after the other
  rcases hopen : enter.runFrom s with ⟨e | ⟨⟩, u⟩
  · rw [enclosed, Session.runFrom_bind_of_error hopen]
    exact .notEntered hopen
  rcases hbody : body.runFrom u with ⟨cause | a, v⟩
  · rw [runFrom_enclosed hopen hbody]
    rcases hend : (command b.undoing).runFrom v with ⟨failure | ⟨⟩, t⟩
    · have hattempt : (command b.undoing).attempt.runFrom v = (.ok (.error failure), t) := by
        rw [Session.runFrom_attempt, hend]
      rw [leave, Session.runFrom_bind_of_ok hattempt]
      exact .notUndone hopen hbody hend
    · rw [runFrom_leave_error hend]
      exact .undone hopen hbody hend
  · rw [runFrom_enclosed hopen hbody]
    rcases hend : (command b.closing).runFrom v with ⟨e | ⟨⟩, t⟩
    · have hleave : b.leave command reason (.ok a) =
          command b.closing >>= fun _ => (return a) := rfl
      rw [hleave, Session.runFrom_bind_of_error hend]
      exact .notClosed hopen hbody hend
    · rw [runFrom_leave_ok hend]
      exact .closed hopen hbody hend

theorem left_around (b : Bracket) (command : String → Session σ Unit) (reason : Error → String)
    (body : Session σ α) (s : SessionState σ) :
    (b.around command reason body).Ensures s
      (b.Left (command b.opening) command reason body s) :=
  b.left_enclosed (command b.opening) command reason body s

variable {b : Bracket} {command : String → Session σ Unit} {reason : Error → String}

/-- A batch that is left with success is one that was opened, run and closed. -/
theorem Left.isOk_eq {sql : String} {s t : SessionState σ} {r : Except Error Unit}
    (h : b.Left (command b.opening) command reason (command sql) s r t) :
    r.isOk = (([b.opening, sql, b.closing].forM command).runFrom s).1.isOk := by
  have hlist : [b.opening, sql, b.closing].forM command = command b.opening >>= fun _ =>
      command sql >>= fun _ => command b.closing >>= fun _ => pure () := rfl
  rw [hlist]
  cases h with
  | notEntered hopen => rw [Session.runFrom_bind_of_error hopen]
  | closed hopen hbody hend =>
    rw [Session.runFrom_bind_of_ok hopen, Session.runFrom_bind_of_ok hbody,
      Session.runFrom_bind_of_ok hend]
    rfl
  | notClosed hopen hbody hend =>
    rw [Session.runFrom_bind_of_ok hopen, Session.runFrom_bind_of_ok hbody,
      Session.runFrom_bind_of_error hend]
  | undone hopen hbody hend =>
    rw [Session.runFrom_bind_of_ok hopen, Session.runFrom_bind_of_error hbody]
  | notUndone hopen hbody hend =>
    rw [Session.runFrom_bind_of_ok hopen, Session.runFrom_bind_of_error hbody]
    rfl

end Bracket

/-- A batch in an open transaction is a block in a savepoint. -/
theorem Executor.inTransaction_batchTransaction (e : Executor σ) (sql : String) :
    e.inTransaction.batchTransaction sql = Bracket.savepointed Bracket.savepointBatch
      (fun b => e.batch b.opening) e.batch Error.message (e.batch sql) := rfl

theorem Server.nested_eq (server : Server σ) (body : Executor σ → Session σ α) :
    server.nested body = Bracket.savepointed Bracket.savepoint server.enter
      (fun sql => Server.lift (server.command sql)) Server.undoReason
      (body server.client.inTransaction) := rfl

theorem Server.transaction_eq (server : Server σ) (body : Executor σ → Session σ α) :
    server.transaction body = Bracket.transaction.enclosed (server.enter .transaction)
      (fun sql => Server.lift (server.command sql)) Server.undoReason
      (body server.client.inTransaction) := rfl

theorem Server.client_batch (server : Server σ) : server.client.batch = server.send := rfl

end PgToolkit
