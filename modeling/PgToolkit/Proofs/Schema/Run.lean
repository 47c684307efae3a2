import PgToolkit.Proofs.Session.Ensures
import PgToolkit.Schema.Run

/-!
# Running a queue

A queue that has statements makes one call, and its outcome is that of the call. Only a call that
succeeds empties the queue.
-/

namespace PgToolkit.SchemaQueue

variable {σ : Type} {conn : Executor σ} {q : SchemaQueue} {statements : List String}
  {s : SessionState σ}

/-- A queue whose statements cannot be written is left as it is, and nothing is sent. -/
theorem runFrom_run_of_error {e : Error} (hsql : q.toSql = .error e) :
    (q.run conn).runFrom s = (.ok (.error e, q), s) := by
  rw [run, hsql]
  rfl

theorem runFrom_apply_of_error {e : Error} (hsql : q.toSql = .error e) :
    (q.apply conn).runFrom s = (.error e, s) :=
  Session.runFrom_bind_of_ok (runFrom_run_of_error hsql)

/-- Running a queue ensures what its transaction ensures on the other side of the connection. The
queue is empty when the transaction succeeded. When it failed, the queue is left as it was, and the
error is told together with the batch. -/
theorem ensures_run {post : Except Error Unit → σ → Prop} (hsql : q.toSql = .ok statements)
    (hne : statements ≠ [])
    (hcall : (conn.batchTransaction (batchText statements)).Ensures s fun r t => post r t.remote) :
    (q.run conn).Ensures s fun r t =>
      (r = .ok (.ok (), empty) ∧ post (.ok ()) t.remote) ∨
      ∃ e, r = .ok (.error (.ddl (batchText statements) e), q) ∧ post (.error e) t.remote := by
  rw [run, hsql]
  dsimp only
  rw [if_neg (by simpa using hne)]
  refine hcall.attempt_bind ?_
  rintro (e | ⟨⟩) t hpost
  · exact Or.inr ⟨e, rfl, hpost⟩
  · exact Or.inl ⟨rfl, hpost⟩

/-- What a queue does that is not used again. -/
theorem apply_eq (q : SchemaQueue) (conn : Executor σ) :
    q.apply conn = Session.ofExcept q.toSql >>= fun statements =>
      if statements.isEmpty then pure ()
      else (conn.batchTransaction (batchText statements)).attempt >>= fun
        | .ok () => Session.report (.schemaApplied statements.length)
        | .error e => Session.report (.schemaRolledBack statements.length e) >>= fun _ =>
          throw (.ddl (batchText statements) e) := by
  rw [apply, run]
  cases q.toSql with
  | error e => rfl
  | ok statements =>
    show _ = if statements.isEmpty then pure () else _
    dsimp only
    by_cases hempty : statements.isEmpty = true
    · rw [if_pos hempty, if_pos hempty]
      rfl
    · rw [if_neg hempty, if_neg hempty, bind_assoc]
      congr 1
      funext result
      cases result with
      | error e => rfl
      | ok _ => rfl

end PgToolkit.SchemaQueue
