import PgToolkit.Proofs.Session.Record
import PgToolkit.Session.Script

/-!
# Sessions that do not look at events

Events are for whoever reads the log. A session that reports some does not read them, so it does the
same whatever was reported before it.
-/

namespace PgToolkit

variable {σ α β : Type}

/-- The state of a session in which some events had been reported already before all others. -/
def SessionState.behind (events : List Event) (s : SessionState σ) : SessionState σ :=
  { s with events := events ++ s.events }

namespace Session

/-- What was reported before a session stays, and makes no difference to it. -/
def Unheeding (x : Session σ α) : Prop :=
  ∀ events s, x.runFrom (s.behind events) = ((x.runFrom s).1, (x.runFrom s).2.behind events)

theorem unheeding_pure (a : α) : Unheeding (pure a : Session σ α) :=
  fun _ _ => rfl

theorem unheeding_ofExcept (r : Except Error α) : Unheeding (ofExcept r : Session σ α) :=
  fun _ _ => rfl

theorem unheeding_report (event : Event) : Unheeding (report event : Session σ Unit) := by
  intro events s
  simp [SessionState.behind]

theorem unheeding_nextSavepoint : Unheeding (nextSavepoint : Session σ String) :=
  fun _ _ => rfl

theorem unheeding_lift (x : Exchange σ α) : Unheeding (Server.lift x) :=
  fun _ _ => rfl

/-- A session that only has to do with the other side. -/
theorem unheeding_ofRemote (change : σ → σ) (result : σ → Except Error α) :
    Unheeding (do
      let s ← get
      set { s with remote := change s.remote }
      ofExcept (result s.remote)) :=
  fun _ _ => rfl

variable {x : Session σ α} {f : α → Session σ β}

theorem Unheeding.attempt (h : x.Unheeding) : x.attempt.Unheeding := by
  intro events s
  rw [runFrom_attempt, runFrom_attempt, h events s]

theorem Unheeding.bind (h : x.Unheeding) (hnext : ∀ a, (f a).Unheeding) :
    (x >>= f).Unheeding := by
  intro events s
  have hx := h events s
  rcases hrun : x.runFrom s with ⟨e | a, t⟩
  · rw [hrun] at hx
    rw [runFrom_bind_of_error hrun, runFrom_bind_of_error hx]
  · rw [hrun] at hx
    rw [runFrom_bind_of_ok hrun, runFrom_bind_of_ok hx, hnext a events t]

end Session

/-! ### Brackets -/

section

variable {command : String → Session σ Unit} {reason : Error → String}

theorem Bracket.unheeding_leave (b : Bracket) (h : ∀ sql, (command sql).Unheeding)
    (result : Except Error α) : (b.leave command reason result).Unheeding := by
  cases result with
  | ok a => exact (h b.closing).bind fun _ => Session.unheeding_pure a
  | error cause =>
    refine (h b.undoing).attempt.bind fun undone => ?_
    cases undone with
    | ok _ => exact Session.unheeding_ofExcept (.error cause)
    | error failure => exact Session.unheeding_ofExcept (.error _)

theorem Bracket.unheeding_around (b : Bracket) {body : Session σ α}
    (h : ∀ sql, (command sql).Unheeding) (hbody : body.Unheeding) :
    (b.around command reason body).Unheeding :=
  (h b.opening).bind fun _ => hbody.attempt.bind fun result => b.unheeding_leave h result

end

/-! ### Executors -/

/-- The answer to a request. -/
inductive Response where
  | rows (records : List Record)
  | affected (count : Nat)
  | done

namespace Executor

/-- Answers a request. -/
def serve (e : Executor σ) : Request → Session σ Response
  | .query sql params => do return .rows (← e.query sql params)
  | .execute sql params => do return .affected (← e.execute sql params)
  | .batch sql => do
    e.batch sql
    return .done
  | .transaction sql => do
    e.batchTransaction sql
    return .done

/-- An executor whose calls do not look at events. -/
structure Unheeding (e : Executor σ) : Prop where
  query : ∀ sql params, (e.query sql params).Unheeding
  execute : ∀ sql params, (e.execute sql params).Unheeding
  batch : ∀ sql, (e.batch sql).Unheeding
  batchTransaction : ∀ sql, (e.batchTransaction sql).Unheeding

namespace Unheeding

variable {e : Executor σ}

theorem serve (h : e.Unheeding) (request : Request) : (e.serve request).Unheeding := by
  cases request with
  | query sql params => exact (h.query sql params).bind fun rows => Session.unheeding_pure _
  | execute sql params => exact (h.execute sql params).bind fun count => Session.unheeding_pure _
  | batch sql => exact (h.batch sql).bind fun _ => Session.unheeding_pure _
  | transaction sql => exact (h.batchTransaction sql).bind fun _ => Session.unheeding_pure _

/-- An executor that wraps batches itself does not look at events if its statements do not. -/
theorem ofStatements {query : String → List Value → Session σ (List Record)}
    {execute : String → List Value → Session σ Nat} {batch : String → Session σ Unit}
    (hquery : ∀ sql params, (query sql params).Unheeding)
    (hexecute : ∀ sql params, (execute sql params).Unheeding)
    (hbatch : ∀ sql, (batch sql).Unheeding) :
    (Executor.ofStatements query execute batch).Unheeding where
  query := hquery
  execute := hexecute
  batch := hbatch
  batchTransaction sql := Bracket.plain.unheeding_around hbatch (hbatch sql)

theorem inTransaction (h : e.Unheeding) : e.inTransaction.Unheeding where
  query := h.query
  execute := h.execute
  batch := h.batch
  batchTransaction sql := Session.unheeding_nextSavepoint.bind fun name =>
    (Bracket.savepointBatch name).unheeding_around h.batch (h.batch sql)

end Unheeding

end Executor

namespace Server

variable (server : Server σ)

theorem unheeding_send (sql : String) : (server.send sql).Unheeding :=
  (Session.unheeding_ofExcept _).bind fun _ => Session.unheeding_lift _

theorem unheeding_exchange (sql : String) (values : List Value) :
    (server.exchange sql values).Unheeding :=
  (Session.unheeding_ofExcept _).bind fun _ => (Session.unheeding_lift _).bind fun _ =>
    (Session.unheeding_ofExcept _).bind fun _ => (Session.unheeding_lift _).bind fun _ =>
      Session.unheeding_pure _

theorem unheeding_client : server.client.Unheeding :=
  .ofStatements
    (fun sql values => (server.unheeding_exchange sql values).bind fun _ =>
      Session.unheeding_ofExcept _)
    (fun sql values => (server.unheeding_exchange sql values).bind fun _ =>
      Session.unheeding_pure _)
    server.unheeding_send

end Server

namespace Script

theorem unheeding_take (call : Call) : (take call).Unheeding := by
  have htake : take call = (do
      let s ← get
      set { s with remote := (s.remote.record call).nextReply.2 }
      Session.ofExcept ((s.remote.record call).nextReply.1.error?.elim
        (.ok (s.remote.record call).nextReply.1) .error)) := by
    unfold take
    refine bind_congr fun s => ?_
    rcases (s.remote.record call).nextReply with ⟨reply, remote⟩
    refine bind_congr fun _ => ?_
    cases reply.error? <;> rfl
  rw [htake]
  exact Session.unheeding_ofRemote
    (fun r : Script Reply Error => (r.record call).nextReply.2)
    fun r => (r.record call).nextReply.1.error?.elim (.ok (r.record call).nextReply.1) .error

theorem unheeding_batch (sql : String) : (batch sql).Unheeding := by
  have hbatch : batch sql = (do
      let s ← get
      set { s with remote := s.remote.record (.batch sql) }
      Session.ofExcept ((s.remote.failureOf? sql).elim (.ok ()) .error)) := by
    unfold batch
    refine bind_congr fun s => bind_congr fun _ => ?_
    cases s.remote.failureOf? sql <;> rfl
  rw [hbatch]
  exact Session.unheeding_ofRemote
    (fun r : Script Reply Error => r.record (.batch sql))
    fun r => (r.failureOf? sql).elim (.ok ()) .error

theorem unheeding_executor : executor.Unheeding :=
  .ofStatements
    (fun _ _ => (unheeding_take _).bind fun _ => Session.unheeding_pure _)
    (fun _ _ => (unheeding_take _).bind fun _ => Session.unheeding_pure _)
    unheeding_batch

end Script

end PgToolkit
