import PgToolkit.Proofs.Transaction.Mirror

/-!
# Nested blocks

A block in a transaction is a tree: statements, inner blocks and batches, and what comes next
depends on their results. The failure of a statement ends the block, while that of an inner block or
of a batch may be passed on or not. A transaction gives the tree the meaning that a block which
fails has no effect, and one that succeeds has the effects of its body.
-/

namespace PgToolkit

variable {σ κ δ α : Type}

/-- What is done in a block. The texts of its own statements control no transactions. -/
inductive Block (α : Type) where
  /-- The end of the block, with its result. -/
  | done (result : Except Error α)
  | query (sql : String) (values : List Value)
    (hsql : Control.ofText? (Sql.numberPlaceholders sql) = none) (next : List Record → Block α)
  | execute (sql : String) (values : List Value)
    (hsql : Control.ofText? (Sql.numberPlaceholders sql) = none) (next : Nat → Block α)
  | batch (sql : String) (hsql : Control.ofText? sql = none) (next : Block α)
  /-- An inner block; its result decides what comes next. -/
  | nested (inner : Block α) (next : Except Error α → Block α)
  /-- A batch with a savepoint of its own; its result decides what comes next. -/
  | batchTransaction (sql : String) (hsql : Control.ofText? sql = none)
    (next : Except Error Unit → Block α)

namespace Block

/-- Runs a block over the executor of the open transaction. -/
def run (server : Server σ) : Block α → Executor σ → Session σ α
  | done result, _ => Session.ofExcept result
  | query sql values _ next, tx => do (next (← tx.query sql values)).run server tx
  | execute sql values _ next, tx => do (next (← tx.execute sql values)).run server tx
  | batch sql _ next, tx => do
    tx.batch sql
    next.run server tx
  | nested inner next, tx => do
    (next (← (server.nested (inner.run server)).attempt)).run server tx
  | batchTransaction sql _ next, tx => do
    (next (← (tx.batchTransaction sql).attempt)).run server tx

/-- What a block means over a server without transactions: its own statements one after the other,
and of inner blocks and of batches all or nothing. -/
def eval (conn : Executor (Store κ δ)) : Block α → Session (Store κ δ) α
  | done result => Session.ofExcept result
  | query sql values _ next => do (next (← conn.query sql values)).eval conn
  | execute sql values _ next => do (next (← conn.execute sql values)).eval conn
  | batch sql _ next => do
    conn.batch sql
    next.eval conn
  | nested inner next => do (next (← (inner.eval conn).allOrNothing.attempt)).eval conn
  | batchTransaction sql _ next => do
    (next (← (conn.batch sql).allOrNothing.attempt)).eval conn

section

variable {engine : Server (Store κ δ)}

theorem settles_nested {body : Executor (Database κ δ) → Session (Database κ δ) α}
    {meaning : Session (Store κ δ) α}
    (hbody : Mirrors (body (engine.transactional fun _ => pure ()).client.inTransaction) meaning) :
    Settles ((engine.transactional fun _ => pure ()).nested body) meaning.allOrNothing := by
  rw [Server.nested_eq]
  exact settles_savepointed Bracket.controls_savepoint (carries_enter engine)
    (carries_command engine) hbody

theorem settles_batchTransaction {sql : String} (hsql : Control.ofText? sql = none) :
    Settles ((engine.transactional fun _ => pure ()).client.inTransaction.batchTransaction sql)
      (engine.client.batch sql).allOrNothing := by
  rw [Executor.inTransaction_batchTransaction, Server.client_batch, Server.client_batch]
  exact settles_savepointed Bracket.controls_savepointBatch
    (fun b => carries_send engine b.opening) (carries_send engine) (mirrors_send hsql)

/-- Inside of a transaction a block does what it means. -/
theorem mirrors_run (engine : Server (Store κ δ)) (block : Block α) :
    Mirrors (block.run (engine.transactional fun _ => pure ())
      (engine.transactional fun _ => pure ()).client.inTransaction) (block.eval engine.client) := by
  induction block with
  | done result => exact mirrors_ofExcept result
  | query sql values hsql next ih => exact (mirrors_query values hsql).bind ih
  | execute sql values hsql next ih => exact (mirrors_execute values hsql).bind ih
  | batch sql hsql next ih => exact (mirrors_send hsql).bind fun _ => ih
  | nested inner next hinner ih => exact (settles_nested hinner).attempt.bind ih
  | batchTransaction sql hsql next ih => exact (settles_batchTransaction hsql).attempt.bind ih

/-- A transaction returns what its block does. When the block fails nothing is committed, and
otherwise its effects are. -/
theorem transaction_eval (engine : Server (Store κ δ)) (block : Block α) (kept : κ) (committed : δ)
    (prepared : String) (savepoints : Nat) (events : List Event) :
    ((engine.transactional fun _ => pure ()).transaction
        (block.run (engine.transactional fun _ => pure ()))).Ensures
      ⟨⟨kept, committed, none, prepared⟩, savepoints, events⟩ fun r t =>
        (block.eval engine.client).allOrNothing.Ensures ⟨⟨kept, committed⟩, 0, []⟩ fun r' u =>
          r = r' ∧ t.remote.open? = none ∧ t.remote.committed = u.remote.data ∧
            t.remote.kept = u.remote.kept := by
  have hcontrols := Bracket.controls_transaction
  obtain ⟨inside, hopen, hstep, hcommitted⟩ : ∃ inside : SessionState (Database κ δ),
      ((engine.transactional fun _ => pure ()).enter .transaction).runFrom
        ⟨⟨kept, committed, none, prepared⟩, savepoints, events⟩ = (.ok (), inside) ∧
      InStep inside ⟨⟨kept, committed⟩, 0, []⟩ { data := committed } ∧
      inside.remote.committed = committed :=
    ⟨_, carries_enter engine .transaction .start _ _ hcontrols.opening rfl, ⟨rfl, rfl, rfl⟩, rfl⟩
  -- the block is run on both sides, and its result decides how the transaction ends
  have htracks := mirrors_run engine block inside _ _ hstep
  rw [Session.Ensures, Server.transaction_eq]
  rcases hx : (block.run (engine.transactional fun _ => pure ())
    (engine.transactional fun _ => pure ()).client.inTransaction).runFrom inside with ⟨r, t⟩
  rcases hy : (block.eval engine.client).runFrom ⟨⟨kept, committed⟩, 0, []⟩ with ⟨r', v⟩
  rw [Tracks, Session.Ensures, hx, Session.Ensures, hy] at htracks
  obtain ⟨rfl, hfollows⟩ := htracks
  obtain ⟨tx, -, hopen', -, -, hdata⟩ := hfollows.transaction
  rw [Bracket.runFrom_enclosed hopen hx]
  cases r with
  | ok a =>
    obtain ⟨hhealthy, hdata⟩ := hdata rfl
    have hclose := carries_command engine _ _ t _ hcontrols.closing
      (Control.apply_commit hopen' hhealthy)
    rw [Bracket.runFrom_leave_ok hclose, Session.Ensures, runFrom_allOrNothing_ok hy]
    exact ⟨rfl, rfl, hdata.symm, hfollows.kept.symm⟩
  | error e =>
    have hundo := carries_command engine _ _ t _ hcontrols.undoing (Control.apply_rollback hopen')
    rw [Bracket.runFrom_leave_error hundo, Session.Ensures, runFrom_allOrNothing_error hy]
    exact ⟨rfl, rfl, hfollows.committed.trans hcommitted, hfollows.kept.symm⟩

end

end Block

end PgToolkit
