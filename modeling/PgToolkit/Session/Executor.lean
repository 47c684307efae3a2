import PgToolkit.Record.Basic
import PgToolkit.Session.Event

/-!
# Sessions and executors

A session is a computation against a connection. It may fail, and what happened until then stays
done: the state of the other side, the savepoints that were named, and the events that were
reported. An executor is what runs statements in a session.

## Main definitions

- `SessionState` — what a session reads and changes
- `Session` — a computation in a session
- `Session.attempt` — runs a computation and keeps its error as a result
- `Executor` — the four ways to run statements
- `Bracket` — statements around a block that undo it when it fails
- `Executor.ofStatements` — batches run in a transaction of their own
- `Executor.inTransaction` — batches run in a savepoint of the open transaction
-/

namespace PgToolkit

/-- What a session reads and changes; `σ` is the state of the other side of the connection. -/
structure SessionState (σ : Type) where
  remote : σ
  savepoints : Nat := 0
  /-- The events so far, oldest first. -/
  events : List Event := []

/-- A computation in a session. Its state survives a failure. -/
abbrev Session (σ α : Type) := ExceptT Error (StateM (SessionState σ)) α

namespace Session

variable {σ α : Type}

def runFrom (x : Session σ α) (s : SessionState σ) : Except Error α × SessionState σ :=
  StateT.run (ExceptT.run x) s

/-- Runs a computation and keeps its error as a result. -/
def attempt (x : Session σ α) : Session σ (Except Error α) :=
  ExceptT.mk (do return .ok (← x.run))

def ofExcept (result : Except Error α) : Session σ α :=
  ExceptT.mk (pure result)

/-- Reports an event. -/
def report (event : Event) : Session σ Unit :=
  modify fun s => { s with events := s.events ++ [event] }

/-- A name for a savepoint that this session has not used yet. -/
def nextSavepoint : Session σ String := do
  let s ← get
  set { s with savepoints := s.savepoints + 1 }
  return "pgfluent_sp_" ++ toString s.savepoints

end Session

/-- What is undone around a block, and the statements for it. -/
structure Bracket where
  opening : String
  closing : String
  undoing : String
  scope : RollbackScope
  deriving DecidableEq, Repr

namespace Bracket

variable {σ α : Type}

/-- The statements around a batch on a connection. -/
def plain : Bracket := ⟨"BEGIN", "COMMIT", "ROLLBACK", .transaction⟩

/-- The statements around a block on a connection. -/
def transaction : Bracket := ⟨"START TRANSACTION", "COMMIT", "ROLLBACK", .transaction⟩

/-- The statements around a batch in an open transaction. -/
def savepointBatch (name : String) : Bracket :=
  ⟨"SAVEPOINT " ++ name, "RELEASE SAVEPOINT " ++ name, "ROLLBACK TO SAVEPOINT " ++ name, .savepoint⟩

/-- The statements around a block in an open transaction. -/
def savepoint (name : String) : Bracket :=
  ⟨"SAVEPOINT " ++ name, "RELEASE " ++ name, "ROLLBACK TO " ++ name, .savepoint⟩

/-- Ends a block with the given result: closes it, or undoes it and fails. When the undoing fails as
well, both failures are told; `reason` words the second one. -/
def leave (b : Bracket) (command : String → Session σ Unit) (reason : Error → String)
    (result : Except Error α) : Session σ α := do
  match result with
  | .ok a =>
    command b.closing
    return a
  | .error cause =>
    match ← (command b.undoing).attempt with
    | .ok () => throw cause
    | .error failure => throw (.rollbackFailed b.scope cause (reason failure))

/-- Runs a block between the opening statement and the one that closes or undoes it. -/
def around (b : Bracket) (command : String → Session σ Unit) (reason : Error → String)
    (body : Session σ α) : Session σ α := do
  command b.opening
  b.leave command reason (← body.attempt)

end Bracket

/-- What runs statements. Placeholders are still question marks when a statement gets here. -/
structure Executor (σ : Type) where
  /-- Runs a statement and returns its rows. -/
  query : String → List Value → Session σ (List Record)
  /-- Runs a statement and returns the number of affected rows. -/
  execute : String → List Value → Session σ Nat
  /-- Runs statements without parameters. -/
  batch : String → Session σ Unit
  /-- Runs statements without parameters, all or none of them. -/
  batchTransaction : String → Session σ Unit

namespace Executor

variable {σ : Type}

/-- An executor that runs batches in a transaction of their own. -/
def ofStatements (query : String → List Value → Session σ (List Record))
    (execute : String → List Value → Session σ Nat) (batch : String → Session σ Unit) :
    Executor σ where
  query := query
  execute := execute
  batch := batch
  batchTransaction sql := Bracket.plain.around batch Error.message (batch sql)

/-- The same executor within an open transaction: batches run in a savepoint. -/
def inTransaction (e : Executor σ) : Executor σ where
  query := e.query
  execute := e.execute
  batch := e.batch
  batchTransaction sql := do
    let name ← Session.nextSavepoint
    (Bracket.savepointBatch name).around e.batch Error.message (e.batch sql)

/-- A connection that was taken out of a pool. It hands statements on and wraps batches itself. -/
def pooled (e : Executor σ) : Executor σ :=
  ofStatements e.query e.execute e.batch

end Executor

end PgToolkit
