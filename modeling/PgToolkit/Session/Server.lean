import PgToolkit.Session.Executor
import PgToolkit.Sql.Placeholder
import PgToolkit.Wire.Cell
import PgToolkit.Wire.Parameter

/-!
# Clients of a server

A server prepares a statement, tells the types of its parameters and columns, and runs it with bound
parameters; statements without parameters are sent as they are. A client turns this into an
executor: it numbers the placeholders, binds the values, and reads the cells of the result.
-/

namespace PgToolkit

open Wire

/-- What a server tells about a prepared statement. -/
structure Description where
  parameters : List PgType
  columns : List (String × PgType)
  deriving DecidableEq, Repr

/-- What a statement yields. -/
structure Outcome where
  /-- The cells of each row; NULL has no bytes. -/
  rows : List (List (Option (List UInt8)))
  affected : Nat
  deriving DecidableEq, Repr

/-- An exchange with a server of state `σ`. It may fail on the side of the server. -/
abbrev Exchange (σ α : Type) := ExceptT DatabaseError (StateM σ) α

/-- What a server with state `σ` does. -/
structure Server (σ : Type) where
  prepare : String → Exchange σ Description
  /-- Runs the statement that was prepared last. -/
  run : List (Option (List UInt8)) → Exchange σ Outcome
  /-- Runs statements without parameters. -/
  command : String → Exchange σ Unit
  /-- Takes statements without parameters whose answer nobody waits for. -/
  post : String → σ → σ

namespace Server

variable {σ α : Type}

/-- An exchange as part of a session. -/
def lift (x : Exchange σ α) : Session σ α :=
  ExceptT.mk fun s =>
    let (result, remote) := x.run s.remote
    (result.mapError DatabaseError.toError, { s with remote })

/-- The text of a statement, if it can be sent: on the way a NUL ends it. -/
def sendable (sql : String) : Except Error String :=
  if sql.toList.contains '\x00' then .error (.query .unsendable) else .ok sql

/-- Every text without NUL can be sent. -/
theorem sendable_eq_ok {sql : String} (h : '\x00' ∉ sql.toList) : sendable sql = .ok sql := by
  simp [sendable, h]

/-- Sends statements without parameters. -/
def send (server : Server σ) (sql : String) : Session σ Unit := do
  lift (server.command (← Session.ofExcept (sendable sql)))

/-- Binds values to parameters, counting them from `index`. -/
def bindFrom (index : Nat) : List Value → List PgType → Except Error (List (Option (List UInt8)))
  | v :: values, type :: types =>
    match v.bind type with
    | .ok bytes => do return bytes :: (← bindFrom (index + 1) values types)
    | .error _ => .error (.query (.parameter index))
  | _, _ => .ok []

/-- Binds values to all parameters of a statement. -/
def bindAll (values : List Value) (types : List PgType) :
    Except Error (List (Option (List UInt8))) :=
  if values.length = types.length then bindFrom 0 values types
  else .error (.query (.parameterCount types.length values.length))

/-- Reads the cells of a row, counting them from `index`. -/
def readCells (index : Nat) :
    List (String × PgType) → List (Option (List UInt8)) → Except Error (List (String × Value))
  | (column, type) :: columns, cell :: cells =>
    match Value.ofCell type cell with
    | .ok v => do return (column, v) :: (← readCells (index + 1) columns cells)
    | .error _ => .error (.decode column (.cell index))
  | _, _ => .ok []

/-- The record of a row. Columns of one name stay apart. -/
def readRow (columns : List (String × PgType)) (cells : List (Option (List UInt8))) :
    Except Error Record :=
  Record.mk <$> readCells 0 columns cells

/-- Prepares a statement and runs it with the values bound to its parameters. -/
def exchange (server : Server σ) (sql : String) (values : List Value) :
    Session σ (Description × Outcome) := do
  let text ← Session.ofExcept (sendable (Sql.numberPlaceholders sql))
  let description ← lift (server.prepare text)
  let bound ← Session.ofExcept (bindAll values description.parameters)
  return (description, ← lift (server.run bound))

/-- The executor of a connection to a server. -/
def client (server : Server σ) : Executor σ :=
  Executor.ofStatements
    (fun sql values => do
      let (description, outcome) ← server.exchange sql values
      Session.ofExcept (outcome.rows.mapM (readRow description.columns)))
    (fun sql values => do
      let (_, outcome) ← server.exchange sql values
      return outcome.affected)
    server.send

/-- The wording of a failure to undo a block: what the server says is left out. -/
def undoReason (_ : Error) : String := "db error"

/-- Opens a block with the first statement of a bracket. When a transaction cannot be opened, the
server is told to undo it, and the answer to that is not waited for. -/
def enter (server : Server σ) (b : Bracket) : Session σ Unit := do
  match ← (lift (server.command b.opening)).attempt with
  | .ok () => return
  | .error cause =>
    if b.scope = .transaction then
      modify fun s => { s with remote := server.post b.undoing s.remote }
    throw cause

/-- Ends a block with its result. -/
def leave (server : Server σ) (b : Bracket) (result : Except Error α) : Session σ α :=
  b.leave (fun sql => lift (server.command sql)) undoReason result

/-- Runs a block in a transaction, which is committed or undone with the result of the block. -/
def transaction (server : Server σ) (body : Executor σ → Session σ α) : Session σ α := do
  server.enter .transaction
  server.leave .transaction (← (body server.client.inTransaction).attempt)

/-- Runs a block in a savepoint of the open transaction. -/
def nested (server : Server σ) (body : Executor σ → Session σ α) : Session σ α := do
  let bracket := Bracket.savepoint (← Session.nextSavepoint)
  server.enter bracket
  server.leave bracket (← (body server.client.inTransaction).attempt)

end Server

end PgToolkit
