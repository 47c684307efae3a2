import PgToolkit.Session.Logging
import PgToolkit.Session.Server

/-!
# Layers around executors

An executor is handed around by reference, wrapped to be logged, or taken out of a pool. Each of
these is an executor again, which hands its calls on.
-/

namespace PgToolkit

variable {σ : Type}

namespace Executor

/-- An executor behind a reference. Every call is handed on as it is, also the atomic batch, which
would otherwise be put together from single batches. -/
def referenced (e : Executor σ) : Executor σ where
  query sql params := e.query sql params
  execute sql params := e.execute sql params
  batch sql := e.batch sql
  batchTransaction sql := e.batchTransaction sql

end Executor

/-- What can be put around an executor. -/
inductive Layer where
  | reference
  | logging (config : LogConfig)
  deriving DecidableEq, Repr

namespace Executor

def layer (e : Executor σ) : Layer → Executor σ
  | .reference => e.referenced
  | .logging config => e.logged config

/-- An executor with layers around it, the innermost one first. -/
def layered (e : Executor σ) (layers : List Layer) : Executor σ :=
  layers.foldl layer e

end Executor

/-- The connections on which statements can be run. A pool hands out a client around the wrapper of
the driver's client, and that client's transactions around those of the driver. -/
inductive Connection where
  | client
  | transaction
  | pooledWrapper
  | pooledClient
  | pooledTransaction
  deriving DecidableEq, Repr

namespace Connection

/-- Whether a transaction is open on the connection. -/
def isOpen : Connection → Bool
  | .transaction | .pooledTransaction => true
  | .client | .pooledWrapper | .pooledClient => false

/-- The executor of a connection. What comes from a pool hands single statements on, and puts atomic
batches together itself. -/
def executor (server : Server σ) : Connection → Executor σ
  | .client => server.client
  | .transaction => server.client.inTransaction
  | .pooledWrapper => server.client.pooled
  | .pooledClient => server.client.pooled.pooled
  | .pooledTransaction => server.client.inTransaction.inTransaction

/-- The executor of the driver's own connection. -/
def driver (server : Server σ) (c : Connection) : Executor σ :=
  if c.isOpen then server.client.inTransaction else server.client

end Connection

end PgToolkit
