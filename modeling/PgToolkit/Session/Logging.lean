import PgToolkit.Session.Executor

/-!
# Logged executors

An executor can be wrapped so that every call on it is reported as one event, with its SQL cut to a
readable length.
-/

namespace PgToolkit

/-- How calls are logged. -/
structure LogConfig where
  /-- The level of successful calls; failures are always warnings. -/
  level : Level := .debug
  /-- The number of bytes at which SQL is cut; without one it is not cut. -/
  maxBytes? : Option Nat := some 200
  deriving DecidableEq, Repr

/-- The longest prefix of whole characters within a number of bytes. -/
def takeBytes (limit : Nat) : List Char → List Char
  | [] => []
  | c :: rest => if c.utf8Size ≤ limit then c :: takeBytes (limit - c.utf8Size) rest else []

/-- SQL as it is reported: whole, or its beginning and three dots. -/
def LogConfig.shownSql (config : LogConfig) (sql : String) : String :=
  match config.maxBytes? with
  | none => sql
  | some limit =>
    if sql.utf8ByteSize ≤ limit then sql
    else String.ofList (takeBytes limit sql.toList) ++ "..."

namespace Executor

variable {σ α : Type}

/-- Runs a call and reports its outcome. -/
def observed (config : LogConfig) (kind : CallKind) (sql : String) (parameters : Nat)
    (call : Session σ α) : Session σ α := do
  let result ← call.attempt
  match result with
  | .ok _ => Session.report (.statement config.level kind parameters (config.shownSql sql))
  | .error e => Session.report (.statementFailed kind parameters (config.shownSql sql) e)
  Session.ofExcept result

/-- The same executor with every call on it reported. -/
def logged (e : Executor σ) (config : LogConfig) : Executor σ where
  query sql params := observed config .query sql params.length (e.query sql params)
  execute sql params := observed config .execute sql params.length (e.execute sql params)
  batch sql := observed config .batch sql 0 (e.batch sql)
  batchTransaction sql := observed config .transaction sql 0 (e.batchTransaction sql)

end Executor

end PgToolkit
