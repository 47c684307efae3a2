import PgToolkit.Error

/-!
# Events

What a session reports while it runs: the statements it sends, when they are logged, the outcome of
schema changes, and the progress of migrations.
-/

namespace PgToolkit

/-- How urgent an event is. -/
inductive Level where
  | error | warn | info | debug | trace
  deriving DecidableEq, Repr

/-- All levels, the most urgent one first. -/
def Level.all : List Level := [.error, .warn, .info, .debug, .trace]

def Level.name : Level → String
  | .error => "ERROR"
  | .warn => "WARN"
  | .info => "INFO"
  | .debug => "DEBUG"
  | .trace => "TRACE"

/-- The ways in which statements reach a server. -/
inductive CallKind where
  | query | execute | batch | transaction
  deriving DecidableEq, Repr

/-- The name of a kind of call. -/
def CallKind.name : CallKind → String
  | .query => "query"
  | .execute => "execute"
  | .batch => "batch"
  | .transaction => "transaction"

/-- Something that a session reports. -/
inductive Event where
  /-- A call succeeded; the SQL may be shortened. -/
  | statement (level : Level) (kind : CallKind) (parameters : Nat) (sql : String)
  | statementFailed (kind : CallKind) (parameters : Nat) (sql : String) (error : Error)
  | schemaApplied (statements : Nat)
  | schemaRolledBack (statements : Nat) (error : Error)
  | upToDate
  | nothingToRollBack
  | migrationApplied (name : String) (batch : Int64)
  | migrationReverted (name : String) (batch : Int64)
  deriving DecidableEq, Repr

/-- The content of a field of an event. -/
inductive Detail where
  | number (n : Int)
  | text (s : String)
  deriving DecidableEq, Repr

namespace Event

/-- The part of the program that an event comes from. -/
def target : Event → String
  | .statement .. | .statementFailed .. => "pgfluent.sql"
  | .schemaApplied _ | .schemaRolledBack .. => "pgfluent.schema"
  | .upToDate | .nothingToRollBack | .migrationApplied .. | .migrationReverted .. =>
    "pgfluent.migrate"

/-- How urgent an event is. Failures are warnings. -/
def level : Event → Level
  | .statement level .. => level
  | .statementFailed .. | .schemaRolledBack .. => .warn
  | _ => .info

/-- The message of an event; a statement that succeeded has none. -/
def message? : Event → Option String
  | .statement .. => none
  | .statementFailed .. => some "statement failed"
  | .schemaApplied _ => some "applied schema changes"
  | .schemaRolledBack .. => some "schema changes rolled back"
  | .upToDate => some "already up to date"
  | .nothingToRollBack => some "nothing to roll back"
  | .migrationApplied .. => some "applied"
  | .migrationReverted .. => some "rolled back"

/-- What a call on an executor is reported with. -/
def callFields (kind : CallKind) (parameters : Nat) (sql : String) : List (String × Detail) :=
  [("kind", .text kind.name), ("param_count", .number parameters), ("sql", .text sql)]

/-- The details of an event. -/
def details : Event → List (String × Detail)
  | .statement _ kind parameters sql => callFields kind parameters sql
  | .statementFailed kind parameters sql error =>
    callFields kind parameters sql ++ [("error", .text error.message)]
  | .schemaApplied statements => [("statements", .number statements)]
  | .schemaRolledBack statements error =>
    [("statements", .number statements), ("error", .text error.message)]
  | .upToDate | .nothingToRollBack => []
  | .migrationApplied name batch | .migrationReverted name batch =>
    [("migration", .text name), ("batch", .number batch.toInt)]

/-- The fields of an event: its details and its message. -/
def fields (e : Event) : List (String × Detail) :=
  e.details ++ (e.message?.map fun message => ("message", Detail.text message)).toList

end Event

end PgToolkit
