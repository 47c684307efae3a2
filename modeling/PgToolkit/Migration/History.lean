import PgToolkit.Record.Basic
import PgToolkit.Schema.Queue

/-!
# Migrations and their history

Migrations are named schema changes in a declared order. Those that were applied have a row each in
the history, which is a prefix of the declared list at all times.
-/

namespace PgToolkit

open Time

/-- A named schema change and its reverse. -/
structure Migration where
  name : String
  up : SchemaQueue → Except Error SchemaQueue
  down : SchemaQueue → Except Error SchemaQueue

/-- A row of the history. -/
structure AppliedMigration where
  id : Int64
  name : String
  /-- Migrations that were applied together have one number. -/
  batch : Int64
  appliedAt? : Option Instant
  deriving DecidableEq, Repr

def AppliedMigration.ofRecord (r : Record) : Except Error AppliedMigration := do
  return {
    id := ← r.getAs "id" .int64
    name := ← r.getAs "name" .text
    batch := ← r.getAs "batch" .int64
    appliedAt? := ← r.getAs "applied_at" (.optional .timestamp)
  }

/-- A history, and what is left to do. -/
structure MigrationStatus where
  /-- The rows of the history, oldest first. -/
  applied : List AppliedMigration
  /-- The names that are not applied yet, in the declared order. -/
  pending : List String
  deriving DecidableEq, Repr

namespace MigrationStatus

/-- The greatest number of a batch; zero for the empty history. -/
def lastBatch (status : MigrationStatus) : Int64 :=
  match status.applied.map AppliedMigration.batch with
  | [] => 0
  | batch :: rest => rest.foldl max batch

/-- Whether nothing is left to do. -/
def isUpToDate (status : MigrationStatus) : Bool := status.pending.isEmpty

end MigrationStatus

/-- Declared migrations, and where their history is kept. -/
structure Migrator where
  /-- The migrations in their declared order. -/
  migrations : List Migration
  table : String := "pgfluent_migrations"
  /-- How long a migration waits for locks, in microseconds. -/
  lockTimeout? : Option Nat := none

/-- The first name in a list that stands further in front already. -/
def firstRepeated? (seen : List String) : List String → Option String
  | [] => none
  | name :: rest => if seen.contains name then some name else firstRepeated? (name :: seen) rest

/-- Compares the names of a history with the declared ones, counting positions from `position`. -/
def compareNames (position : Nat) : List String → List String → Except MigrationFault Unit
  | [], _ => .ok ()
  | applied :: _, [] => .error (.undeclared applied)
  | applied :: history, declared :: names =>
    if applied = declared then compareNames (position + 1) history names
    else .error (.diverges position applied declared)

namespace Migrator

/-- The declared names, in order. -/
def names (m : Migrator) : List String := m.migrations.map (·.name)

def add (m : Migrator) (migration : Migration) : Migrator :=
  { m with migrations := m.migrations ++ [migration] }

def find (m : Migrator) (name : String) : Except Error Migration :=
  match m.migrations.find? (·.name = name) with
  | some migration => .ok migration
  | none => .error (.migration (.notFound name))

/-- Checks that the declared names are distinct and that a history is a prefix of them. -/
def validate (m : Migrator) (history : List AppliedMigration) : Except Error Unit :=
  match firstRepeated? [] m.names with
  | some name => .error (.migration (.declaredTwice name))
  | none => (compareNames 1 (history.map (·.name)) m.names).mapError .migration

def statusOf (m : Migrator) (history : List AppliedMigration) : Except Error MigrationStatus := do
  m.validate history
  return ⟨history, m.names.drop history.length⟩

end Migrator

end PgToolkit
