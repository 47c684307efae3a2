import PgToolkit.OrderedMap
import PgToolkit.Schema.Column

/-!
# Tables under construction

A draft collects the columns, indexes and changes of one table. A draft of a new table edits its
own columns; a draft of an existing table queues operations. The first error of a draft is kept,
and later steps go on.
-/

namespace PgToolkit

/-- Whether a table is created or altered. -/
inductive TableMode where
  | create | createIfNotExists | alter
  deriving DecidableEq, Repr

def TableMode.isCreate (mode : TableMode) : Bool := mode ≠ .alter

/-- The access method of an index. -/
inductive IndexMethod where
  | btree | hash | gist | gin | spgist | brin
  deriving DecidableEq, Repr

def IndexMethod.sql : IndexMethod → String
  | .btree => "btree"
  | .hash => "hash"
  | .gist => "gist"
  | .gin => "gin"
  | .spgist => "spgist"
  | .brin => "brin"

def IndexMethod.all : List IndexMethod := [.btree, .hash, .gist, .gin, .spgist, .brin]

/-- An index over columns of a table. -/
structure Index where
  columns : List String
  unique : Bool
  method? : Option IndexMethod
  deriving DecidableEq, Repr

/-- An operation on an existing table. -/
inductive AlterOperation where
  | renameColumn (source target : String)
  | dropColumn (name : String)
  | alterColumn (name : String) (changes : ColumnChanges)
  | dropIndex (name : String)
  deriving Repr

/-- A table under construction. -/
structure TableDraft where
  name : String
  mode : TableMode
  /-- New columns, in the order of their declaration. -/
  columns : List (String × Column) := []
  /-- Operations on the existing table, in the order of their issue. -/
  operations : List AlterOperation := []
  indexes : List (String × Index) := []
  /-- Statements in SQL that follow those of the table. -/
  raw : List String := []
  /-- The first error. -/
  error? : Option Error := none
  deriving Repr

namespace TableDraft

/-- A draft in which nothing is defined yet. -/
def empty (name : String) (mode : TableMode) : TableDraft := { name, mode }

/-- Keeps an error unless there is one already. -/
def fail (d : TableDraft) (error : Error) : TableDraft :=
  { d with error? := d.error?.or (some error) }

/-- Fails because a column is not defined here. -/
def failUnknown (d : TableDraft) (column : String) : TableDraft :=
  d.fail (.schemaMismatch d.name column)

/-- Declares a column. A column of the same name is replaced in place. -/
def column (d : TableDraft) (name : String) (definition : Column) : TableDraft :=
  { d with columns := OrderedMap.insert name definition d.columns }

/-- The columns with the times of creation and of the last change. -/
def timestamps (d : TableDraft) : TableDraft :=
  let stamp : Column := { type := .timestamptz, default? := some Value.now }
  (d.column "created_at" stamp).column "updated_at" stamp

/-- Renames a new column, or queues the renaming of an existing one. -/
def renameColumn (d : TableDraft) (source target : String) : TableDraft :=
  if d.mode.isCreate then
    if OrderedMap.contains source d.columns then
      if source ≠ target ∧ OrderedMap.contains target d.columns then
        d.fail (.invalidArgument (.columnExists target d.name))
      else { d with columns := OrderedMap.rename source target d.columns }
    else d.failUnknown source
  else { d with operations := d.operations ++ [.renameColumn source target] }

/-- Removes a new column, or queues the removal of an existing one. -/
def dropColumn (d : TableDraft) (name : String) : TableDraft :=
  if d.mode.isCreate then
    if OrderedMap.contains name d.columns then
      { d with columns := OrderedMap.erase name d.columns }
    else d.failUnknown name
  else { d with operations := d.operations ++ [.dropColumn name] }

/-- Changes a new column, or queues changes of an existing one. The collation of an existing column
changes only together with its type. -/
def alterColumn (d : TableDraft) (name : String) (changes : ColumnChanges) : TableDraft :=
  if d.mode.isCreate then
    if OrderedMap.contains name d.columns then
      { d with columns := OrderedMap.modify name changes.applyTo d.columns }
    else d.failUnknown name
  else if changes.collation?.isSome ∧ changes.type?.isNone then
    d.fail (.invalidArgument (.collationWithoutType name))
  else if changes.isEmpty then d
  else { d with operations := d.operations ++ [.alterColumn name changes] }

/-- The name of the index over the given columns: those of the table and of the columns, with
underscores between them and for every dot. -/
def indexName (d : TableDraft) (columns : List String) : String :=
  ("_".intercalate ("idx" :: d.name :: columns)).map fun c => if c = '.' then '_' else c

/-- Declares an index. An index of the same name is replaced in place. -/
def index (d : TableDraft) (definition : Index) : TableDraft :=
  if definition.columns.isEmpty then d.fail (.invalidArgument (.emptyIndex d.name))
  else
    { d with indexes := OrderedMap.insert (d.indexName definition.columns) definition d.indexes }

/-- Forgets a new index, or queues the removal of an existing one. -/
def dropIndex (d : TableDraft) (columns : List String) : TableDraft :=
  let name := d.indexName columns
  if OrderedMap.contains name d.indexes then
    { d with indexes := OrderedMap.erase name d.indexes }
  else if d.mode.isCreate then d
  else { d with operations := d.operations ++ [.dropIndex name] }

def rawStatement (d : TableDraft) (sql : String) : TableDraft :=
  { d with raw := d.raw ++ [sql] }

/-- The draft, or its first error. -/
def finish (d : TableDraft) : Except Error TableDraft :=
  match d.error? with
  | some error => .error error
  | none => .ok d

end TableDraft

end PgToolkit
