import PgToolkit.Schema.Table

/-!
# Editing a table

The steps by which a table under construction is edited. A column is declared with the definition
that a helper starts from, and then changed in place through its handle.
-/

namespace PgToolkit

/-- A call on the handle of a column that was just declared. -/
inductive ColumnCall where
  | nullable
  | notNullable
  | defaultTo (value : Value)
  | primary
  | unique
  | check (sql : String)
  | references (table column : String)
  | onDelete (action : ReferentialAction)
  | onUpdate (action : ReferentialAction)
  | collate (collation : String)
  deriving Repr

/-- The definition of a column after a call on its handle. -/
def ColumnCall.apply (c : Column) : ColumnCall → Column
  | .nullable => { c with nullable := true }
  | .notNullable => { c with nullable := false }
  | .defaultTo value => { c with default? := some value }
  | .primary => { c with primary := true }
  | .unique => { c with unique := true }
  | .check sql => { c with check? := some sql }
  | .references table column => { c with references? := some { table, column } }
  | .onDelete action => c.onDelete action
  | .onUpdate action => c.onUpdate action
  | .collate collation => { c with collation? := some collation }

/-- A step that edits the columns of a table. -/
inductive ColumnStep where
  /-- A declaration by a helper, with the calls on the handle that it gives. -/
  | declare (name : String) (start : Column) (calls : List ColumnCall)
  | timestamps
  | rename (source target : String)
  | drop (name : String)
  | alter (name : String) (changes : ColumnChanges)
  deriving Repr

/-- A step on a table under construction. -/
inductive TableStep where
  | column (step : ColumnStep)
  | index (definition : Index)
  | dropIndex (columns : List String)
  | raw (sql : String)
  deriving Repr

namespace TableDraft

/-- Changes the definition of a column in place. -/
def touch (d : TableDraft) (name : String) (call : ColumnCall) : TableDraft :=
  { d with columns := OrderedMap.modify name call.apply d.columns }

/-- Declares a column and changes it through its handle. -/
def declare (d : TableDraft) (name : String) (start : Column) (calls : List ColumnCall) :
    TableDraft :=
  calls.foldl (fun d call => d.touch name call) (d.column name start)

def edit (d : TableDraft) : ColumnStep → TableDraft
  | .declare name start calls => d.declare name start calls
  | .timestamps => d.timestamps
  | .rename source target => d.renameColumn source target
  | .drop name => d.dropColumn name
  | .alter name changes => d.alterColumn name changes

def perform (d : TableDraft) : TableStep → TableDraft
  | .column step => d.edit step
  | .index definition => d.index definition
  | .dropIndex columns => d.dropIndex columns
  | .raw sql => d.rawStatement sql

/-- The draft of a table after steps on it. -/
def build (table : String) (mode : TableMode) (steps : List TableStep) : TableDraft :=
  steps.foldl perform (empty table mode)

end TableDraft

end PgToolkit
