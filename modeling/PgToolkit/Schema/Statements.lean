import PgToolkit.Schema.Table

/-!
# Statements of tables

A draft is compiled to statements: one CREATE TABLE, or one ALTER TABLE for each new column and each
change; then its indexes, and last the statements in SQL.
-/

namespace PgToolkit

open Sql

namespace TableDraft

/-- The name that the server gives to a constraint of a column. -/
def constraintName (d : TableDraft) (column suffix : String) : String :=
  lastSegment d.name ++ "_" ++ column ++ "_" ++ suffix

/-- The name that the server gives to the primary key. -/
def primaryKeyName (d : TableDraft) : String :=
  lastSegment d.name ++ "_pkey"

/-- The statement that changes a type, together with its collation. -/
def typeStatement (alter column : String) (type : ColumnType) (collation? : Option String) :
    Except Error String := do
  let collation ← Column.collationClause collation?
  return alter ++ " TYPE " ++ type.sql ++ collation ++ " USING " ++ column ++ "::" ++ type.castSql

/-- The statement that sets or drops a default. It is cast only when the type changes as well. -/
def defaultStatement (alter : String) (type? : Option ColumnType) :
    Option Value → Except Error String
  | none => .ok (alter ++ " DROP DEFAULT")
  | some value => do
    let default ← match type? with
      | some type => defaultSql value type
      | none => value.literal
    return alter ++ " SET DEFAULT " ++ default

/-- The statement for an optional part of a change. -/
def statementFor {α : Type} (part : Option α) (statement : α → Except Error String) :
    Except Error (List String) :=
  match part with
  | none => .ok []
  | some a => do return [← statement a]

/-- The statements of the changes of one column, one for every part. -/
def alterStatements (d : TableDraft) (table name : String) (changes : ColumnChanges) :
    Except Error (List String) := do
  let column ← quoteIdentifier name
  let alterTable := "ALTER TABLE " ++ table
  let alter := alterTable ++ " ALTER COLUMN " ++ column
  let dropConstraint (constraint : String) := alterTable ++ " DROP CONSTRAINT " ++ constraint
  let addConstraint (constraint : String) := alterTable ++ " ADD CONSTRAINT " ++ constraint
  let type ← statementFor changes.type? fun type =>
    typeStatement alter column type changes.collation?
  let nullable ← statementFor changes.nullable? fun nullable =>
    .ok (alter ++ if nullable then " DROP NOT NULL" else " SET NOT NULL")
  let default ← statementFor changes.default? (defaultStatement alter changes.type?)
  let primary ← statementFor changes.primary? fun primary =>
    if primary then .ok (alterTable ++ " ADD PRIMARY KEY (" ++ column ++ ")")
    else do return dropConstraint (← quoteIdentifier d.primaryKeyName)
  let unique ← statementFor changes.unique? fun unique => do
    let constraint ← quoteIdentifier (d.constraintName name "key")
    return if unique then addConstraint constraint ++ " UNIQUE (" ++ column ++ ")"
      else dropConstraint constraint
  let check ← statementFor changes.check? fun check => do
    let constraint ← quoteIdentifier (d.constraintName name "check")
    return match check with
      | some condition => addConstraint constraint ++ " CHECK (" ++ condition ++ ")"
      | none => dropConstraint constraint
  let references ← statementFor changes.references? fun references => do
    let constraint ← quoteIdentifier (d.constraintName name "fkey")
    match references with
    | some fk =>
      return addConstraint constraint ++ " FOREIGN KEY (" ++ column ++ ") " ++ (← fk.toSql)
    | none => return dropConstraint constraint
  return type ++ nullable ++ default ++ primary ++ unique ++ check ++ references

/-- The name of an index in the schema of its table. -/
def qualifiedIndex (d : TableDraft) (name : String) : Except Error String := do
  match qualifier? d.name with
  | some schema =>
    let schema ← quoteIdentifier schema
    return schema ++ "." ++ (← quoteIdentifier name)
  | none => quoteIdentifier name

/-- The statements of an operation on an existing table. -/
def operationStatements (d : TableDraft) (table : String) :
    AlterOperation → Except Error (List String)
  | .renameColumn source target => do
    let source ← quoteIdentifier source
    return ["ALTER TABLE " ++ table ++ " RENAME COLUMN " ++ source ++ " TO " ++
      (← quoteIdentifier target)]
  | .dropColumn name => do
    return ["ALTER TABLE " ++ table ++ " DROP COLUMN " ++ (← quoteIdentifier name)]
  | .alterColumn name changes => d.alterStatements table name changes
  | .dropIndex name => do return ["DROP INDEX " ++ (← d.qualifiedIndex name)]

def indexStatement (d : TableDraft) (table name : String) (index : Index) :
    Except Error String := do
  let name ← quoteIdentifier name
  let columns ← quoteIdentifiers index.columns
  let method := match index.method? with
    | some method => " USING " ++ method.sql
    | none => ""
  return "CREATE " ++ (if index.unique then "UNIQUE " else "") ++ "INDEX " ++
    (if d.mode = .createIfNotExists then "IF NOT EXISTS " else "") ++ name ++ " ON " ++ table ++
    method ++ " (" ++ columns ++ ")"

def createStatement (d : TableDraft) (table : String) : Except Error String := do
  let definitions ← d.columns.mapM fun (name, column) => column.toSql name
  let head := if d.mode = .createIfNotExists then "CREATE TABLE IF NOT EXISTS " else "CREATE TABLE "
  return head ++ table ++ " (" ++ ", ".intercalate definitions ++ ")"

/-- The statements that change the table itself. -/
def tableStatements (d : TableDraft) (table : String) : Except Error (List String) := do
  if d.mode.isCreate then return [← d.createStatement table]
  else
    let added ← d.columns.mapM fun (name, column) => do
      return "ALTER TABLE " ++ table ++ " ADD COLUMN " ++ (← column.toSql name)
    let changed ← d.operations.mapM (d.operationStatements table)
    return added ++ changed.flatten

def toSql (d : TableDraft) : Except Error (List String) := do
  let table ← quoteIdentifier d.name
  let statements ← d.tableStatements table
  let indexes ← d.indexes.mapM fun (name, index) => d.indexStatement table name index
  return statements ++ indexes ++ d.raw

end TableDraft

end PgToolkit
