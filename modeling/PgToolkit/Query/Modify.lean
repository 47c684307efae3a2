import PgToolkit.Query.Basic
import PgToolkit.Record.Basic

/-!
# Statements that change rows

INSERT takes its columns from the first row; later rows may lack columns, which become NULL, but
may not have others. An UPSERT is an INSERT that overwrites on conflict. UPDATE and DELETE are
refused without a condition.
-/

namespace PgToolkit

open Sql

/-- What happens when an inserted row conflicts with another one. -/
structure Upsert where
  /-- The columns that must be unique together. -/
  conflict : List String := []
  /-- The columns to overwrite; without a list, all inserted ones outside the conflict. -/
  update? : Option (List String) := none
  returning : List String := []
  deriving DecidableEq, Repr

/-- The inserted columns that a conflict overwrites, in the order of insertion. -/
def Upsert.overwritten (u : Upsert) (columns : List String) : List String :=
  columns.filter fun column =>
    !u.conflict.contains column &&
      match u.update? with
      | none => true
      | some only => only.contains column

namespace Query

/-- The values of a row in the order of the columns, in parentheses. A row must not have a column
beyond them. -/
def rowPieces (columns : List String) (index : Nat) (row : Record) : Except Error (List Piece) :=
  match row.columns.find? (fun column => !columns.contains column) with
  | some extra => .error (.invalidArgument (.extraColumn index extra))
  | none =>
    let cells := columns.map fun column => [Piece.ofValue ((row.get? column).getD .null)]
    .ok (.text "(" :: (Piece.separated ", " cells ++ [.text ")"]))

/-- The rows from a given index on. -/
def rowsPieces (columns : List String) (index : Nat) :
    List Record → Except Error (List (List Piece))
  | [] => .ok []
  | row :: rest => do
    let pieces ← rowPieces columns index row
    return pieces :: (← rowsPieces columns (index + 1) rest)

/-- INSERT of rows, without its returned columns. -/
def rowInsertion (q : Query) : List Record → Except Error (List Piece)
  | [] => .error (.invalidArgument .noRows)
  | first :: rest => do
    let table ← Piece.ofIdentifier q.table
    if first.isEmpty then
      if rest.isEmpty then return [.text "INSERT INTO ", table, .text " DEFAULT VALUES"]
      else throw (.invalidArgument .severalEmptyRows)
    else
      let columns ← quoteIdentifiers first.columns
      let rows ← rowsPieces first.columns 0 (first :: rest)
      return .text "INSERT INTO " :: table :: .text " (" :: .text columns :: .text ") VALUES " ::
        Piece.separated ", " rows

def insertPieces (q : Query) (rows : List Record) (returning : List String) :
    Except Error (List Piece) := do
  let insert ← q.rowInsertion rows
  return insert ++ (← Piece.returning returning)

def insertSql (q : Query) (rows : List Record) (returning : List String) : Except Error Compiled :=
  Compiled.ofPieces <$> q.insertPieces rows returning

/-- The assignment of an inserted value to its column. -/
def overwrite (column : String) : Except Error String := do
  let name ← quoteIdentifier column
  return name ++ " = EXCLUDED." ++ name

def conflictPieces (u : Upsert) (columns : List String) : Except Error (List Piece) := do
  let target ← quoteIdentifiers u.conflict
  let assignments ← (u.overwritten columns).mapM overwrite
  let action :=
    if assignments.isEmpty then " DO NOTHING"
    else " DO UPDATE SET " ++ ", ".intercalate assignments
  return [.text " ON CONFLICT (", .text target, .text ")", .text action]

/-- INSERT of rows that overwrites on conflict, as pieces. When there is nothing to overwrite,
conflicting rows are left alone. -/
def upsertPieces (q : Query) (rows : List Record) (u : Upsert) : Except Error (List Piece) :=
  if u.conflict.isEmpty then .error (.invalidArgument .noConflictTarget)
  else do
    let insert ← q.rowInsertion rows
    let conflict ← conflictPieces u ((rows.head?.map Record.columns).getD [])
    return insert ++ conflict ++ (← Piece.returning u.returning)

/-- INSERT of rows that overwrites on conflict. -/
def upsertSql (q : Query) (rows : List Record) (u : Upsert) : Except Error Compiled :=
  Compiled.ofPieces <$> q.upsertPieces rows u

/-- The assignment of a value to a column. -/
def assignment (column : String) (value : Value) : Except Error (List Piece) := do
  return [.text (← quoteIdentifier column), .text " = ", Piece.ofValue value]

/-- UPDATE of the rows that fulfil the conditions, as pieces; lists are bound as whole arrays. -/
def updatePieces (q : Query) (values : Record) (returning : List String) :
    Except Error (List Piece) :=
  if q.conditions.isEmpty then .error (.missingCondition .update)
  else if values.isEmpty then .error (.invalidArgument .noUpdate)
  else do
    let table ← Piece.ofIdentifier q.table
    let assignments ← values.entries.mapM fun (column, value) => assignment column value
    let conditions ← Condition.whereClause .whole q.conditions
    let returned ← Piece.returning returning
    return .text "UPDATE " :: table :: .text " SET " ::
      (Piece.separated ", " assignments ++ conditions ++ returned)

/-- UPDATE of the rows that fulfil the conditions. -/
def updateSql (q : Query) (values : Record) (returning : List String) : Except Error Compiled :=
  Compiled.ofPieces <$> q.updatePieces values returning

/-- DELETE of the rows that fulfil the conditions, as pieces. -/
def deletePieces (q : Query) (returning : List String) : Except Error (List Piece) :=
  if q.conditions.isEmpty then .error (.missingCondition .delete)
  else do
    let table ← Piece.ofIdentifier q.table
    let conditions ← Condition.whereClause .items q.conditions
    let returned ← Piece.returning returning
    return .text "DELETE FROM " :: table :: (conditions ++ returned)

/-- DELETE of the rows that fulfil the conditions. -/
def deleteSql (q : Query) (returning : List String) : Except Error Compiled :=
  Compiled.ofPieces <$> q.deletePieces returning

end Query

end PgToolkit
