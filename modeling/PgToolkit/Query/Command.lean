import PgToolkit.Query.Modify
import PgToolkit.Query.Select

/-!
# Commands

The eight statements that a query is compiled to, as data.
-/

namespace PgToolkit

/-- A statement that a query is compiled to. -/
inductive Command where
  | select
  /-- The first row only. -/
  | first
  /-- The number of rows. -/
  | count
  /-- One column of the rows. -/
  | pluck (column : Identifier)
  | insert (rows : List Record) (returning : List String)
  | upsert (rows : List Record) (options : Upsert)
  | update (values : Record) (returning : List String)
  | delete (returning : List String)
  deriving Repr

namespace Query

def compile (q : Query) : Command → Except Error Compiled
  | .select => q.toSql
  | .first => q.firstSql
  | .count => q.countSql
  | .pluck column => q.pluckSql column
  | .insert rows returning => q.insertSql rows returning
  | .upsert rows options => q.upsertSql rows options
  | .update values returning => q.updateSql values returning
  | .delete returning => q.deleteSql returning

/-- The pieces of the statement of a command. -/
def pieces (q : Query) : Command → Except Error (List Piece)
  | .select => q.selectPieces q.columns q.limit?
  | .first => q.selectPieces q.columns (some 1)
  | .count => q.countPieces
  | .pluck column => q.selectPieces [.column column] q.limit?
  | .insert rows returning => q.insertPieces rows returning
  | .upsert rows options => q.upsertPieces rows options
  | .update values returning => q.updatePieces values returning
  | .delete returning => q.deletePieces returning

/-- A statement is what its pieces make up. -/
theorem compile_eq_ofPieces (q : Query) (command : Command) :
    q.compile command = Compiled.ofPieces <$> q.pieces command := by
  cases command <;> rfl

end Query

end PgToolkit
