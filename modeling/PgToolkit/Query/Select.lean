import PgToolkit.Query.Basic

/-!
# Statements that read rows

The SELECT of a query and its three variants: the first row, the number of rows, and one column.
-/

namespace PgToolkit

namespace Query

/-- The table, its joins and the conditions. -/
def source (q : Query) : Except Error (List Piece) := do
  let table ← Piece.ofIdentifier q.table
  let joins ← Join.clause q.joins
  let conditions ← Condition.whereClause .items q.conditions
  return .text " FROM " :: table :: (joins ++ conditions)

/-- A number of rows behind its keyword. -/
def paging (keyword : String) : Option Int64 → List Piece
  | none => []
  | some n => [.text keyword, .bind (.int n)]

/-- The list of the selected columns; without columns it is the star. -/
def columnList (columns : List SelectColumn) : Except Error (List Piece) :=
  if columns.isEmpty then .ok [.text "*"]
  else do
    return Piece.separated ", " ((← columns.mapM SelectColumn.piece).map fun piece => [piece])

theorem columnList_cons (column : SelectColumn) (columns : List SelectColumn) :
    columnList (column :: columns) = do
      let pieces ← (column :: columns).mapM SelectColumn.piece
      return Piece.separated ", " (pieces.map fun piece => [piece]) :=
  rfl

/-- The SELECT of the given columns and of at most `limit` rows. -/
def selectPieces (q : Query) (columns : List SelectColumn) (limit : Option Int64) :
    Except Error (List Piece) := do
  let list ← columnList columns
  let source ← q.source
  let order ← OrderItem.clause q.orders
  return .text "SELECT " ::
    (list ++ source ++ order ++ paging " LIMIT " limit ++ paging " OFFSET " q.offset?)

def toSql (q : Query) : Except Error Compiled :=
  Compiled.ofPieces <$> q.selectPieces q.columns q.limit?

/-- The same SELECT limited to one row. -/
def firstSql (q : Query) : Except Error Compiled :=
  Compiled.ofPieces <$> q.selectPieces q.columns (some 1)

/-- The number of rows, as pieces; ordering and paging have no part in it. -/
def countPieces (q : Query) : Except Error (List Piece) := do
  return .text "SELECT COUNT(*)" :: (← q.source)

def countSql (q : Query) : Except Error Compiled :=
  Compiled.ofPieces <$> q.countPieces

def pluckSql (q : Query) (column : Identifier) : Except Error Compiled :=
  Compiled.ofPieces <$> q.selectPieces [.column column] q.limit?

end Query

end PgToolkit
