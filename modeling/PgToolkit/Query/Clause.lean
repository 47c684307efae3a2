import PgToolkit.Sql.Statement

/-!
# Clauses

The parts of a query beside its conditions: selected columns, joins and orderings.
-/

namespace PgToolkit

open Sql

/-- Fields of a document column that are selected as one object. -/
structure Projection where
  column : String
  /-- The fields; a dotted field is a path. -/
  fields : List String
  /-- The name of the object; without one it is named after the column. -/
  alias? : Option String := none
  deriving DecidableEq, Repr

namespace Projection

/-- The path of a dotted field, as the text of an array. -/
def pathText (field : String) : String :=
  "\x7b" ++ ",".intercalate (segments field) ++ "\x7d"

/-- How a field is read from its column. -/
def access (column field : String) : String :=
  if field.toList.contains '.' then column ++ "#>" ++ literal (pathText field)
  else column ++ "->" ++ literal field

/-- The key of a field and how it is read. -/
def pair (column field : String) : String :=
  literal field ++ ", " ++ access column field

/-- A projection as SQL. It needs at least one field. -/
def toSql (p : Projection) : Except Error String :=
  if p.fields.isEmpty then .error (.invalidArgument (.emptyProjection p.column))
  else do
    let column ← quoteIdentifier p.column
    let pairs := p.fields.map (pair column)
    let name ← quoteIdentifier (p.alias?.getD (lastSegment p.column))
    return "jsonb_build_object(" ++ ", ".intercalate pairs ++ ") AS " ++ name

end Projection

/-- A selected column. -/
inductive SelectColumn where
  | column (column : Identifier)
  | json (projection : Projection)
  deriving DecidableEq, Repr

def SelectColumn.piece : SelectColumn → Except Error Piece
  | .column name => Piece.ofIdentifier name
  | .json projection => .text <$> projection.toSql

/-- Whether rows without a partner are kept. -/
inductive JoinKind where
  | inner | left
  deriving DecidableEq, Repr

def JoinKind.sql : JoinKind → String
  | .inner => "INNER JOIN"
  | .left => "LEFT JOIN"

/-- A table that is joined where two columns compare. -/
structure Join where
  kind : JoinKind
  table : Identifier
  left : Identifier
  op : Operator
  right : Identifier
  deriving DecidableEq, Repr

namespace Join

/-- A join by a comparison; other operators are refused. -/
def onComparison (kind : JoinKind) (table left : Identifier) (op : Operator)
    (right : Identifier) : Except Error Join :=
  if op.isComparison then .ok ⟨kind, table, left, op, right⟩
  else .error (.invalidOperator op.sql)

def pieces (j : Join) : Except Error (List Piece) := do
  return [.text " ", .text j.kind.sql, .text " ", ← Piece.ofIdentifier j.table, .text " ON ",
    ← Piece.ofIdentifier j.left, .text " ", .text j.op.sql, .text " ",
    ← Piece.ofIdentifier j.right]

/-- All joins of a query as pieces. -/
def clause (joins : List Join) : Except Error (List Piece) := do
  return (← joins.mapM pieces).flatten

end Join

/-- An item of the ordering. -/
inductive OrderItem where
  | column (column : Identifier) (direction : Direction)
  | raw (sql : String) (params : List Value)
  deriving Repr

namespace OrderItem

/-- An item of the ordering as pieces. -/
def pieces : OrderItem → Except Error (List Piece)
  | .column name direction => do
    return [← Piece.ofIdentifier name, .text " ", .text direction.sql]
  | .raw sql params => do return [← Piece.ofFragment sql params]

/-- The ORDER BY clause. -/
def clause (orders : List OrderItem) : Except Error (List Piece) :=
  if orders.isEmpty then .ok []
  else do return .text " ORDER BY " :: Piece.separated ", " (← orders.mapM pieces)

theorem clause_cons (item : OrderItem) (orders : List OrderItem) :
    clause (item :: orders) =
      do return .text " ORDER BY " :: Piece.separated ", " (← (item :: orders).mapM pieces) :=
  rfl

def same : OrderItem → OrderItem → Bool
  | .column c d, .column c' d' => c == c' && d == d'
  | .raw s ps, .raw t qs => s == t && Value.sameItems ps qs
  | _, _ => false

end OrderItem

end PgToolkit
