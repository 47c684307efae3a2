import PgToolkit.Query.Clause
import PgToolkit.Query.Condition

/-!
# Queries

A query is built on one table: columns, conditions, joins, orderings and paging. It is compiled to
any of eight statements.
-/

namespace PgToolkit

/-- A query under construction. -/
structure Query where
  table : Identifier
  columns : List SelectColumn := []
  conditions : List Condition := []
  joins : List Join := []
  orders : List OrderItem := []
  limit? : Option Int64 := none
  offset? : Option Int64 := none
  deriving Repr

namespace Query

def on (table : Identifier) : Query := { table }

/-- Selects columns instead of those selected before; an empty list changes nothing. -/
def select (q : Query) (columns : List SelectColumn) : Query :=
  if columns.isEmpty then q else { q with columns }

/-- Selects fields of a document column in addition. -/
def selectJson (q : Query) (projection : Projection) : Query :=
  { q with columns := q.columns ++ [.json projection] }

def whereCondition (q : Query) (condition : Condition) : Query :=
  { q with conditions := q.conditions ++ [condition] }

/-- Adds a condition on a column whose value must fit the operator. -/
def whereOp (q : Query) (conjunction : Conjunction) (column : Identifier) (op : Operator)
    (value : Option Value) : Except Error Query := do
  return q.whereCondition (← Condition.onColumn column op value conjunction)

/-- Reads an operator, or refuses its token. -/
def readOperator (token : String) : Except Error Operator :=
  match Operator.ofToken? token with
  | some op => .ok op
  | none => .error (.invalidOperator token)

/-- Reads a direction, or refuses its token. -/
def readDirection (token : String) : Except Error Direction :=
  match Direction.ofToken? token with
  | some direction => .ok direction
  | none => .error (.invalidDirection token)

/-- Adds a condition on a column with the token of its operator. -/
def whereToken (q : Query) (conjunction : Conjunction) (column : Identifier) (token : String)
    (value : Option Value) : Except Error Query := do
  q.whereOp conjunction column (← readOperator token) value

/-- Adds the condition that a column is NULL. -/
def whereNull (q : Query) (conjunction : Conjunction) (column : Identifier) : Query :=
  q.whereCondition (.column column .isNull none conjunction)

/-- Adds the condition that a column is not NULL. -/
def whereNotNull (q : Query) (conjunction : Conjunction) (column : Identifier) : Query :=
  q.whereCondition (.column column .isNotNull none conjunction)

def whereRaw (q : Query) (conjunction : Conjunction) (sql : String) (params : List Value) :
    Query :=
  q.whereCondition (.raw sql params conjunction)

/-- Joins a table where two columns are equal. -/
def joinOn (q : Query) (kind : JoinKind) (table left right : Identifier) : Query :=
  { q with joins := q.joins ++ [⟨kind, table, left, .eq, right⟩] }

/-- Joins a table where two columns compare, with the token of the comparison. -/
def joinToken (q : Query) (kind : JoinKind) (table left : Identifier) (token : String)
    (right : Identifier) : Except Error Query := do
  let op ← readOperator token
  return { q with joins := q.joins ++ [← Join.onComparison kind table left op right] }

/-- Adds an item to the ordering. -/
def orderByItem (q : Query) (item : OrderItem) : Query :=
  { q with orders := q.orders ++ [item] }

/-- Orders by a column, with the token of the direction. -/
def orderBy (q : Query) (column : Identifier) (token : String) : Except Error Query := do
  return q.orderByItem (.column column (← readDirection token))

/-- Sets or removes the largest number of rows. -/
def withLimit (q : Query) (limit : Option Int64) : Query := { q with limit? := limit }

/-- Sets or removes the number of rows that are skipped. -/
def withOffset (q : Query) (offset : Option Int64) : Query := { q with offset? := offset }

def sameList {α : Type} (same : α → α → Bool) : List α → List α → Bool
  | [], [] => true
  | x :: xs, y :: ys => same x y && sameList same xs ys
  | _, _ => false

def same (q r : Query) : Bool :=
  q.table == r.table && q.columns == r.columns &&
    sameList Condition.same q.conditions r.conditions && q.joins == r.joins &&
    sameList OrderItem.same q.orders r.orders && q.limit? == r.limit? && q.offset? == r.offset?

end Query

end PgToolkit
