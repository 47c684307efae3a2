import PgToolkit.Query.Command

/-!
# SQL of the caller

Beside names and values a query may hold SQL that is written as it is: in the place of a name, in
the place of a value, or as a whole condition or item of the ordering.
-/

namespace PgToolkit

def Identifier.rawTexts : Identifier → List String
  | .name _ => []
  | .raw sql => [sql]

namespace Value

mutual

/-- The raw SQL in a value, at any depth. -/
def rawTexts : Value → List String
  | .raw sql => [sql]
  | .array items => itemRawTexts items
  | _ => []

/-- The raw SQL in the items of an array. -/
def itemRawTexts : List Value → List String
  | [] => []
  | item :: rest => rawTexts item ++ itemRawTexts rest

end

theorem itemRawTexts_eq_flatMap (items : List Value) :
    itemRawTexts items = items.flatMap rawTexts := by
  induction items with
  | nil => rfl
  | cons item rest ih => simp [itemRawTexts, ih]

end Value

/-- The raw SQL in the values of a row. -/
def Record.rawTexts (row : Record) : List String :=
  row.values.flatMap Value.rawTexts

/-- The raw SQL in the place of a selected column. -/
def SelectColumn.rawTexts : SelectColumn → List String
  | .column name => name.rawTexts
  | .json _ => []

/-- The raw SQL in the place of the names of a join. -/
def Join.rawTexts (j : Join) : List String :=
  j.table.rawTexts ++ j.left.rawTexts ++ j.right.rawTexts

namespace Condition

/-- The raw SQL in the place of the column and the value of a condition. -/
def rawTexts : Condition → List String
  | .column name _ value _ => name.rawTexts ++ (value.map Value.rawTexts).getD []
  | .raw _ _ _ => []

def fragments : Condition → List String
  | .column _ _ _ _ => []
  | .raw sql _ _ => [sql]

end Condition

namespace OrderItem

/-- The raw SQL in the place of the column of an item. -/
def rawTexts : OrderItem → List String
  | .column name _ => name.rawTexts
  | .raw _ _ => []

def fragments : OrderItem → List String
  | .column _ _ => []
  | .raw sql _ => [sql]

end OrderItem

namespace Query

/-- The raw SQL in the place of the names and values of a query. -/
def rawTexts (q : Query) : List String :=
  q.table.rawTexts ++ q.columns.flatMap SelectColumn.rawTexts ++
    q.conditions.flatMap Condition.rawTexts ++ q.joins.flatMap Join.rawTexts ++
      q.orders.flatMap OrderItem.rawTexts

/-- The conditions and items of the ordering of a query that are SQL. -/
def fragments (q : Query) : List String :=
  q.conditions.flatMap Condition.fragments ++ q.orders.flatMap OrderItem.fragments

end Query

/-- The raw SQL in what a statement needs beside its query. -/
def Command.rawTexts : Command → List String
  | .pluck column => column.rawTexts
  | .insert rows _ => rows.flatMap Record.rawTexts
  | .upsert rows _ => rows.flatMap Record.rawTexts
  | .update values _ => values.rawTexts
  | _ => []

end PgToolkit
