import PgToolkit.Value.Literal

/-!
# Columns

The definition of a column, and the changes of an existing one.
-/

namespace PgToolkit

open Sql

/-- The type of a column. -/
inductive ColumnType where
  | varchar (length : Nat)
  | text | smallInt | integer | bigInt | serial | bigSerial
  | decimal (precision scale : Nat)
  | real | doublePrecision | boolean | date | timestamp | timestamptz | json | jsonb | uuid
  /-- Any other type, written as it is. -/
  | specific (sql : String)
  deriving DecidableEq, Repr

namespace ColumnType

def sql : ColumnType → String
  | .varchar length => "varchar(" ++ toString length ++ ")"
  | .text => "text"
  | .smallInt => "smallint"
  | .integer => "integer"
  | .bigInt => "bigint"
  | .serial => "serial"
  | .bigSerial => "bigserial"
  | .decimal precision scale => "decimal(" ++ toString precision ++ ", " ++ toString scale ++ ")"
  | .real => "real"
  | .doublePrecision => "double precision"
  | .boolean => "boolean"
  | .date => "date"
  | .timestamp => "timestamp"
  | .timestamptz => "timestamptz"
  | .json => "json"
  | .jsonb => "jsonb"
  | .uuid => "uuid"
  | .specific sql => sql

/-- The types that are written as one word. -/
def words : List ColumnType :=
  [.text, .smallInt, .integer, .bigInt, .serial, .bigSerial, .real, .boolean, .date, .timestamp,
    .timestamptz, .json, .jsonb, .uuid]

/-- How a type is written in a cast; there are no casts to the types with a sequence. -/
def castSql : ColumnType → String
  | .serial => "integer"
  | .bigSerial => "bigint"
  | type => type.sql

end ColumnType

/-- What happens to a row when the row that it refers to changes. -/
inductive ReferentialAction where
  | cascade | setNull | setDefault | restrict | noAction
  deriving DecidableEq, Repr

def ReferentialAction.sql : ReferentialAction → String
  | .cascade => "CASCADE"
  | .setNull => "SET NULL"
  | .setDefault => "SET DEFAULT"
  | .restrict => "RESTRICT"
  | .noAction => "NO ACTION"

def ReferentialAction.all : List ReferentialAction :=
  [.cascade, .setNull, .setDefault, .restrict, .noAction]

/-- A reference to a column of another table. -/
structure ForeignKey where
  table : String
  column : String
  onDelete? : Option ReferentialAction := none
  onUpdate? : Option ReferentialAction := none
  deriving DecidableEq, Repr

/-- An action behind its keywords. -/
def actionClause (keywords : String) : Option ReferentialAction → String
  | none => ""
  | some action => keywords ++ action.sql

def ForeignKey.toSql (fk : ForeignKey) : Except Error String := do
  let table ← quoteIdentifier fk.table
  let column ← quoteIdentifier fk.column
  return "REFERENCES " ++ table ++ " (" ++ column ++ ")" ++
    actionClause " ON DELETE " fk.onDelete? ++ actionClause " ON UPDATE " fk.onUpdate?

/-- The definition of a column. -/
structure Column where
  type : ColumnType
  nullable : Bool := false
  default? : Option Value := none
  primary : Bool := false
  unique : Bool := false
  check? : Option String := none
  references? : Option ForeignKey := none
  collation? : Option String := none
  deriving Repr

/-- A default as SQL: a literal that is cast to the type of the column, or raw SQL. -/
def defaultSql (value : Value) (type : ColumnType) : Except Error String := do
  let literal ← value.literal
  return if value.isRaw then literal else literal ++ "::" ++ type.castSql

namespace Column

/-- A column that must have a value and has no constraint. -/
def ofType (type : ColumnType) : Column := { type }

/-- The definition of a column of a usual kind, by the name of the kind. Columns that count up are
the primary key. -/
def ofKind? : String → Option Column
  | "string" => some (ofType (.varchar 255))
  | "text" => some (ofType .text)
  | "integer" | "number" => some (ofType .integer)
  | "big_integer" => some (ofType .bigInt)
  | "small_integer" => some (ofType .smallInt)
  | "float" => some (ofType .real)
  | "double" => some (ofType .doublePrecision)
  | "boolean" => some (ofType .boolean)
  | "date" => some (ofType .date)
  | "timestamp" => some (ofType .timestamp)
  | "timestamptz" => some (ofType .timestamptz)
  | "json" => some (ofType .json)
  | "jsonb" => some (ofType .jsonb)
  | "uuid" => some (ofType .uuid)
  | "increments" => some { type := .serial, primary := true }
  | "big_increments" => some { type := .bigSerial, primary := true }
  | _ => none

/-- Sets what is done when the row that is referred to goes away, if there is a reference. -/
def onDelete (c : Column) (action : ReferentialAction) : Column :=
  { c with references? := c.references?.map ({ · with onDelete? := some action }) }

/-- Sets what is done when the row that is referred to changes, if there is a reference. -/
def onUpdate (c : Column) (action : ReferentialAction) : Column :=
  { c with references? := c.references?.map ({ · with onUpdate? := some action }) }

/-- A name behind its keyword. -/
def collationClause : Option String → Except Error String
  | none => .ok ""
  | some collation => do return " COLLATE " ++ (← quoteIdentifier collation)

/-- The default behind its keyword. -/
def defaultClause (type : ColumnType) : Option Value → Except Error String
  | none => .ok ""
  | some value => do return " DEFAULT " ++ (← defaultSql value type)

/-- The condition that every row must fulfil. -/
def checkClause : Option String → String
  | none => ""
  | some check => " CHECK (" ++ check ++ ")"

def referencesClause : Option ForeignKey → Except Error String
  | none => .ok ""
  | some fk => do return " " ++ (← fk.toSql)

/-- The definition of a column as SQL. -/
def toSql (c : Column) (name : String) : Except Error String := do
  let name ← quoteIdentifier name
  let collation ← collationClause c.collation?
  let default ← defaultClause c.type c.default?
  let references ← referencesClause c.references?
  return name ++ " " ++ c.type.sql ++ collation ++ (if c.nullable then "" else " NOT NULL") ++
    default ++ (if c.primary then " PRIMARY KEY" else "") ++
    (if c.unique then " UNIQUE" else "") ++ checkClause c.check? ++ references

end Column

/-- The parts of a definition that change; the others stay. -/
structure ColumnChanges where
  type? : Option ColumnType := none
  nullable? : Option Bool := none
  /-- An inner `none` removes the default. -/
  default? : Option (Option Value) := none
  primary? : Option Bool := none
  unique? : Option Bool := none
  /-- An inner `none` removes the condition. -/
  check? : Option (Option String) := none
  /-- An inner `none` removes the reference. -/
  references? : Option (Option ForeignKey) := none
  collation? : Option String := none
  deriving Repr

namespace ColumnChanges

/-- Sets what is done when the row that is referred to goes away, if a reference is set. -/
def onDelete (c : ColumnChanges) (action : ReferentialAction) : ColumnChanges :=
  { c with references? := c.references?.map (·.map ({ · with onDelete? := some action })) }

/-- Sets what is done when the row that is referred to changes, if a reference is set. -/
def onUpdate (c : ColumnChanges) (action : ReferentialAction) : ColumnChanges :=
  { c with references? := c.references?.map (·.map ({ · with onUpdate? := some action })) }

/-- Whether nothing changes. -/
def isEmpty (c : ColumnChanges) : Bool :=
  c.type?.isNone && c.nullable?.isNone && c.default?.isNone && c.primary?.isNone &&
    c.unique?.isNone && c.check?.isNone && c.references?.isNone && c.collation?.isNone

def applyTo (c : ColumnChanges) (column : Column) : Column where
  type := c.type?.getD column.type
  nullable := c.nullable?.getD column.nullable
  default? := c.default?.getD column.default?
  primary := c.primary?.getD column.primary
  unique := c.unique?.getD column.unique
  check? := c.check?.getD column.check?
  references? := c.references?.getD column.references?
  collation? := c.collation?.or column.collation?

end ColumnChanges

end PgToolkit
