import PgToolkit.Error
import PgToolkit.Sql.Quoted

/-!
# Identifiers

A dotted name is written segment by segment as quoted identifiers. The star of all columns and the
count of all rows stand for themselves; so does a star behind a dot.
-/

namespace PgToolkit

namespace Sql

/-- The segments of a name between its dots. -/
def segments (name : String) : List String :=
  (name.toList.splitOn '.').map String.ofList

/-- Names that are written as they are: all columns, and the count of all rows in any case. -/
def isVerbatim (name : String) : Bool :=
  name = "*" || name.map Char.toLower = "count(*)"

/-- The segments of a name as SQL. A star is not quoted when it stands last and not alone. -/
def quoteSegments (isFirst : Bool) : List String → List String
  | [] => []
  | [segment] =>
    if segment = "*" ∧ isFirst = false then ["*"] else [quotedName segment]
  | segment :: rest => quotedName segment :: quoteSegments false rest

/-- A name as SQL. It must not be empty, hold a NUL character, or have an empty segment. -/
def quoteIdentifier (name : String) : Except Error String :=
  if name.isEmpty then .error (.invalidArgument .emptyIdentifier)
  else if name.toList.contains '\x00' then .error (.invalidArgument .nulInIdentifier)
  else if isVerbatim name then .ok name
  else if (segments name).contains "" then .error (.invalidArgument (.emptySegment name))
  else .ok (".".intercalate (quoteSegments true (segments name)))

/-- Names as SQL with commas between them; the first one that is refused counts. -/
def quoteIdentifiers (names : List String) : Except Error String := do
  return ", ".intercalate (← names.mapM quoteIdentifier)

/-- The part of a name behind its last dot. -/
def lastSegment (name : String) : String :=
  (segments name).getLastD name

/-- The part of a name before its last dot, if it has one. -/
def qualifier? (name : String) : Option String :=
  match (segments name).dropLast with
  | [] => none
  | parts => some (".".intercalate parts)

end Sql

/-- A name, or SQL in the place of a name. -/
inductive Identifier where
  | name (text : String)
  | raw (sql : String)
  deriving DecidableEq, Repr

namespace Identifier

/-- The text of an identifier, before quoting. -/
def text : Identifier → String
  | .name text => text
  | .raw sql => sql

def toSql : Identifier → Except Error String
  | .name text => Sql.quoteIdentifier text
  | .raw sql => .ok sql

end Identifier

end PgToolkit
