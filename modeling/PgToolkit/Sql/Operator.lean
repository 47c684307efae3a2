import PgToolkit.Text.Blank

/-!
# Operators

The comparison operators of conditions and joins, and the two directions of an ordering.
-/

namespace PgToolkit

/-- An operator between a column and a value. -/
inductive Operator where
  | eq | ne | lt | lte | gt | gte
  | isIn | notIn
  | isNull | isNotNull
  /-- Containment of documents and arrays. -/
  | contains
  deriving DecidableEq, Repr

namespace Operator

def sql : Operator → String
  | .eq => "="
  | .ne => "!="
  | .lt => "<"
  | .lte => "<="
  | .gt => ">"
  | .gte => ">="
  | .isIn => "IN"
  | .notIn => "NOT IN"
  | .isNull => "IS NULL"
  | .isNotNull => "IS NOT NULL"
  | .contains => "@>"

/-- The words of a token in upper case with single spaces between them. -/
def normalized (token : String) : String :=
  (" ".intercalate (Text.words token)).map Char.toUpper

/-- Reads an operator: keywords in any case, with any white space between them. -/
def ofToken? (token : String) : Option Operator :=
  match normalized token with
  | "=" => some .eq
  | "!=" => some .ne
  | "<>" => some .ne
  | "<" => some .lt
  | "<=" => some .lte
  | ">" => some .gt
  | ">=" => some .gte
  | "IN" => some .isIn
  | "NOT IN" => some .notIn
  | "IS NULL" => some .isNull
  | "IS NOT NULL" => some .isNotNull
  | "@>" => some .contains
  | _ => none

/-- A comparison of two operands, the only kind that joins two tables. -/
def isComparison : Operator → Bool
  | .eq | .ne | .lt | .lte | .gt | .gte => true
  | _ => false

/-- An operator without a value on its right side. -/
def isUnary : Operator → Bool
  | .isNull | .isNotNull => true
  | _ => false

/-- An operator with a list on its right side. -/
def isList : Operator → Bool
  | .isIn | .notIn => true
  | _ => false

end Operator

/-- The direction of an ordering. -/
inductive Direction where
  | asc | desc
  deriving DecidableEq, Repr

namespace Direction

def sql : Direction → String
  | .asc => "ASC"
  | .desc => "DESC"

/-- Reads a direction in any case, with white space around it. -/
def ofToken? (token : String) : Option Direction :=
  match (Text.trim token).map Char.toLower with
  | "asc" => some .asc
  | "desc" => some .desc
  | _ => none

end Direction

end PgToolkit
