/-!
# Column and parameter types

The types that a server infers for the parameters of a statement and announces for the columns of
its result.
-/

namespace PgToolkit.Wire

/-- The built-in types that values are converted for. -/
inductive Scalar where
  | bool | int2 | int4 | int8 | oid | float4 | float8 | numeric
  | text | varchar | bpchar | name | unknown
  | uuid | json | jsonb | timestamp | timestamptz | date
  deriving DecidableEq, Repr

/-- The name of a type in the catalog. -/
def Scalar.catalogName : Scalar → String
  | .bool => "bool"
  | .int2 => "int2"
  | .int4 => "int4"
  | .int8 => "int8"
  | .oid => "oid"
  | .float4 => "float4"
  | .float8 => "float8"
  | .numeric => "numeric"
  | .text => "text"
  | .varchar => "varchar"
  | .bpchar => "bpchar"
  | .name => "name"
  | .unknown => "unknown"
  | .uuid => "uuid"
  | .json => "json"
  | .jsonb => "jsonb"
  | .timestamp => "timestamp"
  | .timestamptz => "timestamptz"
  | .date => "date"

/-- The number of a type in the catalog. -/
def Scalar.number : Scalar → Nat
  | .bool => 16
  | .int2 => 21
  | .int4 => 23
  | .int8 => 20
  | .oid => 26
  | .float4 => 700
  | .float8 => 701
  | .numeric => 1700
  | .text => 25
  | .varchar => 1043
  | .bpchar => 1042
  | .name => 19
  | .unknown => 705
  | .uuid => 2950
  | .json => 114
  | .jsonb => 3802
  | .timestamp => 1114
  | .timestamptz => 1184
  | .date => 1082

/-- A type of a parameter or a column. -/
inductive PgType where
  | scalar (type : Scalar)
  | enumeration (name : String) (number : Nat)
  /-- Any other type that is no array. Types outside the standard schemas are named with theirs. -/
  | other (schema : Option String) (name : String) (number : Nat)
  | array (name : String) (number : Nat) (element : PgType)
  deriving DecidableEq, Repr

namespace PgType

def name : PgType → String
  | .scalar type => type.catalogName
  | .enumeration name _ => name
  | .other _ name _ => name
  | .array name .. => name

/-- The name of a type in messages. -/
def qualifiedName : PgType → String
  | .other (some schema) name _ => schema ++ "." ++ name
  | type => type.name

/-- The number of a type in the catalog. -/
def number : PgType → Nat
  | .scalar type => type.number
  | .enumeration _ number => number
  | .other _ _ number => number
  | .array _ number _ => number

/-- Whether the values of a type travel as plain text: strings, enumerations, and strings that
ignore case. -/
def isTextLike : PgType → Bool
  | .scalar .text | .scalar .varchar | .scalar .bpchar | .scalar .name | .scalar .unknown => true
  | .enumeration .. => true
  | type => type.name = "citext"

/-- The built-in types that are no arrays, each with the number of its array type. -/
def catalog : List (PgType × Nat) :=
  [(.scalar .bool, 1000), (.scalar .int2, 1005), (.scalar .int4, 1007), (.scalar .int8, 1016),
    (.scalar .oid, 1028), (.scalar .float4, 1021), (.scalar .float8, 1022),
    (.scalar .numeric, 1231), (.scalar .text, 1009), (.scalar .varchar, 1015),
    (.scalar .bpchar, 1014), (.scalar .name, 1003), (.scalar .unknown, 0), (.scalar .uuid, 2951),
    (.scalar .json, 199), (.scalar .jsonb, 3807), (.scalar .timestamp, 1115),
    (.scalar .timestamptz, 1185), (.scalar .date, 1182),
    (.other none "bytea" 17, 1001), (.other none "char" 18, 1002), (.other none "xml" 142, 143),
    (.other none "money" 790, 791), (.other none "inet" 869, 1041),
    (.other none "cidr" 650, 651), (.other none "macaddr" 829, 1040),
    (.other none "bit" 1560, 1561), (.other none "varbit" 1562, 1563),
    (.other none "time" 1083, 1183), (.other none "timetz" 1266, 1270),
    (.other none "interval" 1186, 1187), (.other none "int4range" 3904, 3905),
    (.other none "int8range" 3926, 3927), (.other none "numrange" 3906, 3907),
    (.other none "tsrange" 3908, 3909), (.other none "tstzrange" 3910, 3911),
    (.other none "daterange" 3912, 3913), (.other none "point" 600, 1017),
    (.other none "void" 2278, 0)]

/-- The array type of a type; its name is that of its elements behind an underscore. -/
def arrayOf (element : PgType) (number : Nat) : PgType :=
  .array ("_" ++ element.name) number element

def ofName? (name : String) : Option PgType :=
  (catalog.flatMap fun (type, arrayNumber) => [type, type.arrayOf arrayNumber]).find?
    (·.name = name)

end PgType

end PgToolkit.Wire
