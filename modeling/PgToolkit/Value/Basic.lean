import PgToolkit.Json.Printer
import PgToolkit.Number.Decimal
import PgToolkit.Time.Instant

/-!
# Dynamic values

A value is what a statement binds, what a literal writes, and what a cell of a row holds.
-/

namespace PgToolkit

open Number Time

/-- A dynamically typed SQL value. -/
inductive Value where
  | null
  | bool (b : Bool)
  | int (i : Int64)
  | float (x : Binary64)
  /-- An exact number. -/
  | decimal (d : Decimal)
  | text (s : String)
  | array (items : List Value)
  | timestamp (t : Instant)
  /-- A document. -/
  | json (document : Json)
  /-- SQL that is written as it is and never bound. -/
  | raw (sql : String)
  deriving Repr, Inhabited

/-- The variants of a value. -/
inductive Kind where
  | null | bool | int | float | decimal | text | array | timestamp | json | raw
  deriving DecidableEq, Repr

/-- The name of a variant in messages. -/
def Kind.name : Kind → String
  | .null => "null"
  | .bool => "bool"
  | .int => "int"
  | .float => "float"
  | .decimal => "decimal"
  | .text => "text"
  | .array => "array"
  | .timestamp => "timestamp"
  | .json => "json"
  | .raw => "raw sql"

namespace Value

def kind : Value → Kind
  | .null => .null
  | .bool _ => .bool
  | .int _ => .int
  | .float _ => .float
  | .decimal _ => .decimal
  | .text _ => .text
  | .array _ => .array
  | .timestamp _ => .timestamp
  | .json _ => .json
  | .raw _ => .raw

/-- Whether a value is NULL. -/
def isNull (v : Value) : Bool := v.kind = .null

def isArray (v : Value) : Bool := v.kind = .array

def isRaw (v : Value) : Bool := v.kind = .raw

/-- The text that a literal writes as a call of the current time. -/
def nowText : String := "now()"

/-- The current time, as a value that is written as a call. -/
def now : Value := .text nowText

mutual

/-- The document of a value. Exact numbers and instants become strings. -/
def toJson : Value → Json
  | .null => .null
  | .bool b => .bool b
  | .int i => .number (.ofInt64 i)
  | .float x => Json.ofBinary64 x
  | .decimal d => .string d.text
  | .text s => .string s
  | .raw s => .string s
  | .array items => .array (itemsToJson items)
  | .timestamp t => .string t.rfc3339
  | .json document => document

/-- The documents of the items of an array. -/
def itemsToJson : List Value → List Json
  | [] => []
  | v :: rest => toJson v :: itemsToJson rest

end

mutual

/-- The value of a document: scalars and arrays become values of their own, objects stay
documents. An integer that is no word with sign becomes a number in double precision. -/
def ofJson : Json → Value
  | .null => .null
  | .bool b => .bool b
  | .number n =>
    match n.toInt64? with
    | some i => .int i
    | none => .float n.toBinary64
  | .string s => .text s
  | .array items => .array (itemsOfJson items)
  | .object fields => .json (.object fields)

/-- The values of the items of an array. -/
def itemsOfJson : List Json → List Value
  | [] => []
  | j :: rest => ofJson j :: itemsOfJson rest

end

mutual

/-- Equality of values. Exact numbers are equal when the numbers are, and what is not a number
equals nothing. -/
def same : Value → Value → Bool
  | .null, .null => true
  | .bool a, .bool b => a == b
  | .int i, .int j => i == j
  | .float x, .float y => x.eq y
  | .decimal d, .decimal e => d.eq e
  | .text s, .text t => s == t
  | .array xs, .array ys => sameItems xs ys
  | .timestamp s, .timestamp t => s == t
  | .json j, .json k => j.same k
  | .raw s, .raw t => s == t
  | _, _ => false

/-- Equality of the items of two arrays. -/
def sameItems : List Value → List Value → Bool
  | [], [] => true
  | x :: xs, y :: ys => same x y && sameItems xs ys
  | _, _ => false

end

end Value

end PgToolkit
