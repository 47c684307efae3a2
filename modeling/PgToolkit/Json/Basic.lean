import PgToolkit.Number.Binary

/-!
# JSON documents

The fields of an object are kept in the order of their names, each name once.
-/

namespace PgToolkit

open Number

/-- A number of a document. Integers that fit a word of 64 bits, with or without sign, are kept
exactly. -/
inductive JsonNumber where
  /-- An integer from zero to `2 ^ 64 - 1`. -/
  | natural (n : UInt64)
  /-- An integer from `-2 ^ 63` to `-1`. -/
  | negative (i : Int64)
  /-- A finite number. -/
  | float (x : Binary64)
  deriving DecidableEq, Repr

namespace JsonNumber

/-- The number of a word with sign. -/
def ofInt64 (i : Int64) : JsonNumber :=
  if i.toInt < 0 then .negative i else .natural (UInt64.ofNat i.toInt.toNat)

/-- The word with sign that a number is, if it is one. -/
def toInt64? : JsonNumber → Option Int64
  | .natural n => if n.toNat < 0x8000000000000000 then some (Int64.ofNat n.toNat) else none
  | .negative i => some i
  | .float _ => none

/-- The nearest number in double precision. -/
def toBinary64 : JsonNumber → Binary64
  | .natural n => Binary64.ofInt n.toNat
  | .negative i => Binary64.ofInt i.toInt
  | .float x => x

def same : JsonNumber → JsonNumber → Bool
  | .natural m, .natural n => m == n
  | .negative i, .negative j => i == j
  | .float x, .float y => x.eq y
  | _, _ => false

end JsonNumber

/-- A JSON document. -/
inductive Json where
  | null
  | bool (b : Bool)
  | number (n : JsonNumber)
  | string (text : String)
  | array (items : List Json)
  /-- The fields in the order of their names. -/
  | object (fields : List (String × Json))
  deriving Repr, Inhabited

namespace Json

/-- Adds a field to fields in order; a field of the same name is replaced. -/
def insertField (name : String) (value : Json) : List (String × Json) → List (String × Json)
  | [] => [(name, value)]
  | (other, old) :: rest =>
    if name = other then (name, value) :: rest
    else if name < other then (name, value) :: (other, old) :: rest
    else (other, old) :: insertField name value rest

/-- The object with the given fields; of fields with one name the last counts. -/
def ofFields (fields : List (String × Json)) : Json :=
  .object (fields.foldl (fun sorted (name, value) => insertField name value sorted) [])

/-- The document of a number, which is null when the number is not finite. -/
def ofBinary64 (x : Binary64) : Json :=
  if x.isFinite then .number (.float x) else .null

/-- The value of a field. -/
def field? (name : String) (fields : List (String × Json)) : Option Json :=
  (fields.find? (·.1 = name)).map (·.2)

mutual

def same : Json → Json → Bool
  | .null, .null => true
  | .bool a, .bool b => a == b
  | .number m, .number n => m.same n
  | .string s, .string t => s == t
  | .array xs, .array ys => sameItems xs ys
  | .object fs, .object gs => sameFields fs gs
  | _, _ => false

/-- Equality of the items of two arrays. -/
def sameItems : List Json → List Json → Bool
  | [], [] => true
  | x :: xs, y :: ys => same x y && sameItems xs ys
  | _, _ => false

/-- Equality of the fields of two objects. -/
def sameFields : List (String × Json) → List (String × Json) → Bool
  | [], [] => true
  | (k, x) :: fs, (l, y) :: gs => k == l && same x y && sameFields fs gs
  | _, _ => false

end

end Json

end PgToolkit
