import PgToolkit.Error

/-!
# Typed access

What a value can be read as: one of the scalar types, an optional value, or a list of values.
Optional values and lists may be nested in each other to any depth.
-/

namespace PgToolkit

open Number Time

/-- A type that values are read as. -/
inductive Target where
  | value | bool | int64 | int32 | float | decimal | text | json | timestamp
  | optional (inner : Target)
  | list (inner : Target)
  deriving DecidableEq, Repr

namespace Target

def Carrier : Target → Type
  | .value => Value
  | .bool => Bool
  | .int64 => Int64
  | .int32 => Int32
  | .float => Binary64
  | .decimal => Decimal
  | .text => String
  | .json => Json
  | .timestamp => Instant
  | .optional inner => Option inner.Carrier
  | .list inner => List inner.Carrier

/-- A value that cannot be read, in a column that is not known. -/
def fail {α : Type} (fault : DecodeFault) : Except Error α :=
  .error (.decode "?" fault)

/-- Reads a Boolean. -/
def extractBool : Value → Except Error Bool
  | .bool b => .ok b
  | v => fail (.mismatch "bool" v.kind)

/-- Reads a word with sign. -/
def extractInt64 : Value → Except Error Int64
  | .int i => .ok i
  | v => fail (.mismatch "integer" v.kind)

/-- Reads a word of 32 bits with sign. -/
def extractInt32 (v : Value) : Except Error Int32 := do
  let i ← extractInt64 v
  if i.toInt < Int32.minValue.toInt then fail .integerTooSmall
  else if Int32.maxValue.toInt < i.toInt then fail .integerTooLarge
  else return Int32.ofInt i.toInt

/-- Reads a number in double precision. Integers and exact numbers are rounded to the nearest. -/
def extractFloat : Value → Except Error Binary64
  | .float x => .ok x
  | .int i => .ok (Binary64.ofInt i.toInt)
  | .decimal d => .ok d.toBinary64
  | v => fail (.mismatch "float" v.kind)

/-- Reads an exact number, also from its text. -/
def extractDecimal : Value → Except Error Decimal
  | .decimal d => .ok d
  | .int i => .ok (Decimal.ofInt64 i)
  | .text s =>
    match Decimal.parse s with
    | .ok d => .ok d
    | .error fault => fail (.decimalText fault)
  | v => fail (.mismatch "decimal" v.kind)

/-- Reads a text; raw SQL counts as its text. -/
def extractText : Value → Except Error String
  | .text s => .ok s
  | .raw s => .ok s
  | v => fail (.mismatch "text" v.kind)

/-- Reads an instant, also from its text. -/
def extractTimestamp : Value → Except Error Instant
  | .timestamp t => .ok t
  | .text s =>
    match parseInstant s with
    | .ok t => .ok t
    | .error fault => fail (.timestampText fault)
  | v => fail (.mismatch "timestamp" v.kind)

/-- Reads NULL as the missing value, and any other value as `read` does. -/
def extractOptional {α : Type} (read : Value → Except Error α) : Value → Except Error (Option α)
  | .null => .ok none
  | v => some <$> read v

/-- Reads every item of an array as `read` does. The first item that cannot be read counts. -/
def extractList {α : Type} (read : Value → Except Error α) : Value → Except Error (List α)
  | .array items => items.mapM read
  | v => fail (.mismatch "array" v.kind)

/-- Reads a value as a target. -/
def extract : (t : Target) → Value → Except Error t.Carrier
  | .value => .ok
  | .bool => extractBool
  | .int64 => extractInt64
  | .int32 => extractInt32
  | .float => extractFloat
  | .decimal => extractDecimal
  | .text => extractText
  | .json => fun v => .ok v.toJson
  | .timestamp => extractTimestamp
  | .optional inner => extractOptional inner.extract
  | .list inner => extractList inner.extract

/-- The value of what is read for a target. -/
def inject : (t : Target) → t.Carrier → Value
  | .value, v => v
  | .bool, b => .bool b
  | .int64, i => .int i
  | .int32, i => .int (Int64.ofInt i.toInt)
  | .float, x => .float x
  | .decimal, d => .decimal d
  | .text, s => .text s
  | .json, j => .ofJson j
  | .timestamp, t => .timestamp t
  | .optional _, none => .null
  | .optional inner, some x => inject inner x
  | .list inner, xs => .array (xs.map (inject inner))

end Target

end PgToolkit
