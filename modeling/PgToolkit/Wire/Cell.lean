import PgToolkit.Json.Parser
import PgToolkit.Text.Uuid
import PgToolkit.Value.Basic
import PgToolkit.Wire.Calendar
import PgToolkit.Wire.Numeric
import PgToolkit.Wire.PgType

/-!
# Cells of result rows

A cell arrives in the binary form of the type of its column and becomes a value.
-/

namespace PgToolkit

open Number Time Wire

/-- Why the cell of a row has no value. -/
inductive CellFault where
  | unsupported (type : PgType)
  /-- The bytes are not in the form of the type, or the value is out of range. -/
  | malformed
  /-- An exact number is infinite, none at all, or too large for a decimal. -/
  | noDecimal
  deriving DecidableEq, Repr

/-- The wording of a cell without value. -/
def CellFault.message : CellFault → String
  | .unsupported type => "unsupported column type " ++ type.qualifiedName
  | .malformed => "malformed value"
  | .noDecimal => "not a decimal number"

namespace Value

def readText (bytes : List UInt8) : Option String :=
  String.fromUTF8? ⟨bytes.toArray⟩

/-- The integer that exactly `width` bytes stand for. -/
def readInteger (width : Nat) (bytes : List UInt8) : Option Int64 :=
  if bytes.length = width then some (Int64.ofInt (signedOf bytes)) else none

/-- The natural number that exactly `width` bytes stand for. -/
def readUnsigned (width : Nat) (bytes : List UInt8) : Option Nat :=
  if bytes.length = width then some (unsignedOf bytes) else none

/-- The signed count that exactly `width` bytes stand for. -/
def readCount (width : Nat) (bytes : List UInt8) : Option Int :=
  if bytes.length = width then some (signedOf bytes) else none

/-- The document of the second document type: its version and its text. -/
def readDocument (bytes : List UInt8) : Option Json :=
  match bytes with
  | 1 :: rest => readText rest >>= Json.parse?
  | _ => none

/-- A result, or the fault of bytes that are not in the form of their type. -/
def orMalformed {α : Type} : Option α → Except CellFault α
  | some a => .ok a
  | none => .error .malformed

/-- The exact number that the bytes stand for. -/
def readNumeric (bytes : List UInt8) : Except CellFault Decimal := do
  match (← orMalformed (readNumericParts bytes)).toDecimal? with
  | some d => .ok d
  | none => .error .noDecimal

/-- The value of a scalar, when the bytes are in the form of its type. -/
def readScalar (type : Scalar) (bytes : List UInt8) : Except CellFault Value :=
  match type with
  | .bool =>
    match bytes with
    | [b] => .ok (.bool (b != 0))
    | _ => .error .malformed
  | .int2 => .int <$> orMalformed (readInteger 2 bytes)
  | .int4 => .int <$> orMalformed (readInteger 4 bytes)
  | .int8 => .int <$> orMalformed (readInteger 8 bytes)
  | .oid => (fun n => .int (Int64.ofNat n)) <$> orMalformed (readUnsigned 4 bytes)
  | .float4 =>
    (fun n => .float (Binary32.mk (UInt32.ofNat n)).widen) <$> orMalformed (readUnsigned 4 bytes)
  | .float8 => (fun n => .float ⟨UInt64.ofNat n⟩) <$> orMalformed (readUnsigned 8 bytes)
  | .numeric => .decimal <$> readNumeric bytes
  | .text | .varchar | .bpchar | .name | .unknown => .text <$> orMalformed (readText bytes)
  | .uuid => if bytes.length = 16 then .ok (.text (Text.uuidText bytes)) else .error .malformed
  | .json => .json <$> orMalformed (readText bytes >>= Json.parse?)
  | .jsonb => .json <$> orMalformed (readDocument bytes)
  | .timestamp | .timestamptz =>
    .timestamp <$> orMalformed (readCount 8 bytes >>= ofMicroseconds?)
  | .date => .timestamp <$> orMalformed (readCount 4 bytes >>= ofDayCount?)

/-- The bytes of an element behind its length, and what follows; NULL has a negative length. -/
def splitElement? (bytes : List UInt8) : Option (Option (List UInt8) × List UInt8) := do
  let (length, rest) ← split? 4 bytes
  let length := signedOf length
  if length < 0 then return (none, rest)
  let (element, rest) ← split? length.toNat rest
  return (some element, rest)

/-- Reads as many elements as `count` says; then no bytes are left. -/
def readElements (read : Option (List UInt8) → Except CellFault Value) :
    Nat → List UInt8 → Except CellFault (List Value)
  | 0, bytes => if bytes.isEmpty then .ok [] else .error .malformed
  | count + 1, bytes => do
    let (element, rest) ← orMalformed (splitElement? bytes)
    let value ← read element
    return value :: (← readElements read count rest)

/-- Reads what stands in front of the elements of an array with at most one dimension: their number,
and the bytes of the elements. An array without dimensions is empty. -/
def readArrayHeader (bytes : List UInt8) : Option (Nat × List UInt8) := do
  let (dimensions, rest) ← split? 4 bytes
  let (_, rest) ← split? 8 rest
  let dimensions := signedOf dimensions
  if dimensions = 0 then return (0, rest)
  if dimensions ≠ 1 then none
  let (length, rest) ← split? 4 rest
  let (_, rest) ← split? 4 rest
  if signedOf length < 0 then none
  return (unsignedOf length, rest)

/-- The value of a cell in a column of a type. -/
def ofCell : PgType → Option (List UInt8) → Except CellFault Value
  | _, none => .ok .null
  | .array _ _ element, some bytes => do
    let (count, rest) ← orMalformed (readArrayHeader bytes)
    return .array (← readElements (ofCell element) count rest)
  | .enumeration .., some bytes => .text <$> orMalformed (readText bytes)
  | .scalar type, some bytes => readScalar type bytes
  | type@(.other ..), some bytes =>
    if type.isTextLike then .text <$> orMalformed (readText bytes)
    else .error (.unsupported type)

end Value

end PgToolkit
