import PgToolkit.Error
import PgToolkit.Text.Uuid
import PgToolkit.Wire.Calendar
import PgToolkit.Wire.Numeric
import PgToolkit.Wire.PgType

/-!
# Values as parameters

A value is bound to a parameter in the binary form of the type that the server infers for it. The
type decides the conversion, so one value fits columns of several types.
-/

namespace PgToolkit

open Number Time Wire

-- A power is the core library's, also where a general one is in scope.
attribute [local instance (high)] instPowNat

/-- Why a value cannot be bound to a parameter. -/
inductive BindFault where
  | cannotBind (kind : Kind) (type : PgType)
  | nonFinite (x : Binary64)
  | integerRange
  | uuidText
  | decimalText (fault : Decimal.Fault)
  | instantText (fault : TimeFault)
  | dateText
  /-- A length does not fit the word that it travels in. -/
  | tooLarge
  deriving DecidableEq, Repr

/-- The wording of a value that cannot be bound. -/
def BindFault.message : BindFault → String
  | .cannotBind kind type =>
    "cannot bind " ++ kind.name ++ " value to parameter of type " ++ type.qualifiedName
  | .nonFinite x => "non-finite float " ++ sqlLayout.text x ++ " cannot be bound as numeric"
  | .integerRange => "out of range integral type conversion attempted"
  | .uuidText => "invalid UUID"
  | .decimalText fault => fault.message
  | .instantText fault => fault.message
  | .dateText => "input contains invalid characters"
  | .tooLarge => "value too large to transmit"

namespace Value

def textBytes (s : String) : List UInt8 := s.toUTF8.data.toList

/-- The bytes of an integer of a width, when it has the range. -/
def integerBytes (width : Nat) (i : Int) : Except BindFault (List UInt8) :=
  if -(256 ^ width : Nat) ≤ 2 * i ∧ 2 * i < (256 ^ width : Nat) then .ok (signedBytes width i)
  else .error .integerRange

/-- The bytes of a document; the second document type has a version in front. -/
def documentBytes (binary : Bool) (document : Json) : List UInt8 :=
  if binary then 1 :: textBytes document.text else textBytes document.text

/-- The bytes of a number in double precision. -/
def doubleBytes (x : Binary64) : List UInt8 := unsignedBytes 8 x.bits.toNat

/-- The bytes of a number in single precision. -/
def singleBytes (x : Binary32) : List UInt8 := unsignedBytes 4 x.bits.toNat

/-- Binds an integer. It becomes a number of any type, or its digits. -/
def bindInt (i : Int64) (type : PgType) : Except BindFault (List UInt8) :=
  match type with
  | .scalar .int8 => .ok (signedBytes 8 i.toInt)
  | .scalar .numeric => .ok (numericBytes (Decimal.ofInt64 i))
  | .scalar .int4 => integerBytes 4 i.toInt
  | .scalar .int2 => integerBytes 2 i.toInt
  | .scalar .float8 => .ok (doubleBytes (Binary64.ofInt i.toInt))
  | .scalar .float4 => .ok (singleBytes (Binary32.ofInt i.toInt))
  | _ =>
    if type.isTextLike then .ok (textBytes (toString i.toInt)) else .error (.cannotBind .int type)

/-- Binds a number in double precision. As an exact number it has the fewest digits that read
back. -/
def bindFloat (x : Binary64) (type : PgType) : Except BindFault (List UInt8) :=
  match type with
  | .scalar .float8 => .ok (doubleBytes x)
  | .scalar .float4 => .ok (singleBytes x.narrow)
  | .scalar .numeric =>
    if x.isFinite then
      match Decimal.parse (sqlLayout.text x) with
      | .ok d => .ok (numericBytes d)
      | .error fault => .error (.decimalText fault)
    else .error (.nonFinite x)
  | _ => .error (.cannotBind .float type)

def bindDecimal (d : Decimal) (type : PgType) : Except BindFault (List UInt8) :=
  match type with
  | .scalar .numeric => .ok (numericBytes d)
  | .scalar .float8 => .ok (doubleBytes d.toBinary64)
  | _ => if type.isTextLike then .ok (textBytes d.text) else .error (.cannotBind .decimal type)

/-- Binds a text. It is read as what the type holds, or travels as it is. -/
def bindText (kind : Kind) (s : String) (type : PgType) : Except BindFault (List UInt8) :=
  match type with
  | .scalar .uuid =>
    match Text.parseUuid? s with
    | some bytes => .ok bytes
    | none => .error .uuidText
  | .scalar .numeric =>
    match Decimal.parse s with
    | .ok d => .ok (numericBytes d)
    | .error fault => .error (.decimalText fault)
  | .scalar .json => .ok (documentBytes false (.string s))
  | .scalar .jsonb => .ok (documentBytes true (.string s))
  | .scalar .timestamptz =>
    match parseInstant s with
    | .ok t => .ok (signedBytes 8 (microseconds t))
    | .error fault => .error (.instantText fault)
  | .scalar .date =>
    match parseDate? s with
    | some day => .ok (signedBytes 4 (day - epochDays))
    | none => .error .dateText
  | _ => if type.isTextLike then .ok (textBytes s) else .error (.cannotBind kind type)

def bindInstant (t : Instant) (type : PgType) : Except BindFault (List UInt8) :=
  match type with
  | .scalar .timestamptz | .scalar .timestamp => .ok (signedBytes 8 (microseconds t))
  | .scalar .date => .ok (signedBytes 4 (dayCount t))
  | _ => if type.isTextLike then .ok (textBytes t.rfc3339) else .error (.cannotBind .timestamp type)

def bindJson (document : Json) (type : PgType) : Except BindFault (List UInt8) :=
  match type with
  | .scalar .json => .ok (documentBytes false document)
  | .scalar .jsonb => .ok (documentBytes true document)
  | _ =>
    if type.isTextLike then .ok (textBytes document.text) else .error (.cannotBind .json type)

/-- An element of an array behind its length; NULL has the length -1 and no bytes. -/
def elementBytes : Option (List UInt8) → Except BindFault (List UInt8)
  | none => .ok (signedBytes 4 (-1))
  | some bytes =>
    if bytes.length < 0x80000000 then .ok (unsignedBytes 4 bytes.length ++ bytes)
    else .error .tooLarge

/-- What stands in front of the elements of an array: one dimension, whether an element is NULL, the
type of the elements, their number, and the index of the first one. -/
def arrayHeader (element : PgType) (hasNull : Bool) (count : Nat) : List UInt8 :=
  unsignedBytes 4 1 ++ unsignedBytes 4 (if hasNull then 1 else 0) ++
    unsignedBytes 4 element.number ++ unsignedBytes 4 count ++ unsignedBytes 4 1

mutual

/-- The bytes of a value for a type; NULL fits every type and has none. -/
def bind : Value → PgType → Except BindFault (Option (List UInt8))
  | .null, _ => .ok none
  | .bool b, type =>
    match type with
    | .scalar .bool => .ok (some [if b then 1 else 0])
    | _ => .error (.cannotBind .bool type)
  | .int i, type => some <$> bindInt i type
  | .float x, type => some <$> bindFloat x type
  | .decimal d, type => some <$> bindDecimal d type
  | .text s, type => some <$> bindText .text s type
  | .raw s, type => some <$> bindText .raw s type
  | .array items, type =>
    match type with
    | .array _ _ element =>
      if items.length < 0x80000000 then do
        let elements ← bindItems items element
        return some (arrayHeader element (items.any isNull) items.length ++ elements)
      else .error .tooLarge
    | _ => .error (.cannotBind .array type)
  | .timestamp t, type => some <$> bindInstant t type
  | .json document, type => some <$> bindJson document type

/-- The bytes of the elements of an array, up to the first that does not fit. -/
def bindItems : List Value → PgType → Except BindFault (List UInt8)
  | [], _ => .ok []
  | v :: rest, type => do
    let element ← elementBytes (← bind v type)
    return element ++ (← bindItems rest type)

end

end Value

end PgToolkit
