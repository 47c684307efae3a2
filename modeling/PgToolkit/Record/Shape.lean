import PgToolkit.Record.Basic
import PgToolkit.Text.Shown

/-!
# Shapes

A shape lists the fields that a record must have to be read as a whole. The record is read as an
object: its fields are visited in the order of their names, those that the shape does not know are
passed over, and the first one of a wrong type is reported. Missing fields are reported afterwards.
-/

namespace PgToolkit

/-- The type of a field. -/
inductive FieldType where
  | int64 | text | bool
  deriving DecidableEq, Repr

/-- What stands for a field that is missing. -/
inductive Presence where
  /-- The field must be there. -/
  | required
  /-- The field may be missing or null. -/
  | optional
  /-- A missing field has this value. -/
  | default (value : Json)
  deriving Repr

/-- A field of a shape. -/
structure Field where
  name : String
  type : FieldType
  presence : Presence := .required
  deriving Repr

/-- How a type is named in messages. -/
def FieldType.expectation : FieldType → String
  | .int64 => "i64"
  | .text => "a string"
  | .bool => "a boolean"

/-- How a document is named in messages. -/
def Json.description : Json → String
  | .null => "null"
  | .bool b => "boolean `" ++ (if b then "true" else "false") ++ "`"
  | .number (.float x) => "floating point `" ++ Json.numberLayout.text x ++ "`"
  | .number n => "integer `" ++ String.ofList (Json.numberText n) ++ "`"
  | .string s => "string " ++ Text.shown s
  | .array _ => "sequence"
  | .object _ => "map"

/-- Checks the type of a field. An unsigned word that has no sign bit to spare is no integer. -/
def FieldType.check (type : FieldType) (document : Json) : Except DecodeFault Json :=
  match type, document with
  | .int64, .number n =>
    match n with
    | .float _ => .error (.wrongShape document.description type.expectation)
    | _ =>
      match n.toInt64? with
      | some _ => .ok document
      | none => .error (.wrongInteger document.description type.expectation)
  | .text, .string _ => .ok document
  | .bool, .bool _ => .ok document
  | _, _ => .error (.wrongShape document.description type.expectation)

/-- Checks a field that is there. -/
def Field.check (field : Field) (document : Json) : Except DecodeFault Json :=
  match field.presence, document with
  | .optional, .null => .ok .null
  | _, _ => field.type.check document

namespace Record

/-- Checks the known fields of an object in order. -/
def checkFields (shape : List Field) :
    List (String × Json) → Except DecodeFault (List (String × Json))
  | [] => .ok []
  | (name, document) :: rest =>
    match shape.find? (·.name = name) with
    | none => checkFields shape rest
    | some field => do
      let checked ← field.check document
      return (name, checked) :: (← checkFields shape rest)

/-- The value of a field, or what stands for it when it is missing. -/
def fieldOrDefault (found : List (String × Json)) (field : Field) : Except DecodeFault Json :=
  match Json.field? field.name found, field.presence with
  | some document, _ => .ok document
  | none, .required => .error (.missingField field.name)
  | none, .optional => .ok .null
  | none, .default value => .ok value

/-- The column that errors of reading a whole record name. -/
def wholeColumn : String := "<record>"

/-- The fields of a record in the order of a shape. -/
def decode (r : Record) (shape : List Field) : Except Error (List Json) :=
  let fields := match r.toJson with
    | .object fields => fields
    | _ => []
  let result := do
    let found ← checkFields shape fields
    shape.mapM (fieldOrDefault found)
  result.mapError (.decode wholeColumn)

end Record

end PgToolkit
