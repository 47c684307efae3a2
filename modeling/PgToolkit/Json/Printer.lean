import PgToolkit.Json.Basic
import PgToolkit.Number.Shortest
import PgToolkit.Text.Hex

/-!
# Writing JSON

Documents are written without blanks. Strings escape the quote, the backslash and the control
characters below the space; every other character stands for itself.
-/

namespace PgToolkit

open Number

namespace Json

/-- Numbers whose first digit has an exponent from -5 to 15 are written without exponent, and with
a fraction; other exponents carry their sign. Ties between digits go to the even one. -/
def numberLayout : FloatLayout where
  positional exponent := -5 ≤ exponent && exponent ≤ 15
  whole := ".0"
  tie := .even
  nan := "null"
  infinity := "null"

def numberText : JsonNumber → List Char
  | .natural n => (toString n.toNat).toList
  | .negative i => (toString i.toInt).toList
  | .float x => (numberLayout.text x).toList

def escapedChar (c : Char) : List Char :=
  if c = '"' then ['\\', '"']
  else if c = '\\' then ['\\', '\\']
  else if c = '\x08' then ['\\', 'b']
  else if c = '\x0c' then ['\\', 'f']
  else if c = '\n' then ['\\', 'n']
  else if c = '\r' then ['\\', 'r']
  else if c = '\t' then ['\\', 't']
  else if c.toNat < 32 then
    ['\\', 'u', '0', '0', Text.hexDigit (c.toNat / 16), Text.hexDigit (c.toNat % 16)]
  else [c]

def stringText (text : String) : List Char :=
  '"' :: (text.toList.flatMap escapedChar ++ ['"'])

mutual

def chars : Json → List Char
  | .null => "null".toList
  | .bool true => "true".toList
  | .bool false => "false".toList
  | .number n => numberText n
  | .string s => stringText s
  | .array items => '[' :: (itemChars items ++ [']'])
  | .object fields => '\x7b' :: (fieldChars fields ++ ['\x7d'])

/-- The items of an array with commas between them. -/
def itemChars : List Json → List Char
  | [] => []
  | [item] => chars item
  | item :: rest => chars item ++ ',' :: itemChars rest

/-- The fields of an object with commas between them. -/
def fieldChars : List (String × Json) → List Char
  | [] => []
  | [(name, value)] => stringText name ++ ':' :: chars value
  | (name, value) :: rest => stringText name ++ ':' :: (chars value ++ ',' :: fieldChars rest)

end

def text (j : Json) : String :=
  String.ofList j.chars

end Json

end PgToolkit
