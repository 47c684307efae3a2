import PgToolkit.Json.Basic
import PgToolkit.Text.Digits
import PgToolkit.Text.Hex

/-!
# Reading JSON

A document is read by recursive descent. Arrays and objects may be nested 127 deep. Numbers with a
fraction or an exponent, and integers beyond 64 bits, are read from as many leading digits as fit a
word without sign, by one rounded multiplication or division with a rounded power of ten.
-/

namespace PgToolkit

open Number

-- A power is the core library's, also where a general one is in scope.
attribute [local instance (high)] instPowNat

namespace Json

/-- Drops the blanks that may stand between the tokens of a document. -/
def skipBlanks (text : List Char) : List Char :=
  text.dropWhile fun c => c = ' ' || c = '\n' || c = '\t' || c = '\r'

/-- Appends digits to a number as long as it stays below `2 ^ 64`: the number, and how many digits
were appended. -/
def appendDigits (n : Nat) : List Char → Nat × Nat
  | [] => (n, 0)
  | c :: rest =>
    let next := n * 10 + Text.digitValue c
    if next < UInt64.size then
      let (result, count) := appendDigits next rest
      (result, count + 1)
    else (n, 0)

/-- The power of ten in double precision. -/
def powerOfTen (n : Nat) : Binary64 := Binary64.ofRatio false (10 ^ n) 1

/-- `x * 10 ^ exponent`, by one multiplication or division when the power of ten is in range. A
result that is too large is refused. The recursion divides by the largest power first; after three
rounds nothing is left of `x`. -/
def scaleByTen (x : Binary64) (exponent : Int) : Nat → Option Binary64
  | 0 => some x
  | rounds + 1 =>
    if exponent.natAbs ≤ 308 then
      if 0 ≤ exponent then
        let y := x.mul (powerOfTen exponent.natAbs)
        if y.isFinite then some y else none
      else some (x.div (powerOfTen exponent.natAbs))
    else if x.isZero then some x
    else if 0 ≤ exponent then none
    else scaleByTen (x.div (powerOfTen 308)) (exponent + 308) rounds

/-- The number `± significand * 10 ^ exponent` as it is read. -/
def readFloat (negative : Bool) (significand : Nat) (exponent : Int) : Option JsonNumber := do
  let x ← scaleByTen (Binary64.ofInt significand) exponent 4
  return .float (if negative then x.neg else x)

/-- Reads an exponent behind its letter: its value, and the rest of the text. -/
def readExponent (text : List Char) : Option (Int × List Char) :=
  let (negative, digits) : Bool × List Char := match text with
    | '-' :: rest => (true, rest)
    | '+' :: rest => (false, rest)
    | _ => (false, text)
  let shown := digits.takeWhile Char.isDigit
  if shown.isEmpty then none
  else
    let n := Text.digitsValue shown
    some (if negative then -(n : Int) else n, digits.dropWhile Char.isDigit)

/-- The integer `± significand`. Zero with a sign, and what has no word with sign, is a number in
double precision. -/
def ofSignificand (negative : Bool) (significand : Nat) : JsonNumber :=
  if !negative then .natural (UInt64.ofNat significand)
  else if significand = 0 ∨ 0x8000000000000000 < significand then
    .float (Binary64.ofInt significand).neg
  else .negative (Int64.ofInt (-significand))

/-- Finishes a number with a fraction or an exponent; a number that is too large is refused. -/
def finishFloat (negative : Bool) (significand : Nat) (exponent : Int) (rest : List Char) :
    Option (JsonNumber × List Char) := do
  let (written, rest) ← match rest with
    | 'e' :: tail => readExponent tail
    | 'E' :: tail => readExponent tail
    | _ => some (0, rest)
  if written.natAbs < 0x80000000 then
    return (← readFloat negative significand (exponent + written), rest)
  else if significand ≠ 0 ∧ 0 < written then none
  else return (.float ⟨if negative then 0x8000000000000000 else 0⟩, rest)

/-- Reads a number behind its sign. -/
def readUnsigned (negative : Bool) (text : List Char) : Option (JsonNumber × List Char) :=
  let whole := text.takeWhile Char.isDigit
  let rest := text.dropWhile Char.isDigit
  if whole.isEmpty || (whole.head? = some '0' && whole.length ≠ 1) then none
  else
    let (significand, kept) := appendDigits 0 whole
    let dropped := whole.length - kept
    match rest with
    | '.' :: tail =>
      let fraction := tail.takeWhile Char.isDigit
      if fraction.isEmpty then none
      else
        let (significand, places) := appendDigits significand fraction
        finishFloat negative significand ((dropped : Int) - places) (tail.dropWhile Char.isDigit)
    | _ =>
      if dropped = 0 ∧ rest.head? ≠ some 'e' ∧ rest.head? ≠ some 'E' then
        some (ofSignificand negative significand, rest)
      else finishFloat negative significand dropped rest

/-- Reads a number: its value, and the rest of the text. -/
def readNumber : List Char → Option (JsonNumber × List Char)
  | '-' :: rest => readUnsigned true rest
  | text => readUnsigned false text

def readUnit : List Char → Option (Nat × List Char)
  | a :: b :: c :: d :: rest => do
    let a ← Text.hexValue? a
    let b ← Text.hexValue? b
    let c ← Text.hexValue? c
    let d ← Text.hexValue? d
    return (((a * 16 + b) * 16 + c) * 16 + d, rest)
  | _ => none

/-- Reads the digits of a `\u` escape. Two escapes that are the halves of one character stand for
it; a half alone is refused. -/
def readUnicode (text : List Char) : Option (Char × List Char) := do
  let (unit, rest) ← readUnit text
  if 0xDC00 ≤ unit && unit ≤ 0xDFFF then none
  else if 0xD800 ≤ unit && unit ≤ 0xDBFF then
    match rest with
    | '\\' :: 'u' :: more =>
      let (low, rest) ← readUnit more
      if 0xDC00 ≤ low && low ≤ 0xDFFF then
        return (Char.ofNat (0x10000 + (unit - 0xD800) * 0x400 + (low - 0xDC00)), rest)
      else none
    | _ => none
  else return (Char.ofNat unit, rest)

/-- Reads the letter behind a backslash, and what belongs to it. -/
def readEscape : List Char → Option (Char × List Char)
  | '"' :: rest => some ('"', rest)
  | '\\' :: rest => some ('\\', rest)
  | '/' :: rest => some ('/', rest)
  | 'b' :: rest => some ('\x08', rest)
  | 'f' :: rest => some ('\x0c', rest)
  | 'n' :: rest => some ('\n', rest)
  | 'r' :: rest => some ('\r', rest)
  | 't' :: rest => some ('\t', rest)
  | 'u' :: rest => readUnicode rest
  | _ => none

/-- Reads a string behind its opening quote; every character that is read uses up one step. -/
def readString : Nat → List Char → Option (List Char × List Char)
  | 0, _ => none
  | steps + 1, text =>
    match text with
    | [] => none
    | '"' :: rest => some ([], rest)
    | '\\' :: rest => do
      let (c, rest) ← readEscape rest
      let (more, rest) ← readString steps rest
      return (c :: more, rest)
    | c :: rest =>
      if c.toNat < 32 then none
      else do
        let (more, rest) ← readString steps rest
        return (c :: more, rest)

/-- Reads a string that must stand at the start of the text. -/
def readQuoted : List Char → Option (String × List Char)
  | '"' :: rest => do
    let (text, rest) ← readString (rest.length + 1) rest
    return (String.ofList text, rest)
  | _ => none

/-- Drops a word that must stand at the start of the text. -/
def readWord (word : String) (text : List Char) : Option (List Char) :=
  if word.toList.isPrefixOf text then some (text.drop word.length) else none

mutual

/-- Reads a document that starts at the first character. Arrays and objects use up one level each;
every call uses up one step. -/
def readValue : Nat → Nat → List Char → Option (Json × List Char)
  | 0, _, _ => none
  | steps + 1, levels, text =>
    match text with
    | '"' :: _ => (readQuoted text).map fun (s, rest) => (.string s, rest)
    | 'n' :: _ => (readWord "null" text).map fun rest => (.null, rest)
    | 't' :: _ => (readWord "true" text).map fun rest => (.bool true, rest)
    | 'f' :: _ => (readWord "false" text).map fun rest => (.bool false, rest)
    | '[' :: rest =>
      if levels ≤ 1 then none
      else
        match skipBlanks rest with
        | ']' :: rest => some (.array [], rest)
        | rest => (readItems steps (levels - 1) rest).map fun (items, rest) => (.array items, rest)
    | '\x7b' :: rest =>
      if levels ≤ 1 then none
      else
        match skipBlanks rest with
        | '\x7d' :: rest => some (.object [], rest)
        | rest => (readFields steps (levels - 1) rest).map fun (fields, rest) =>
          (ofFields fields, rest)
    | _ => (readNumber text).map fun (n, rest) => (.number n, rest)

/-- Reads the items of an array, up to its closing bracket. -/
def readItems : Nat → Nat → List Char → Option (List Json × List Char)
  | 0, _, _ => none
  | steps + 1, levels, text => do
    let (item, rest) ← readValue steps levels text
    match skipBlanks rest with
    | ']' :: rest => return ([item], rest)
    | ',' :: rest =>
      let (items, rest) ← readItems steps levels (skipBlanks rest)
      return (item :: items, rest)
    | _ => none

/-- Reads the fields of an object, up to its closing brace. -/
def readFields : Nat → Nat → List Char → Option (List (String × Json) × List Char)
  | 0, _, _ => none
  | steps + 1, levels, text => do
    let (name, rest) ← readQuoted text
    match skipBlanks rest with
    | ':' :: rest =>
      let (value, rest) ← readValue steps levels (skipBlanks rest)
      match skipBlanks rest with
      | '\x7d' :: rest => return ([(name, value)], rest)
      | ',' :: rest =>
        let (fields, rest) ← readFields steps levels (skipBlanks rest)
        return ((name, value) :: fields, rest)
      | _ => none
    | _ => none

end

/-- The depth at which nesting is refused. -/
def maxDepth : Nat := 128

/-- Reads a whole text as one document. Each step but the last uses up a character, so there are
enough of them. -/
def parseChars? (text : List Char) : Option Json := do
  let (document, rest) ← readValue (2 * text.length + 2) maxDepth (skipBlanks text)
  if (skipBlanks rest).isEmpty then some document else none

/-- Reads a whole text as one document. -/
def parse? (text : String) : Option Json :=
  parseChars? text.toList

end Json

end PgToolkit
