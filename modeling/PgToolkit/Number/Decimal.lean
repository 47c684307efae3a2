import PgToolkit.Number.Binary
import PgToolkit.Text.Digits

/-!
# Decimal numbers

Exact decimal numbers with a mantissa of 96 bits and up to 28 fraction digits. A number keeps its
scale, so `1.50` and `1.5` have different texts although they are equal.
-/

namespace PgToolkit.Number

-- A power is the core library's, also where a general one is in scope.
attribute [local instance (high)] instPowNat

/-- The number of mantissas of 96 bits. -/
abbrev mantissaSize : Nat := 2 ^ (96 : Nat)

/-- A decimal number `± mantissa / 10 ^ scale`. -/
structure Decimal where
  /-- Whether a minus sign is written. -/
  negative : Bool
  mantissa : Nat
  /-- The number of digits behind the point. -/
  scale : Nat
  /-- The mantissa has at most 96 bits. -/
  mantissa_lt : mantissa < mantissaSize
  /-- There are at most 28 fraction digits. -/
  scale_le : scale ≤ 28
  deriving DecidableEq, Repr

namespace Decimal

/-- Why a text is refused as a decimal number. -/
inductive Fault where
  | empty
  | unknownCharacter
  | leadingUnderscore
  | noDigits
  | twoPoints
  | tooManyDigits
  | overflowAfterRounding
  | exponent
  | scaleTooLarge (scale : Nat)
  | tooLarge
  deriving DecidableEq, Repr

def Fault.message : Fault → String
  | .empty => "Invalid decimal: empty"
  | .unknownCharacter => "Invalid decimal: unknown character"
  | .leadingUnderscore => "Invalid decimal: must start lead with a number"
  | .noDigits => "Invalid decimal: no digits found"
  | .twoPoints => "Invalid decimal: two decimal points"
  | .tooManyDigits => "Invalid decimal: overflow from too many digits"
  | .overflowAfterRounding => "Invalid decimal: overflow from mantissa after rounding"
  | .exponent => "Failed to parse"
  | .scaleTooLarge scale =>
    "Scale exceeds the maximum precision allowed: " ++ toString scale ++ " > 28"
  | .tooLarge => "Number exceeds maximum value that can be represented."

/-- The number with these parts, if they are in range. -/
def ofParts? (negative : Bool) (mantissa scale : Nat) : Option Decimal :=
  if hm : mantissa < mantissaSize then
    if hs : scale ≤ 28 then some ⟨negative, mantissa, scale, hm, hs⟩ else none
  else none

/-- A word as a decimal number without fraction digits. -/
def ofInt64 (i : Int64) : Decimal where
  negative := i.toInt < 0
  mantissa := i.toInt.natAbs
  scale := 0
  mantissa_lt := by
    have hlow := Int64.le_toInt i
    have hhigh := Int64.toInt_lt i
    unfold mantissaSize
    omega
  scale_le := by omega

/-- The digits of a mantissa, with enough zeros in front for one digit before the point. -/
def paddedDigits (mantissa scale : Nat) : List Char :=
  let digits := Nat.toDigits 10 mantissa
  List.replicate (scale + 1 - digits.length) '0' ++ digits

/-- The text of a number: all its digits, `scale` of them behind the point. -/
def text (d : Decimal) : String :=
  let digits := paddedDigits d.mantissa d.scale
  let whole := digits.take (digits.length - d.scale)
  let fraction := digits.drop (digits.length - d.scale)
  let sign := if d.negative then ['-'] else []
  String.ofList (sign ++ whole ++ if d.scale = 0 then [] else '.' :: fraction)

/-- What has been read of a text. -/
structure Reading where
  mantissa : Nat := 0
  scale : Nat := 0
  point : Bool := false
  digits : Bool := false

/-- Rounds a reading at the first digit that finds no place any more. -/
def Reading.round (r : Reading) (digit : Nat) : Except Fault Reading :=
  if digit < 5 then .ok r
  else if r.mantissa + 1 < mantissaSize then .ok { r with mantissa := r.mantissa + 1 }
  else if r.scale = 0 then .error .overflowAfterRounding
  else .ok { r with mantissa := (r.mantissa + 5) / 10, scale := r.scale - 1 }

/-- Below this a mantissa is short: with one more digit it stays in a word of 64 bits, with 255
tens to spare. -/
def shortMantissa : Nat := (UInt64.size - 1) / 10 - 255

/-- Rounds a reading at a text that finds no place behind the point any more. Only digits and
underscores may stand in it. The first digit decides; but when the mantissa was short in front of
its last digit, an underscore at once behind that digit counts as the digit zero. -/
def Reading.roundAt (r : Reading) (text : List Char) : Except Fault Reading :=
  match text.find? fun c => !(c.isDigit || c = '_') with
  | some c => .error (if c = '.' then .twoPoints else .unknownCharacter)
  | none =>
    if text.head? = some '_' ∧ r.mantissa / 10 < shortMantissa then .ok r
    else
      match text.find? Char.isDigit with
      | some c => r.round (Text.digitValue c)
      | none => .ok r

/-- Reads the digits behind the sign. Underscores may stand behind the first digit. Digits that
find no place behind the point are cut off after rounding at the first of them. -/
def readDigits (r : Reading) : List Char → Except Fault Reading
  | [] => if r.digits then .ok r else .error .noDigits
  | c :: rest =>
    if r.point ∧ 28 ≤ r.scale then r.roundAt (c :: rest)
    else if c.isDigit then
      let grown := r.mantissa * 10 + Text.digitValue c
      if grown < mantissaSize then
        readDigits
          { r with mantissa := grown, scale := if r.point then r.scale + 1 else 0, digits := true }
          rest
      else if r.point then r.roundAt (c :: rest)
      else .error .tooManyDigits
    else if c = '.' then
      if r.point then .error .twoPoints else readDigits { r with point := true } rest
    else if c = '_' then
      if r.digits then readDigits r rest else .error .leadingUnderscore
    else .error .unknownCharacter

/-- The number that has been read, with its sign; zero has none. -/
def Reading.finish (r : Reading) (negative : Bool) : Except Fault Decimal :=
  match ofParts? (negative && r.mantissa != 0) r.mantissa r.scale with
  | some d => .ok d
  | none => .error .tooManyDigits

/-- Reads a number without exponent. -/
def parsePlain : List Char → Except Fault Decimal
  | [] => .error .empty
  | '-' :: rest => do (← readDigits {} rest).finish true
  | '+' :: rest => do (← readDigits {} rest).finish false
  | text => do (← readDigits {} text).finish false

/-- Reads an exponent: a natural number of 32 bits; a plus sign may stand in front. -/
def parseExponent (text : List Char) : Except Fault Nat :=
  match Text.naturalOf? text with
  | some n => if n < UInt32.size then .ok n else .error .exponent
  | none => .error .exponent

/-- The quotient of a natural number by `10 ^ places`, a half rounded up. -/
def dropDigits (n places : Nat) : Nat :=
  (n / 10 ^ (places - 1) + 5) / 10

theorem dropDigits_lt {n : Nat} (h : n < mantissaSize) (places : Nat) :
    dropDigits n places < mantissaSize := by
  have := Nat.div_le_self n (10 ^ (places - 1))
  unfold dropDigits mantissaSize at *
  omega

/-- The number with at most as many fraction digits as are asked for; digits at the end are rounded
off, a half away from zero. -/
def roundPlaces (d : Decimal) (places : Nat) : Decimal :=
  if h : places < d.scale then
    { d with
      mantissa := dropDigits d.mantissa (d.scale - places)
      scale := places
      mantissa_lt := dropDigits_lt d.mantissa_lt _
      scale_le := by have := d.scale_le; omega }
  else d

/-- The number with the same mantissa and another scale. -/
def withScale (d : Decimal) (scale : Nat) : Except Fault Decimal :=
  if h : scale ≤ 28 then .ok { d with scale := scale, scale_le := h }
  else .error (.scaleTooLarge scale)

/-- The number times a power of ten. A negative exponent adds fraction digits and rounds off those
behind the 28th. A positive exponent first uses up the fraction digits and then adds zeros; the
result then has no fraction digits. -/
def shift (d : Decimal) (negative : Bool) (exponent : Nat) : Except Fault Decimal :=
  if negative then
    if 28 < exponent then .error (.scaleTooLarge exponent)
    else
      let rounded := d.roundPlaces (28 - exponent)
      rounded.withScale (rounded.scale + exponent)
  else if exponent ≤ d.scale then d.withScale (d.scale - exponent)
  else if 28 < exponent then .error (.scaleTooLarge exponent)
  else
    match ofParts? d.negative (d.mantissa * 10 ^ (exponent - d.scale)) 0 with
    | some shifted => .ok shifted
    | none => .error .tooLarge

/-- Reads a decimal number: an optional sign, digits with at most one point, and optionally `e` or
`E` and an exponent. -/
def parse (text : String) : Except Fault Decimal := do
  let isMark (c : Char) : Bool := c = 'e' || c = 'E'
  let base ← parsePlain (text.toList.takeWhile (!isMark ·))
  match text.toList.dropWhile (!isMark ·) with
  | [] => return base
  | _ :: '-' :: exponent => base.shift true (← parseExponent exponent)
  | _ :: exponent => base.shift false (← parseExponent exponent)

/-- Multiplies a mantissa by ten up to `places` times, as far as it stays below 96 bits: the new
mantissa and the places that found no room. -/
def appendZeros (mantissa : Nat) : Nat → Nat × Nat
  | 0 => (mantissa, 0)
  | places + 1 =>
    if mantissa * 10 < mantissaSize then appendZeros (mantissa * 10) places
    else (mantissa, places + 1)

/-- The parts of a number with the given scale: fraction digits are cut off after rounding, or zeros
are added as far as the mantissa has room. -/
def rescaleParts (mantissa scale target : Nat) : Nat × Nat :=
  if mantissa = 0 then (0, min target 28)
  else if target < scale then (dropDigits mantissa (scale - target), target)
  else
    let (grown, missing) := appendZeros mantissa (min target 28 - scale)
    (grown, min target 28 - missing)

/-- The number as the nearest one in double precision. Zero without fraction digits has no sign. -/
def toBinary64 (d : Decimal) : Binary64 :=
  Binary64.ofRatio (d.negative && (d.mantissa != 0 || d.scale != 0)) d.mantissa (10 ^ d.scale)

/-- Equality of the numbers, whatever their scales. -/
def eq (d e : Decimal) : Bool :=
  d.mantissa * 10 ^ e.scale == e.mantissa * 10 ^ d.scale &&
    (d.negative == e.negative || d.mantissa == 0)

end Decimal

end PgToolkit.Number
