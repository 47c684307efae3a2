import PgToolkit.Number.Decimal
import PgToolkit.Wire.Bytes

/-!
# The binary form of exact numbers

An exact number travels as a count of groups, the weight of the first group, a word for the sign,
the number of fraction digits that are shown, and the groups: digits in base 10000, highest first.
The value is the sum of `group i * 10000 ^ (weight - i)`.
-/

namespace PgToolkit.Wire

open Number

-- A power is the core library's, also where a general one is in scope.
attribute [local instance (high)] instPowNat

/-- The base in which exact numbers travel. -/
def groupBase : Nat := 10000

/-- The word of the sign of a negative number. -/
def negativeSign : Nat := 0x4000

/-- From here on the word of the sign stands for no number but for infinity or the lack of one. -/
def specialSign : Nat := 0xC000

/-- The digits of a number in base 10000, lowest first, without zeros at the end. -/
def lowGroups (n : Nat) : List Nat :=
  if n = 0 then [] else n % groupBase :: lowGroups (n / groupBase)
termination_by n
decreasing_by exact Nat.div_lt_self (by omega) (by decide)

/-- The digits of a number in base 10000, highest first, without zeros in front. -/
def groups (n : Nat) : List Nat := (lowGroups n).reverse

/-- Cuts off zeros at the end. -/
def withoutTrailingZeros (digits : List Nat) : List Nat :=
  (digits.reverse.dropWhile (· = 0)).reverse

/-- The groups of a number and the weight of the first one. Zero groups at the end of the fraction
are left out when there are groups before the point. -/
def numericGroups (mantissa scale : Nat) : List Nat × Int :=
  let places := (scale + 3) / 4
  let digits := groups (mantissa * 10 ^ (4 * places - scale))
  let whole := digits.length - places
  let weight : Int := (digits.length : Int) - places - 1
  let kept :=
    if 0 ≤ weight then digits.take whole ++ withoutTrailingZeros (digits.drop whole) else digits
  (kept, weight)

/-- The binary form of a number. Zero has no groups and shows no fraction digits. -/
def numericBytes (d : Decimal) : List UInt8 :=
  if d.mantissa = 0 then unsignedBytes 8 0
  else
    let (digits, weight) := numericGroups d.mantissa d.scale
    unsignedBytes 2 digits.length ++ signedBytes 2 weight ++
      unsignedBytes 2 (if d.negative then negativeSign else 0) ++ unsignedBytes 2 d.scale ++
      digits.flatMap (unsignedBytes 2)

/-- The parts of an exact number as it travels. -/
structure NumericParts where
  /-- The weight of the first group. -/
  weight : Int
  /-- The word of the sign. -/
  sign : Nat
  /-- The number of fraction digits that are shown. -/
  scale : Nat
  /-- Digits in base 10000, highest first. -/
  groups : List Nat
  deriving DecidableEq, Repr

/-- Reads two-byte words as many as `count` says. -/
def readWords : Nat → List UInt8 → Option (List Nat)
  | 0, _ => some []
  | count + 1, bytes => do
    let (word, rest) ← split? 2 bytes
    return unsignedOf word :: (← readWords count rest)

/-- Takes the binary form of a number apart. Bytes behind the last group are ignored. -/
def readNumericParts (bytes : List UInt8) : Option NumericParts := do
  let (count, rest) ← split? 2 bytes
  let (weight, rest) ← split? 2 rest
  let (sign, rest) ← split? 2 rest
  let (scale, rest) ← split? 2 rest
  return {
    weight := signedOf weight
    sign := unsignedOf sign
    scale := unsignedOf scale
    groups := ← readWords (unsignedOf count) rest
  }

/-- The number `mantissa / 10 ^ scale` with a mantissa of 96 bits and at most as many fraction
digits as are counted: digits at the end are rounded off, a half to the even neighbour. -/
def fitMantissa (mantissa scale : Nat) : Nat → Option (Nat × Nat)
  | 0 =>
    let rounded := divRoundEven mantissa (10 ^ scale)
    if rounded < mantissaSize then some (rounded, 0) else none
  | kept + 1 =>
    let rounded := divRoundEven mantissa (10 ^ (scale - (kept + 1)))
    if rounded < mantissaSize then some (rounded, kept + 1) else fitMantissa mantissa scale kept

/-- The sum of two numbers without sign, rounded to as many fraction digits as fit. -/
def addFitting (x y : Nat × Nat) : Option (Nat × Nat) :=
  let scale := max x.2 y.2
  fitMantissa (x.1 * 10 ^ (scale - x.2) + y.1 * 10 ^ (scale - y.2)) scale scale

/-- Adds the groups of a fraction to a number; `place` counts the groups behind the point. Groups
beyond the last place of a decimal only round it. -/
def addFraction (sum : Nat × Nat) (place : Nat) : List Nat → Option (Nat × Nat)
  | [] => some sum
  | group :: rest => do
    let sum ←
      if place < 7 then addFitting sum (group, 4 * (place + 1))
      else if place = 7 ∧ 5000 ≤ group then addFitting sum (1, 28)
      else some sum
    addFraction sum (place + 1) rest

/-- The part in front of the point: the groups there, with zeros for those that are left out behind
them. A power of the base beyond the seventh has no decimal, even as the factor of zero. -/
def integerPart? (whole : Nat) (groups : List Nat) : Option Nat :=
  let shown := groups.take whole
  let missing := whole - shown.length
  if 7 < missing then none
  else
    let integer := shown.foldl (fun n group => n * groupBase + group) 0 * groupBase ^ missing
    if integer < mantissaSize then some integer else none

/-- The decimal that the parts stand for, with as many fraction digits as they show; there is none
for what is no number or too large. -/
def NumericParts.toDecimal? (parts : NumericParts) : Option Decimal := do
  if specialSign ≤ parts.sign then none
  let whole := (parts.weight + 1).toNat
  let integer ← integerPart? whole parts.groups
  let (mantissa, scale) ←
    addFraction (integer, 0) (-(parts.weight + 1)).toNat (parts.groups.drop whole)
  let (mantissa, scale) := Decimal.rescaleParts mantissa scale parts.scale
  Decimal.ofParts? (parts.sign = negativeSign) mantissa scale

end PgToolkit.Wire
