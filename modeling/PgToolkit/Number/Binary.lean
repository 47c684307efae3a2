/-!
# Binary floating-point words

Floating-point numbers are kept as the words of IEEE 754 and read as exact numbers
`significand * 2 ^ exponent`, so that every operation on them is arithmetic on natural numbers.
-/

namespace PgToolkit.Number

-- A power is the core library's, also where a general one is in scope.
attribute [local instance (high)] instPowNat

/-- The quotient of two natural numbers rounded to the nearest one; a half goes to the even
neighbour. -/
def divRoundEven (num den : Nat) : Nat :=
  let quotient := num / den
  let rest := num % den
  if den < 2 * rest ∨ (2 * rest = den ∧ quotient % 2 = 1) then quotient + 1 else quotient

/-- The parameters of a binary interchange format. -/
structure Format where
  /-- Bits of the significand, the hidden bit included. -/
  precision : Nat
  /-- Bits of the exponent field. -/
  exponentBits : Nat

namespace Format

/-- The format with words of 64 bits. -/
def binary64 : Format := ⟨53, 11⟩

/-- The format with words of 32 bits. -/
def binary32 : Format := ⟨24, 8⟩

/-- Bits of the fraction field. -/
def fractionBits (f : Format) : Nat := f.precision - 1

/-- The exponent field of infinities and of what is not a number. -/
def topField (f : Format) : Nat := 2 ^ f.exponentBits - 1

/-- The exponent of the last place of the smallest numbers. -/
def minExponent (f : Format) : Int :=
  3 - (2 ^ (f.exponentBits - 1) : Nat) - f.precision

/-- The word of infinity, without its sign. -/
def infinity (f : Format) : Nat := f.topField * 2 ^ f.fractionBits

/-- The bit that marks a negative number. -/
def signBit (f : Format) : Nat := 2 ^ (f.fractionBits + f.exponentBits)

/-- The top bit of the fraction, which marks what is not a number as quiet. -/
def quietBit (f : Format) : Nat := 2 ^ (f.fractionBits - 1)

/-- The largest `k` with `2 ^ k ≤ num / den`, for positive arguments. -/
def floorLog2 (num den : Nat) : Int :=
  let guess : Int := (num.log2 : Int) - (den.log2 : Int)
  let reached :=
    if 0 ≤ guess then den * 2 ^ guess.toNat ≤ num else den ≤ num * 2 ^ (-guess).toNat
  if reached then guess else guess - 1

/-- The word without sign of the positive number `num / den`, rounded to nearest with ties to even;
numbers beyond the largest finite one become infinity. -/
def round (f : Format) (num den : Nat) : Nat :=
  if num = 0 then 0
  else
    let exponent := max (floorLog2 num den - f.fractionBits) f.minExponent
    let significand :=
      if 0 ≤ exponent then divRoundEven num (den * 2 ^ exponent.toNat)
      else divRoundEven (num * 2 ^ (-exponent).toNat) den
    min ((exponent - f.minExponent).toNat * 2 ^ f.fractionBits + significand) f.infinity

/-- The fraction field of a word. -/
def fraction (f : Format) (word : Nat) : Nat := word % 2 ^ f.fractionBits

/-- The exponent field of a word. -/
def field (f : Format) (word : Nat) : Nat := word / 2 ^ f.fractionBits % 2 ^ f.exponentBits

/-- The significand of a finite word. -/
def significand (f : Format) (word : Nat) : Nat :=
  if f.field word = 0 then f.fraction word else f.fraction word + 2 ^ f.fractionBits

/-- The exponent of a finite word: its magnitude is `significand * 2 ^ exponent`. -/
def exponent (f : Format) (word : Nat) : Int :=
  f.minExponent + ((f.field word - 1 : Nat) : Int)

end Format

/-- A number in double precision, given by its word. -/
structure Binary64 where
  /-- Sign, exponent and fraction, from the highest bit on. -/
  bits : UInt64
  deriving DecidableEq, Repr

/-- A number in single precision, given by its word. -/
structure Binary32 where
  /-- Sign, exponent and fraction, from the highest bit on. -/
  bits : UInt32
  deriving DecidableEq, Repr

/-- The numerator of `significand * 2 ^ exponent`. -/
def scaledNum (significand : Nat) (exponent : Int) : Nat := significand * 2 ^ exponent.toNat

/-- The denominator of `significand * 2 ^ exponent`. -/
def scaledDen (exponent : Int) : Nat := 2 ^ (-exponent).toNat

/-- The bits of a fraction in double precision that single precision has no room for. -/
def extraBits : Nat := Format.binary64.fractionBits - Format.binary32.fractionBits

namespace Binary64

/-- Whether the sign bit is set. -/
def isNegative (x : Binary64) : Bool := Format.binary64.signBit ≤ x.bits.toNat

/-- Neither infinite nor undefined. -/
def isFinite (x : Binary64) : Bool :=
  Format.binary64.field x.bits.toNat != Format.binary64.topField

def isNaN (x : Binary64) : Bool :=
  !x.isFinite && Format.binary64.fraction x.bits.toNat != 0

/-- Positive or negative infinity. -/
def isInfinite (x : Binary64) : Bool :=
  !x.isFinite && Format.binary64.fraction x.bits.toNat == 0

/-- The significand of a finite number. -/
def significand (x : Binary64) : Nat := Format.binary64.significand x.bits.toNat

def exponent (x : Binary64) : Int := Format.binary64.exponent x.bits.toNat

def isZero (x : Binary64) : Bool := x.isFinite && x.significand == 0

/-- The number with the given sign whose word without sign is given. -/
def ofMagnitude (negative : Bool) (word : Nat) : Binary64 :=
  ⟨UInt64.ofNat (if negative then word + Format.binary64.signBit else word)⟩

/-- The quiet word that stands for what is not a number. -/
def nan : Binary64 := ⟨0x7ff8000000000000⟩

/-- The rational `± num / den`, rounded to the nearest number with ties to even. -/
def ofRatio (negative : Bool) (num den : Nat) : Binary64 :=
  ofMagnitude negative (Format.binary64.round num den)

/-- An integer, rounded to the nearest number with ties to even. -/
def ofInt (i : Int) : Binary64 := ofRatio (i < 0) i.natAbs 1

/-- The number with the other sign. -/
def neg (x : Binary64) : Binary64 := ⟨x.bits ^^^ 0x8000000000000000⟩

/-- Equality of numbers: both zeros are equal, and what is not a number equals nothing. -/
def eq (x y : Binary64) : Bool :=
  !x.isNaN && !y.isNaN && (x.bits == y.bits || (x.isZero && y.isZero))

/-- The product of two finite numbers, correctly rounded. -/
def mul (x y : Binary64) : Binary64 :=
  let exponent := x.exponent + y.exponent
  ofRatio (x.isNegative != y.isNegative)
    (scaledNum (x.significand * y.significand) exponent) (scaledDen exponent)

/-- The quotient of two finite numbers, correctly rounded; the divisor is not zero. -/
def div (x y : Binary64) : Binary64 :=
  let exponent := x.exponent - y.exponent
  ofRatio (x.isNegative != y.isNegative)
    (scaledNum x.significand exponent) (y.significand * scaledDen exponent)

/-- The nearest number in single precision. What is not a number keeps the top bits of its fraction
and becomes quiet. -/
def narrow (x : Binary64) : Binary32 :=
  let sign : Nat := if x.isNegative then Format.binary32.signBit else 0
  let word :=
    if x.isFinite then
      Format.binary32.round (scaledNum x.significand x.exponent) (scaledDen x.exponent)
    else if x.isNaN then
      Format.binary32.infinity +
        (Format.binary64.fraction x.bits.toNat / 2 ^ extraBits ||| Format.binary32.quietBit)
    else Format.binary32.infinity
  ⟨UInt32.ofNat (sign + word)⟩

end Binary64

namespace Binary32

/-- Whether the sign bit is set. -/
def isNegative (x : Binary32) : Bool := Format.binary32.signBit ≤ x.bits.toNat

/-- An integer, rounded to the nearest number with ties to even. -/
def ofInt (i : Int) : Binary32 :=
  let word := Format.binary32.round i.natAbs 1
  ⟨UInt32.ofNat (if i < 0 then word + Format.binary32.signBit else word)⟩

/-- The same number in double precision. What is not a number becomes quiet. -/
def widen (x : Binary32) : Binary64 :=
  let word := x.bits.toNat
  let fraction := Format.binary32.fraction word
  if Format.binary32.field word = Format.binary32.topField then
    Binary64.ofMagnitude x.isNegative
      (Format.binary64.infinity +
        (if fraction = 0 then 0 else (fraction ||| Format.binary32.quietBit) * 2 ^ extraBits))
  else
    Binary64.ofRatio x.isNegative
      (scaledNum (Format.binary32.significand word) (Format.binary32.exponent word))
      (scaledDen (Format.binary32.exponent word))

end Binary32

end PgToolkit.Number
