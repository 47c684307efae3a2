import PgToolkit.Number.Binary

/-!
# Shortest decimal digits

A finite number in double precision is written with the fewest decimal digits that read back as the
same number, and with the closest such digits. The digits are found by trying decimal grids from
coarse to fine: on each, only the two neighbours of the number can be the closest point, and they
are compared with the interval of reals that round to the number.
-/

namespace PgToolkit.Number

-- A power is the core library's, also where a general one is in scope.
attribute [local instance (high)] instPowNat

/-- The choice between two decimal numbers that are equally close. -/
inductive Tie where
  /-- The larger one. -/
  | up
  /-- The one whose last digit is even. -/
  | even
  deriving DecidableEq, Repr

/-- A positive number and the bounds of the reals that round to it, each a multiple of
`unitNum / unitDen`. -/
structure Interval where
  /-- Numerator of the unit. -/
  unitNum : Nat
  /-- Denominator of the unit. -/
  unitDen : Nat
  /-- The lower bound. -/
  low : Nat
  value : Nat
  /-- The upper bound. -/
  high : Nat
  /-- Whether the bounds themselves round to the number. -/
  closed : Bool

namespace Interval

/-- The interval of a positive finite number. It reaches half a unit in the last place to both
sides, but only a quarter down to the numbers with smaller exponents. -/
def ofFinite (x : Binary64) : Interval :=
  let m := x.significand
  let q := x.exponent - 2
  let narrowBelow := m = 2 ^ Format.binary64.fractionBits ∧ Format.binary64.minExponent < x.exponent
  { unitNum := scaledNum 1 q
    unitDen := scaledDen q
    low := if narrowBelow then 4 * m - 1 else 4 * m - 2
    value := 4 * m
    high := 4 * m + 2
    closed := m % 2 = 0 }

/-- Whether the decimal number `digits * 10 ^ k` rounds to the number. -/
def holds (i : Interval) (digits : Nat) (k : Int) : Bool :=
  let point := digits * 10 ^ k.toNat * i.unitDen
  let unit := i.unitNum * 10 ^ (-k).toNat
  if i.closed then i.low * unit ≤ point && point ≤ i.high * unit
  else i.low * unit < point && point < i.high * unit

/-- The number of steps of `10 ^ k` that lie below the number or at it. -/
def floorAt (i : Interval) (k : Int) : Nat :=
  i.value * i.unitNum * 10 ^ (-k).toNat / (i.unitDen * 10 ^ k.toNat)

/-- Compares the distances of the number from its two neighbours on the grid of `10 ^ k`: less when
the lower one, at `digits`, is closer. -/
def compareNeighbours (i : Interval) (digits : Nat) (k : Int) : Ordering :=
  compare (2 * i.value * i.unitNum * 10 ^ (-k).toNat)
    ((2 * digits + 1) * 10 ^ k.toNat * i.unitDen)

/-- The closest point of the grid of `10 ^ k` that rounds to the number, if there is one. -/
def pointAt? (i : Interval) (tie : Tie) (k : Int) : Option Nat :=
  let digits := i.floorAt k
  match i.holds digits k, i.holds (digits + 1) k with
  | false, false => none
  | true, false => some digits
  | false, true => some (digits + 1)
  | true, true =>
    match i.compareNeighbours digits k with
    | .lt => some digits
    | .gt => some (digits + 1)
    | .eq =>
      match tie with
      | .up => some (digits + 1)
      | .even => some (if digits % 2 = 0 then digits else digits + 1)

end Interval

/-- A power of ten at or above every positive finite number with this significand and exponent. -/
def decimalCeiling (significand : Nat) (exponent : Int) : Int :=
  ((significand.log2 : Int) + exponent + 1) * 30103 / 100000 + 1

/-- Drops the zeros at the end of a decimal number and counts them into its exponent. -/
def dropTrailingZeros (digits : Nat) (k : Int) : Nat → Nat × Int
  | 0 => (digits, k)
  | fuel + 1 =>
    if digits % 10 = 0 then dropTrailingZeros (digits / 10) (k + 1) fuel else (digits, k)

/-- The fewest digits that read back as the given positive finite number, closest first: the pair
`(d, k)` stands for `d * 10 ^ k`. -/
def shortest (x : Binary64) (tie : Tie) : Nat × Int :=
  let interval := Interval.ofFinite x
  let top := decimalCeiling x.significand x.exponent
  let found := (List.range 24).findSome? fun (step : Nat) =>
    (interval.pointAt? tie (top - step)).map fun digits => (digits, top - (step : Int))
  match found with
  | some (digits, k) => dropTrailingZeros digits k 24
  | none => (0, 0)

/-- How the digits of a number become text. -/
structure FloatLayout where
  /-- Whether a number whose first digit has this decimal exponent is written without one. -/
  positional : Int → Bool
  /-- What follows the digits of an integral number that is written without an exponent. -/
  whole : String
  tie : Tie
  /-- The text of what is not a number. -/
  nan : String
  /-- The text of infinity, without its sign. -/
  infinity : String

namespace FloatLayout

/-- The text `digits * 10 ^ (exponent - length + 1)` without an exponent: `exponent` is that of the
first digit. -/
def positionalText (layout : FloatLayout) (digits : List Char) (exponent : Int) : List Char :=
  if exponent < 0 then
    '0' :: '.' :: (List.replicate (-exponent - 1).toNat '0' ++ digits)
  else if digits.length ≤ exponent.toNat + 1 then
    digits ++ List.replicate (exponent.toNat + 1 - digits.length) '0' ++ layout.whole.toList
  else digits.take (exponent.toNat + 1) ++ '.' :: digits.drop (exponent.toNat + 1)

/-- The digits with a point behind the first one and a signed exponent. -/
def scientificText (digits : List Char) (exponent : Int) : List Char :=
  let mantissa :=
    match digits with
    | first :: more@(_ :: _) => first :: '.' :: more
    | short => short
  mantissa ++ 'e' :: (if exponent < 0 then '-' else '+') :: (toString exponent.natAbs).toList

/-- The text of a positive finite number, or of zero. -/
def magnitude (layout : FloatLayout) (x : Binary64) : List Char :=
  if x.significand = 0 then '0' :: layout.whole.toList
  else
    let (digits, k) := shortest x layout.tie
    let digits := Nat.toDigits 10 digits
    let exponent := k + (digits.length : Int) - 1
    if layout.positional exponent then layout.positionalText digits exponent
    else scientificText digits exponent

def text (layout : FloatLayout) (x : Binary64) : String :=
  if x.isNaN then layout.nan
  else
    let sign := if x.isNegative then "-" else ""
    if x.isInfinite then sign ++ layout.infinity
    else sign ++ String.ofList (layout.magnitude x)

end FloatLayout

end PgToolkit.Number
