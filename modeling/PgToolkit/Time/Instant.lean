import PgToolkit.Time.Civil

/-!
# Instants

A point in time in UTC: whole seconds since 1 January 1970 and nanoseconds. An instant within a
leap second belongs to the second before it and has a billion nanoseconds or more. Years reach
from -262143 to 262142.
-/

namespace PgToolkit.Time

/-- The second at which the first representable year starts. -/
def minSeconds : Int := Civil.toDays ⟨-262143, 1, 1⟩ * 86400

/-- The last second of the last representable year. -/
def maxSeconds : Int := Civil.toDays ⟨262142, 12, 31⟩ * 86400 + 86399

/-- A point in time. -/
structure Instant where
  /-- Whole seconds since 1 January 1970. -/
  seconds : Int
  /-- Nanoseconds; a leap second has a billion or more. -/
  nanos : Nat
  seconds_mem : minSeconds ≤ seconds ∧ seconds ≤ maxSeconds
  /-- A leap second ends after one second. -/
  nanos_lt : nanos < 2000000000
  deriving DecidableEq, Repr

namespace Instant

/-- The instant with these parts, if they are in range. -/
def ofParts? (seconds : Int) (nanos : Nat) : Option Instant :=
  if hs : minSeconds ≤ seconds ∧ seconds ≤ maxSeconds then
    if hn : nanos < 2000000000 then some ⟨seconds, nanos, hs, hn⟩ else none
  else none

/-- The day of an instant, counted from 1 January 1970. -/
def day (t : Instant) : Int := t.seconds / 86400

def date (t : Instant) : Civil := Civil.ofDays t.day

/-- The time of day, up to the seconds; a leap second is the sixtieth. -/
def clockText (t : Instant) : String :=
  let second := (t.seconds % 86400).toNat
  let shown := if 1000000000 ≤ t.nanos then second % 60 + 1 else second % 60
  padded 2 (second / 3600) ++ ":" ++ padded 2 (second / 60 % 60) ++ ":" ++ padded 2 shown

def fraction (t : Instant) : Nat := t.nanos % 1000000000

/-- The fraction of a second with the fewest of 3, 6 or 9 digits that are exact; nothing when it is
zero. -/
def fractionText (nanos : Nat) : String :=
  if nanos = 0 then ""
  else if nanos % 1000000 = 0 then "." ++ padded 3 (nanos / 1000000)
  else if nanos % 1000 = 0 then "." ++ padded 6 (nanos / 1000)
  else "." ++ padded 9 nanos

/-- The instant with the digits it needs and a numeric zone. -/
def rfc3339 (t : Instant) : String :=
  t.date.text ++ "T" ++ t.clockText ++ fractionText t.fraction ++ "+00:00"

/-- The instant cut to milliseconds, with the zone letter. -/
def millis (t : Instant) : String :=
  t.date.text ++ "T" ++ t.clockText ++ "." ++ padded 3 (t.fraction / 1000000) ++ "Z"

end Instant

end PgToolkit.Time
