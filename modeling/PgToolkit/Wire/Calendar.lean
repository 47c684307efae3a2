import PgToolkit.Time.Instant

/-!
# Instants and days in binary form

Instants travel as microseconds, dates as days, both counted from 1 January 2000.
-/

namespace PgToolkit.Wire

open Time

/-- Seconds from 1 January 1970 to 1 January 2000. -/
def epochSeconds : Int := 946684800

/-- Days from 1 January 1970 to 1 January 2000. -/
def epochDays : Int := 10957

/-- The microseconds of an instant, cut off toward the start of the count. A leap second counts with
the second before it. -/
def microseconds (t : Instant) : Int :=
  ((t.seconds - epochSeconds) * 1000000000 + t.nanos).tdiv 1000

/-- The instant with this count of microseconds, when its year is representable. -/
def ofMicroseconds? (count : Int) : Option Instant :=
  Instant.ofParts? (epochSeconds + count / 1000000) ((count % 1000000).toNat * 1000)

/-- The count of the day of an instant. -/
def dayCount (t : Instant) : Int := t.day - epochDays

/-- The midnight at which the day with this count starts, when its year is representable. -/
def ofDayCount? (count : Int) : Option Instant :=
  Instant.ofParts? ((epochDays + count) * 86400) 0

end PgToolkit.Wire
