import PgToolkit.Text.Blank
import PgToolkit.Text.Digits
import PgToolkit.Time.Instant

/-!
# Reading dates and instants

Instants are read in the form of RFC 3339, such as `2024-01-31T12:30:00.5+01:00`; dates as year,
month and day between hyphens.
-/

namespace PgToolkit.Time

-- A power is the core library's, also where a general one is in scope.
attribute [local instance (high)] instPowNat

/-- Why a text is refused as an instant. -/
inductive TimeFault where
  | tooShort
  | invalid
  | outOfRange
  | tooLong
  deriving DecidableEq, Repr

def TimeFault.message : TimeFault → String
  | .tooShort => "premature end of input"
  | .invalid => "input contains invalid characters"
  | .outOfRange => "input is out of range"
  | .tooLong => "trailing input"

/-- Reads exactly `width` digits. -/
def readNumber (width : Nat) (text : List Char) : Except TimeFault (Nat × List Char) :=
  let digits := text.take width
  if digits.length = width ∧ digits.all Char.isDigit then
    .ok (Text.digitsValue digits, text.drop width)
  else .error .invalid

/-- Reads one character out of `marks`. -/
def readMark (marks : List Char) : List Char → Except TimeFault (List Char)
  | [] => .error .tooShort
  | c :: rest => if marks.contains c then .ok rest else .error .invalid

/-- Reads a fraction of a second behind its point, in nanoseconds; digits past the ninth count for
nothing. -/
def readFraction (text : List Char) : Except TimeFault (Nat × List Char) :=
  let digits := text.takeWhile Char.isDigit
  match text with
  | [] => .error .tooShort
  | _ =>
    if digits.isEmpty then .error .invalid
    else
      let kept := digits.take 9
      .ok (Text.digitsValue kept * 10 ^ (9 - kept.length), text.dropWhile Char.isDigit)

/-- Whether a text has fewer than two bytes. -/
def isShort (text : List Char) : Bool := (String.ofList text).utf8ByteSize < 2

/-- Reads the hours and minutes of a zone, in minutes. -/
def readOffset (text : List Char) : Except TimeFault (Nat × List Char) := do
  if isShort text then throw .tooShort
  let (hours, text) ← readNumber 2 text
  let text ← readMark [':'] text
  if isShort text then throw .tooShort
  let (minutes, text) ← readNumber 2 text
  if 60 ≤ minutes then throw .outOfRange
  return (hours * 60 + minutes, text)

/-- Reads a zone: a letter for UTC, or a signed offset. The result is in minutes east. -/
def readZone : List Char → Except TimeFault (Int × List Char)
  | [] => .error .tooShort
  | c :: rest => do
    if c = 'Z' ∨ c = 'z' then return (0, rest)
    let (minutes, text) ← if c = '+' ∨ c = '-' ∨ c = '−' then readOffset rest else throw .invalid
    return (if c = '+' then (minutes : Int) else -(minutes : Int), text)

/-- Reads an instant. The date is checked before the time of day, and both before the zone; that the
zone is less than a day wide is checked at the end of the text. -/
def parseInstant (text : String) : Except TimeFault Instant := do
  if text.utf8ByteSize < 19 then throw .tooShort
  let (year, rest) ← readNumber 4 text.toList
  let rest ← readMark ['-'] rest
  let (month, rest) ← readNumber 2 rest
  let rest ← readMark ['-'] rest
  let (day, rest) ← readNumber 2 rest
  let date : Civil := ⟨year, month, day⟩
  if !date.isValid then throw .outOfRange
  let rest ← readMark ['T', 't', ' '] rest
  let (hour, rest) ← readNumber 2 rest
  let rest ← readMark [':'] rest
  let (minute, rest) ← readNumber 2 rest
  let rest ← readMark [':'] rest
  let (second, rest) ← readNumber 2 rest
  let (nanos, rest) ← match rest with
    | '.' :: digits => readFraction digits
    | _ => pure (0, rest)
  let isLeap := second = 60
  if 24 ≤ hour ∨ 60 ≤ minute ∨ 60 < second then throw .outOfRange
  let (offset, rest) ← readZone rest
  if !rest.isEmpty then throw .tooLong
  if 1440 ≤ offset.natAbs then throw .outOfRange
  let clock : Int := (hour * 60 + minute : Nat) * 60 + (if isLeap then 59 else second : Nat)
  match Instant.ofParts? (date.toDays * 86400 + clock - offset * 60)
      (if isLeap then nanos + 1000000000 else nanos) with
  | some t => return t
  | none => throw .outOfRange

/-- Reads one or more digits, at most `width` of them, behind optional white space. -/
def readDateField (width : Option Nat) (text : List Char) : Option (Nat × List Char) :=
  let digits := text.takeWhile Char.isDigit
  let kept := match width with
    | some w => digits.take w
    | none => digits
  if kept.isEmpty then none else some (Text.digitsValue kept, text.drop kept.length)

/-- Reads the year of a date: four digits at most, or a sign and any number of digits. -/
def readYear (text : List Char) : Option (Int × List Char) :=
  match text.dropWhile Text.isBlank with
  | '-' :: rest => (readDateField none rest).map fun (n, rest) => (-(n : Int), rest)
  | '+' :: rest => (readDateField none rest).map fun (n, rest) => ((n : Int), rest)
  | rest => (readDateField (some 4) rest).map fun (n, rest) => ((n : Int), rest)

/-- Reads the hyphen before a month or a day, and the field behind it. White space may stand on
either side. -/
def readDatePart (text : List Char) : Option (Nat × List Char) :=
  match text.dropWhile Text.isBlank with
  | '-' :: rest => readDateField (some 2) (rest.dropWhile Text.isBlank)
  | _ => none

/-- The days from 1 January 1970 to the date that is read from a text. -/
def parseDate? (text : String) : Option Int := do
  let (year, rest) ← readYear text.toList
  let (month, rest) ← readDatePart rest
  let (day, rest) ← readDatePart rest
  let date : Civil := ⟨year, month, day⟩
  if (rest.dropWhile Text.isBlank).isEmpty && date.isValid && -262143 ≤ year && year ≤ 262142 then
    some date.toDays
  else none

end PgToolkit.Time
