import PgToolkit.Session.Logging
import PgToolkit.Sql.Scan

/-!
# Cuts by offsets

Where SQL that is reported is cut is found in its bytes: from the limit on, offsets are tried
downwards until one is not inside of a character. A cut at another offset would fail.
-/

namespace PgToolkit

namespace Sql

/-- Whether a byte is the first one of a character. -/
def isLeading (byte : UInt8) : Bool := byte < 0x80 || 0xC0 ≤ byte

/-- Whether an offset is not inside of a character: at the ends, or where one begins. -/
def isBoundary (bytes : List UInt8) (i : Nat) : Bool :=
  i = 0 || match bytes[i]? with
    | some byte => isLeading byte
    | none => i = bytes.length

/-- The first offset, downwards, that is not inside of a character. -/
def backOff (bytes : List UInt8) : Nat → Nat
  | 0 => 0
  | i + 1 => if isBoundary bytes (i + 1) then i + 1 else backOff bytes i

/-- A text, or its beginning up to where it is cut. -/
def truncated? (limit : Nat) (sql : String) : Option String :=
  if sql.utf8ByteSize ≤ limit then some sql
  else String.ofList <$> takeBytes? (backOff (encoded sql.toList) limit) sql.toList

end Sql

/-- SQL as it is reported; nothing, if a cut would be inside of a character. -/
def LogConfig.shownSql? (config : LogConfig) (sql : String) : Option String :=
  match config.maxBytes? with
  | some limit =>
    if limit < sql.utf8ByteSize then (· ++ "...") <$> Sql.truncated? limit sql else some sql
  | none => some sql

end PgToolkit
