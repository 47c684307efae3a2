import PgToolkit.Pool.Address
import PgToolkit.Text.Blank
import PgToolkit.Text.Digits

/-!
# Connection settings

The settings that a connection string may hold, and the values that each of them takes.
-/

namespace PgToolkit.Pool

/-- A key and the bytes of its value. -/
structure Setting where
  key : String
  value : List UInt8
  deriving DecidableEq, Repr

/-- Whether a text is a natural number below a limit. -/
def isNaturalBelow (limit : Nat) (text : List Char) : Bool :=
  match Text.naturalOf? text with
  | some n => n < limit
  | none => false

/-- Whether a text is an integer of 64 bits. -/
def isInteger (text : List Char) : Bool :=
  match text with
  | '-' :: digits =>
    digits.head? != some '+' && isNaturalBelow 0x8000000000000001 digits
  | _ => isNaturalBelow 0x8000000000000000 text

/-- Whether every part of a text between commas passes a test. -/
def allParts (test : List Char → Bool) (text : List Char) : Bool :=
  (text.splitOn ',').all test

def textKeys : List String :=
  ["user", "password", "dbname", "options", "application_name", "host"]

/-- The keys that take one of some words. -/
def wordKeys : List (String × List String) :=
  [("sslmode", ["disable", "prefer", "require"]),
    ("sslnegotiation", ["postgres", "direct"]),
    ("target_session_attrs", ["any", "read-write", "read-only"]),
    ("channel_binding", ["disable", "prefer", "require"]),
    ("load_balance_hosts", ["disable", "random"])]

def integerKeys : List String :=
  ["connect_timeout", "tcp_user_timeout", "keepalives_idle", "keepalives_interval"]

/-- Whether a value fits a key. No value fits a key that is not known. A port that is left out
stands for the usual one. -/
def fits (key value : String) : Bool :=
  let chars := value.toList
  if textKeys.contains key then true
  else if integerKeys.contains key then isInteger chars
  else if key = "port" then
    allParts (fun part => part.isEmpty || isNaturalBelow UInt16.size part) chars
  else if key = "hostaddr" then allParts isAddress chars
  else if key = "keepalives" then isNaturalBelow UInt64.size chars
  else if key = "keepalives_retries" then isNaturalBelow UInt32.size chars
  else wordKeys.any fun (known, words) => known = key && words.contains value

/-- The setting of a key and a value, if the value fits. -/
def Setting.ofText? (key value : String) : Option Setting :=
  if fits key value then some ⟨key, value.toUTF8.data.toList⟩ else none

/-- Reads a value up to white space; a backslash takes the next character as it is. The value and
what follows it. -/
def plainValue : List Char → List Char × List Char
  | [] => ([], [])
  | ['\\'] => ([], [])
  | '\\' :: c :: rest => ((c :: (plainValue rest).1), (plainValue rest).2)
  | c :: rest =>
    if Text.isBlank c then ([], c :: rest) else ((c :: (plainValue rest).1), (plainValue rest).2)

/-- Reads a value up to the closing quote, which is left out. -/
def quotedValue? : List Char → Option (List Char × List Char)
  | [] => none
  | ['\\'] => none
  | '\'' :: rest => some ([], rest)
  | '\\' :: c :: rest => (quotedValue? rest).map fun (value, rest) => (c :: value, rest)
  | c :: rest => (quotedValue? rest).map fun (value, rest) => (c :: value, rest)

/-- Reads a value, which must not be empty unless it is quoted. -/
def value? (text : List Char) : Option (List Char × List Char) :=
  match text with
  | '\'' :: rest => quotedValue? rest
  | _ =>
    let (value, rest) := plainValue text
    if value.isEmpty then none else some (value, rest)

/-- Reads settings one after the other, at most as many as `fuel` says. Reading ends where no key
stands. -/
def pairsFrom? : Nat → List Char → Option (List Setting)
  | 0, _ => some []
  | fuel + 1, text => do
    let text := text.dropWhile Text.isBlank
    let isKey (c : Char) : Bool := !Text.isBlank c && c != '='
    let key := text.takeWhile isKey
    if key.isEmpty then return []
    match (text.dropWhile isKey).dropWhile Text.isBlank with
    | '=' :: rest =>
      let (value, rest) ← value? (rest.dropWhile Text.isBlank)
      let setting ← Setting.ofText? (String.ofList key) (String.ofList value)
      return setting :: (← pairsFrom? fuel rest)
    | _ => none

/-- Reads settings written as `key=value` with white space between them. Every setting takes more
than one character, so their number is below the length of the text. -/
def settingsOfPairs? (text : String) : Option (List Setting) :=
  pairsFrom? (text.length + 1) text.toList

end PgToolkit.Pool
