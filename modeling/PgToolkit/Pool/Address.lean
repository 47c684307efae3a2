import PgToolkit.Text.Digits
import PgToolkit.Text.Hex

/-!
# Network addresses

The texts of addresses of hosts: four decimal numbers between dots, or up to eight hexadecimal
groups between colons, where two colons stand for groups of zeros and the last two groups may be
written as four decimal numbers.
-/

namespace PgToolkit.Pool

/-- Whether a text is a number below 256 without zeros in front. -/
def isOctet (text : List Char) : Bool :=
  !text.isEmpty && text.all Char.isDigit && text.length ≤ 3 &&
    (text.length = 1 || text.head? != some '0') &&
    Text.digitsValue text < 256

/-- Whether a text is an address of four numbers. -/
def isDotted (text : List Char) : Bool :=
  let parts := text.splitOn '.'
  parts.length = 4 && parts.all isOctet

/-- Whether a text is a group of hexadecimal digits. -/
def isGroup (text : List Char) : Bool :=
  !text.isEmpty && text.length ≤ 4 && text.all fun c => (Text.hexValue? c).isSome

/-- The number of groups between colons; an address of four numbers at the end counts as two. -/
def groupCount? : List (List Char) → Option Nat
  | [] => some 0
  | [last] => if isGroup last then some 1 else if isDotted last then some 2 else none
  | group :: rest => if isGroup group then (groupCount? rest).map (· + 1) else none

/-- The number of groups of a text that may be empty. -/
def groupsOf? (text : List Char) : Option Nat :=
  if text.isEmpty then some 0 else groupCount? (text.splitOn ':')

/-- The texts before and behind the first two colons in a row. -/
def cutColons : List Char → Option (List Char × List Char)
  | ':' :: ':' :: rest => some ([], rest)
  | c :: rest => (cutColons rest).map fun (front, behind) => (c :: front, behind)
  | [] => none

/-- Whether a text is an address of groups. -/
def isGrouped (text : List Char) : Bool :=
  match cutColons text with
  | none => groupsOf? text = some 8
  | some (front, behind) =>
    match groupsOf? front, groupsOf? behind with
    | some n, some m => n + m ≤ 7 && !front.contains '.'
    | _, _ => false

def isAddress (text : List Char) : Bool := isDotted text || isGrouped text

end PgToolkit.Pool
