import PgToolkit.Text.Hex

/-!
# Universally unique identifiers

An identifier is sixteen bytes. It is written as 32 hexadecimal digits in groups of 8, 4, 4, 4 and
12; it is read in that form, without the hyphens, in braces, or behind `urn:uuid:`, with letters of
either case.
-/

namespace PgToolkit.Text

/-- The hyphenated form of sixteen bytes, in lower case. -/
def uuidText (bytes : List UInt8) : String :=
  let group (start length : Nat) := hexBytes ((bytes.drop start).take length)
  String.ofList
    (group 0 4 ++ '-' :: group 4 2 ++ '-' :: group 6 2 ++ '-' :: group 8 2 ++ '-' :: group 10 6)

/-- The sixteen bytes of 32 digits without hyphens. -/
def parsePlainUuid? (text : List Char) : Option (List UInt8) :=
  if text.length = 32 then parseHexBytes text else none

/-- The sixteen bytes of the hyphenated form. -/
def parseHyphenated? (text : List Char) : Option (List UInt8) :=
  let hyphens := [8, 13, 18, 23]
  if text.length = 36 ∧ hyphens.all (fun i => text[i]? = some '-') then
    parsePlainUuid? (text.take 8 ++ (text.drop 9).take 4 ++ (text.drop 14).take 4 ++
      (text.drop 19).take 4 ++ text.drop 24)
  else none

/-- The mark in front of an identifier that is written as a name of the `uuid` space. -/
def uuidMark : List Char := "urn:uuid:".toList

/-- The sixteen bytes of an identifier in any of the accepted forms. -/
def parseUuid? (text : String) : Option (List UInt8) :=
  match text.toList with
  | '{' :: rest =>
    if rest.getLast? = some '}' then parseHyphenated? rest.dropLast else none
  | chars =>
    let (mark, rest) := chars.splitAt uuidMark.length
    if mark.map Char.toLower = uuidMark then parseHyphenated? rest
    else if chars.length = 32 then parsePlainUuid? chars
    else parseHyphenated? chars

end PgToolkit.Text
