import PgToolkit.Text.Extending
import PgToolkit.Text.Invisible

/-!
# Texts inside messages

A text that a message quotes is shown between double quotes, with quotes, backslashes and the
characters that cannot be seen on their own written as escapes.
-/

namespace PgToolkit.Text

/-- The characters that extend the one before them but take a place of their own: the sound marks of
the halfwidth syllables. -/
def spacingExtenders : List Char := ['\uff9e', '\uff9f']

/-- Whether a character is shown by its number, because it has no visible form of its own. -/
def isUnseen (c : Char) : Bool :=
  isInvisible c || isExtending c && !spacingExtenders.contains c

/-- A character as a message shows it. -/
def shownChar (c : Char) : List Char :=
  if c = '"' then ['\\', '"']
  else if c = '\\' then ['\\', '\\']
  else if c = '\n' then ['\\', 'n']
  else if c = '\r' then ['\\', 'r']
  else if c = '\t' then ['\\', 't']
  else if c = '\x00' then ['\\', '0']
  else if isUnseen c then
    '\\' :: 'u' :: '\x7b' :: ((Nat.toDigits 16 c.toNat) ++ ['\x7d'])
  else [c]

/-- A text as a message quotes it. -/
def shown (text : String) : String :=
  String.ofList ('"' :: (text.toList.flatMap shownChar ++ ['"']))

end PgToolkit.Text
