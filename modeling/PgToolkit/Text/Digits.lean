/-!
# Decimal digits

The number that a sequence of decimal digits stands for.
-/

namespace PgToolkit.Text

def digitValue (c : Char) : Nat := c.toNat - '0'.toNat

/-- The number that decimal digits stand for, highest first. -/
def digitsValue (digits : List Char) : Nat :=
  digits.foldl (fun n c => n * 10 + digitValue c) 0

/-- The number of decimal digits behind an optional plus sign. -/
def naturalOf? (text : List Char) : Option Nat :=
  let digits := match text with
    | '+' :: rest => rest
    | _ => text
  if digits.isEmpty || !digits.all Char.isDigit then none else some (digitsValue digits)

end PgToolkit.Text
