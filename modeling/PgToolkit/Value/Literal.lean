import PgToolkit.Sql.Identifier

/-!
# Literals

A value as SQL text that needs no parameter. Texts, instants and documents are quoted; arrays are
constructors, except the empty one, which is a quoted token without element type.
-/

namespace PgToolkit

namespace Value

mutual

/-- The literal of a value. Numbers that are not finite have none. -/
def literal : Value → Except Error String
  | .null => .ok "NULL"
  | .bool true => .ok "TRUE"
  | .bool false => .ok "FALSE"
  | .int i => .ok (toString i.toInt)
  | .float x =>
    if x.isFinite then .ok (sqlLayout.text x) else .error (.unsupported (.nonFinite x))
  | .decimal d => .ok d.text
  | .text s => .ok (if s = nowText then nowText else Sql.literal s)
  | .array [] => .ok "'\x7b\x7d'"
  | .array (item :: rest) => do
    return "ARRAY[" ++ ", ".intercalate (← itemLiterals (item :: rest)) ++ "]"
  | .timestamp t => .ok (Sql.literal t.millis)
  | .json document => .ok (Sql.literal document.text)
  | .raw sql => .ok sql

/-- The literals of the items of an array; the first item without one counts. -/
def itemLiterals : List Value → Except Error (List String)
  | [] => .ok []
  | item :: rest => do
    let first ← literal item
    return first :: (← itemLiterals rest)

end

end Value

end PgToolkit
