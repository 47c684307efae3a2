import PgToolkit.OrderedMap
import PgToolkit.Value.Target

/-!
# Records

A record maps column names to values and keeps the order in which columns were added. The order
decides the columns of an INSERT and the assignments of an UPDATE.
-/

namespace PgToolkit

/-- Columns and their values, in order. -/
structure Record where
  entries : List (String × Value) := []
  deriving Repr, Inhabited

namespace Record

/-- The record without columns. -/
def empty : Record := ⟨[]⟩

def get? (r : Record) (column : String) : Option Value := OrderedMap.get? column r.entries

/-- Whether there is a column of this name. -/
def contains (r : Record) (column : String) : Bool := (r.get? column).isSome

/-- Sets a column, in place if it exists already. -/
def insert (r : Record) (column : String) (value : Value) : Record :=
  ⟨OrderedMap.insert column value r.entries⟩

/-- Removes a column; the others keep their order. -/
def erase (r : Record) (column : String) : Record :=
  ⟨OrderedMap.erase column r.entries⟩

/-- Sets a column and returns the value that it had. -/
def getThenInsert? (r : Record) (column : String) (value : Value) : Option Value × Record :=
  let (old?, entries) := OrderedMap.getThenInsert? column value r.entries
  (old?, ⟨entries⟩)

/-- Removes a column and returns the value that it had. -/
def getThenErase? (r : Record) (column : String) : Option Value × Record :=
  let (old?, entries) := OrderedMap.getThenErase? column r.entries
  (old?, ⟨entries⟩)

/-- The record that results from inserting pairs one after the other. -/
def ofEntries (pairs : List (String × Value)) : Record :=
  pairs.foldl (fun r (column, value) => r.insert column value) empty

/-- The names of the columns, in order. -/
def columns (r : Record) : List String := OrderedMap.keys r.entries

/-- The values, in order. -/
def values (r : Record) : List Value := r.entries.map (·.2)

def size (r : Record) : Nat := r.entries.length

def isEmpty (r : Record) : Bool := r.entries.isEmpty

/-- The value of the first column. -/
def firstValue? (r : Record) : Option Value := r.values.head?

/-- Names the column in an error of reading a value. -/
def nameColumn (column : String) : Error → Error
  | .decode _ fault => .decode column fault
  | e => e

/-- Reads a column as a target. A missing column reads as NULL. -/
def getAs (r : Record) (column : String) (t : Target) : Except Error t.Carrier :=
  (t.extract ((r.get? column).getD .null)).mapError (nameColumn column)

def toJson (r : Record) : Json :=
  Json.ofFields (r.entries.map fun (column, value) => (column, value.toJson))

/-- The document of a record that is used up: one entry after the other becomes a field. -/
def intoJson (r : Record) : Json :=
  .object (r.entries.foldl
    (fun fields (column, value) => Json.insertField column value.toJson fields) [])

/-- The record of an object; other documents are refused. -/
def ofJson : Json → Except Error Record
  | .object fields => .ok (ofEntries (fields.map fun (name, field) => (name, Value.ofJson field)))
  | document => .error (.invalidArgument (.notAnObject document.text))

end Record

end PgToolkit
