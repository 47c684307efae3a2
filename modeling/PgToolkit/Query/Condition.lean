import PgToolkit.Sql.Statement

/-!
# Conditions

A condition compares a column with a value or is SQL of the caller. The conditions of a statement
are attached to each other by AND and OR, without grouping.
-/

namespace PgToolkit

open Sql

/-- How a condition is attached to the one before it. -/
inductive Conjunction where
  | and | or
  deriving DecidableEq, Repr

def Conjunction.sql : Conjunction → String
  | .and => " AND "
  | .or => " OR "

/-- A condition of a statement. -/
inductive Condition where
  /-- A column, an operator, and the value on its right side if it has one. -/
  | column (column : Identifier) (op : Operator) (value : Option Value) (conjunction : Conjunction)
  /-- SQL of the caller, which is written in parentheses. -/
  | raw (sql : String) (params : List Value) (conjunction : Conjunction)
  deriving Repr

/-- How lists are compared with a column. -/
inductive ListMode where
  /-- One parameter for every item; without items the result is known. -/
  | items
  /-- One parameter for the whole array. -/
  | whole
  deriving DecidableEq, Repr

namespace Condition

/-- How a condition is attached to the one before it. -/
def conjunction : Condition → Conjunction
  | .column _ _ _ conjunction => conjunction
  | .raw _ _ conjunction => conjunction

/-- Why a value does not fit an operator. -/
def arityFault? (column : Identifier) (op : Operator) : Option Value → Option ArgumentFault
  | some value =>
    if op.isUnary then some (.takesNoValue op column.text)
    else if op.isList && !value.isArray then some (.needsArray op value.kind column.text)
    else if op.isComparison && value.isArray then some (.needsScalar op column.text)
    else none
  | none => if op.isUnary then none else some (.needsValue op (some column.text))

/-- A condition on a column. Unary operators take no value, lists need an array, and comparisons
need anything else. -/
def onColumn (column : Identifier) (op : Operator) (value : Option Value)
    (conjunction : Conjunction) : Except Error Condition :=
  match arityFault? column op value with
  | some fault => .error (.invalidArgument fault)
  | none => .ok (.column column op value conjunction)

def listPieces (mode : ListMode) (column : Identifier) (op : Operator) (items : List Value) :
    Except Error (List Piece) :=
  match mode with
  | .items =>
    if items.isEmpty then .ok [.text (if op = .isIn then "1=0" else "1=1")]
    else do
      let name ← Piece.ofIdentifier column
      return name :: .text " " :: .text op.sql :: .text " (" ::
        (Piece.separated ", " (items.map fun item => [Piece.ofValue item]) ++ [.text ")"])
  | .whole => do
    let name ← Piece.ofIdentifier column
    return [name, .text (if op = .isIn then " = ANY(" else " <> ALL("),
      .bind (.array items), .text ")"]

def pieces (mode : ListMode) : Condition → Except Error (List Piece)
  | .raw sql params _ => do
    return [.text "(", ← Piece.ofFragment sql params, .text ")"]
  | .column name op value _ =>
    if op.isUnary then do
      return [← Piece.ofIdentifier name, .text " ", .text op.sql]
    else
      match value with
      | none => .error (.invalidArgument (.needsValue op none))
      | some value =>
        match op.isList, value with
        | true, .array items => listPieces mode name op items
        | _, _ => do
          return [← Piece.ofIdentifier name, .text " ", .text op.sql, .text " ",
            Piece.ofValue value]

/-- The conditions behind the first one, each with its conjunction. -/
def attached (mode : ListMode) : List Condition → Except Error (List Piece)
  | [] => .ok []
  | c :: rest => do
    let predicate ← c.pieces mode
    return .text c.conjunction.sql :: (predicate ++ (← attached mode rest))

/-- The WHERE clause of conditions. The conjunction of the first one has no effect. -/
def whereClause (mode : ListMode) : List Condition → Except Error (List Piece)
  | [] => .ok []
  | c :: rest => do
    let predicate ← c.pieces mode
    return .text " WHERE " :: (predicate ++ (← attached mode rest))

def sameValue : Option Value → Option Value → Bool
  | none, none => true
  | some v, some w => v.same w
  | _, _ => false

def same : Condition → Condition → Bool
  | .column c op v k, .column d op' w l => c == d && op == op' && sameValue v w && k == l
  | .raw s ps k, .raw t qs l => s == t && Value.sameItems ps qs && k == l
  | _, _ => false

end Condition

end PgToolkit
