import PgToolkit.Sql.Identifier
import PgToolkit.Sql.Placeholder

/-!
# Statements

A statement is put together from pieces: text of its own, SQL that the caller wrote, and values to
bind. Its SQL has a placeholder for every bound value, and its parameters are those values in the
order of the pieces.
-/

namespace PgToolkit

open Sql

/-- A part of a statement. -/
inductive Piece where
  /-- Keywords, separators, quoted names and quoted literals. -/
  | text (sql : String)
  /-- SQL of the caller in the place of a name or a value. -/
  | raw (sql : String)
  /-- SQL of the caller with one placeholder for each of its values. -/
  | fragment (sql : String) (params : List Value)
  /-- A value that is bound. -/
  | bind (value : Value)
  deriving Repr

/-- A statement with placeholders, and the values they stand for. -/
structure Compiled where
  sql : String
  params : List Value
  deriving Repr

namespace Piece

/-- What a piece adds to the SQL of its statement. -/
def sql : Piece → String
  | .text sql => sql
  | .raw sql => sql
  | .fragment sql _ => sql
  | .bind _ => "?"

/-- What a piece adds to the parameters of its statement. -/
def params : Piece → List Value
  | .text _ => []
  | .raw _ => []
  | .fragment _ params => params
  | .bind value => [value]

/-- The piece for a value: raw SQL is written in its place, everything else is bound. -/
def ofValue : Value → Piece
  | .raw sql => .raw sql
  | value => .bind value

def ofIdentifier : Identifier → Except Error Piece
  | .name name => .text <$> quoteIdentifier name
  | .raw sql => .ok (.raw sql)

/-- The piece for SQL of the caller, which must have one placeholder for each value. -/
def ofFragment (sql : String) (params : List Value) : Except Error Piece :=
  let expected := countPlaceholders sql
  if expected = params.length then .ok (.fragment sql params)
  else .error (.invalidArgument (.placeholderCount sql expected params.length))

/-- Groups of pieces with a separator between them. -/
def separated (separator : String) : List (List Piece) → List Piece
  | [] => []
  | [group] => group
  | group :: rest => group ++ .text separator :: separated separator rest

/-- The list of the columns that a statement returns, if any are asked for. -/
def returning (columns : List String) : Except Error (List Piece) :=
  if columns.isEmpty then .ok []
  else do return [.text " RETURNING ", .text (← quoteIdentifiers columns)]

theorem returning_cons (column : String) (columns : List String) :
    returning (column :: columns) =
      do return [.text " RETURNING ", .text (← quoteIdentifiers (column :: columns))] :=
  rfl

end Piece

namespace Compiled

def ofPieces (pieces : List Piece) : Compiled where
  sql := String.join (pieces.map Piece.sql)
  params := pieces.flatMap Piece.params

/-- The SQL of a statement with numbered placeholders. -/
def positional (c : Compiled) : String :=
  numberPlaceholders c.sql

end Compiled

end PgToolkit
