import PgToolkit.Number.Shortest
import PgToolkit.Sql.Operator
import PgToolkit.Time.Reading
import PgToolkit.Value.Basic

/-!
# Errors

Everything that can go wrong, as causes; the wording of each is in one place.
-/

namespace PgToolkit

open Number Time

/-- Why an argument is refused. -/
inductive ArgumentFault where
  | emptyIdentifier
  | nulInIdentifier
  | emptySegment (name : String)
  | takesNoValue (op : Operator) (column : String)
  | needsValue (op : Operator) (column : Option String)
  | needsArray (op : Operator) (got : Kind) (column : String)
  | needsScalar (op : Operator) (column : String)
  | placeholderCount (sql : String) (expected given : Nat)
  | emptyProjection (column : String)
  | noRows
  | severalEmptyRows
  | extraColumn (row : Nat) (column : String)
  | noUpdate
  | noConflictTarget
  | columnExists (column table : String)
  | collationWithoutType (column : String)
  | emptyIndex (table : String)
  | notAnObject (document : String)
  | stated (text : String)
  deriving DecidableEq, Repr

def ArgumentFault.message : ArgumentFault → String
  | .emptyIdentifier => "Empty identifier"
  | .nulInIdentifier => "Identifier cannot contain NUL character"
  | .emptySegment name => "Identifier '" ++ name ++ "' has an empty segment"
  | .takesNoValue op column =>
    "operator " ++ op.sql ++ " takes no value (column '" ++ column ++ "')"
  | .needsValue op (some column) =>
    "operator " ++ op.sql ++ " requires a value (column '" ++ column ++ "')"
  | .needsValue op none => "operator " ++ op.sql ++ " requires a value"
  | .needsArray op got column =>
    "operator " ++ op.sql ++ " requires an array, got " ++ got.name ++
      " (column '" ++ column ++ "')"
  | .needsScalar op column =>
    "operator " ++ op.sql ++ " requires a scalar or JSON value, got array" ++
      " (column '" ++ column ++ "')"
  | .placeholderCount sql expected given =>
    "fragment `" ++ sql ++ "` has " ++ toString expected ++ " placeholder(s) but " ++
      toString given ++ " parameter(s)"
  | .emptyProjection column => "JSON projection of '" ++ column ++ "' has no fields"
  | .noRows => "insert requires at least one row"
  | .severalEmptyRows => "cannot insert several rows without columns"
  | .extraColumn row column =>
    "row " ++ toString row ++ " has column '" ++ column ++ "' that the first row does not"
  | .noUpdate => "update requires at least one column"
  | .noConflictTarget => "upsert requires at least one conflict column"
  | .columnExists column table =>
    "column '" ++ column ++ "' already exists on table '" ++ table ++ "'"
  | .collationWithoutType column =>
    "changing the collation of '" ++ column ++ "' needs its column type"
  | .emptyIndex table => "index on table '" ++ table ++ "' needs at least one column"
  | .notAnObject document => "expected a JSON object for a record, got " ++ document
  | .stated text => text

/-- Why a value cannot be written. -/
inductive ValueFault where
  | nonFinite (x : Binary64)
  | stated (text : String)
  deriving DecidableEq, Repr

/-- In SQL numbers are written without an exponent, and without a fraction when they are integral.
Ties between digits go up. -/
def sqlLayout : FloatLayout where
  positional _ := true
  whole := ""
  tie := .up
  nan := "NaN"
  infinity := "inf"

/-- The wording of a value that cannot be written. -/
def ValueFault.message : ValueFault → String
  | .nonFinite x => "non-finite number " ++ sqlLayout.text x ++ " cannot be written as a literal"
  | .stated text => text

/-- Why a value cannot be read as what is asked for. -/
inductive DecodeFault where
  | mismatch (wanted : String) (got : Kind)
  | integerTooLarge
  | integerTooSmall
  | decimalText (fault : Decimal.Fault)
  | timestampText (fault : TimeFault)
  /-- The cell in this column of a row has no value. -/
  | cell (index : Nat)
  | missingField (name : String)
  | wrongShape (found expected : String)
  | wrongInteger (found expected : String)
  | stated (text : String)
  deriving DecidableEq, Repr

/-- The wording of a value that cannot be read. -/
def DecodeFault.message : DecodeFault → String
  | .mismatch wanted got => "expected " ++ wanted ++ ", got " ++ got.name
  | .integerTooLarge => "number too large to fit in target type"
  | .integerTooSmall => "number too small to fit in target type"
  | .decimalText fault => fault.message
  | .timestampText fault => fault.message
  | .cell index => "error deserializing column " ++ toString index
  | .missingField name => "missing field `" ++ name ++ "`"
  | .wrongShape found expected => "invalid type: " ++ found ++ ", expected " ++ expected
  | .wrongInteger found expected => "invalid value: " ++ found ++ ", expected " ++ expected
  | .stated text => text

/-- A failure that a server reports. -/
structure DatabaseError where
  /-- The five characters that classify the failure. -/
  code : String
  message : String
  constraint : Option String
  deriving DecidableEq, Repr

/-- Why a statement was not run. -/
inductive QueryFault where
  | database (error : DatabaseError)
  /-- The text of the statement holds a NUL, which would end it on the way. -/
  | unsendable
  | parameterCount (expected given : Nat)
  /-- The parameter at this index has no encoding. -/
  | parameter (index : Nat)
  deriving DecidableEq, Repr

/-- The wording of a statement that was not run. -/
def QueryFault.message : QueryFault → String
  | .database _ => "db error"
  | .unsendable => "error encoding message to server"
  | .parameterCount expected given =>
    "expected " ++ toString expected ++ " parameters but got " ++ toString given
  | .parameter index => "error serializing parameter " ++ toString index

/-- Why migrations cannot go on. -/
inductive MigrationFault where
  | declaredTwice (name : String)
  /-- The position counts from one. -/
  | diverges (position : Nat) (applied declared : String)
  | undeclared (name : String)
  | notFound (name : String)
  | stated (text : String)
  deriving DecidableEq, Repr

/-- The wording of migrations that cannot go on. -/
def MigrationFault.message : MigrationFault → String
  | .declaredTwice name => "migration '" ++ name ++ "' is declared more than once"
  | .diverges position applied declared =>
    "history diverges at position " ++ toString position ++ ": applied '" ++ applied ++
      "', declared '" ++ declared ++ "'"
  | .undeclared name => "applied migration '" ++ name ++ "' is not declared"
  | .notFound name => "migration '" ++ name ++ "' not found"
  | .stated text => text

/-- A statement that is not compiled without a condition. -/
inductive GuardedVerb where
  | update | delete
  deriving DecidableEq, Repr

def GuardedVerb.name : GuardedVerb → String
  | .update => "update"
  | .delete => "delete"

/-- What is undone after a failure. -/
inductive RollbackScope where
  | transaction | savepoint
  deriving DecidableEq, Repr

/-- An error. -/
inductive Error where
  | invalidArgument (fault : ArgumentFault)
  | unsupported (fault : ValueFault)
  | invalidOperator (token : String)
  | invalidDirection (token : String)
  | missingCondition (verb : GuardedVerb)
  | schemaMismatch (table column : String)
  | connection (reason : String)
  | query (fault : QueryFault)
  | uniqueViolation (detail : String)
  | foreignKeyViolation (detail : String)
  | checkViolation (detail : String)
  /-- A batch of schema changes failed. -/
  | ddl (sql : String) (source : Error)
  | decode (column : String) (fault : DecodeFault)
  | pool (reason : String)
  | migration (fault : MigrationFault)
  /-- Undoing the effects of a failed block failed as well. -/
  | rollbackFailed (scope : RollbackScope) (cause : Error) (reason : String)
  | other (text : String)
  deriving DecidableEq, Repr

namespace Error

/-- The name of the kind of an error. A block that could not be undone has none of its own. -/
def kindName : Error → String
  | .invalidArgument _ => "InvalidArgument"
  | .unsupported _ => "Unsupported"
  | .invalidOperator _ => "InvalidOperator"
  | .invalidDirection _ => "InvalidDirection"
  | .missingCondition _ => "MissingCondition"
  | .schemaMismatch .. => "SchemaMismatch"
  | .connection _ => "Connection"
  | .query _ => "Query"
  | .uniqueViolation _ => "UniqueViolation"
  | .foreignKeyViolation _ => "ForeignKeyViolation"
  | .checkViolation _ => "CheckViolation"
  | .ddl .. => "Ddl"
  | .decode .. => "Decode"
  | .pool _ => "Pool"
  | .migration _ => "Migration"
  | .rollbackFailed .. | .other _ => "Other"

def message : Error → String
  | .invalidArgument fault => "Invalid argument: " ++ fault.message
  | .unsupported fault => "Unsupported value: " ++ fault.message
  | .invalidOperator token => "Invalid operator: '" ++ token ++ "'"
  | .invalidDirection token => "Invalid order direction: '" ++ token ++ "'"
  | .missingCondition verb => "Refusing to " ++ verb.name ++ " without a WHERE condition"
  | .schemaMismatch table column =>
    "Column '" ++ column ++ "' is not defined on table '" ++ table ++ "'"
  | .connection reason => "Connection error: " ++ reason
  | .query fault => "Query error: " ++ fault.message
  | .uniqueViolation detail => "Unique constraint violation: " ++ detail
  | .foreignKeyViolation detail => "Foreign key violation: " ++ detail
  | .checkViolation detail => "Check constraint violation: " ++ detail
  | .ddl sql source => source.message ++ "\n-- while running schema changes:\n" ++ sql
  | .decode column fault => "Decode error on column '" ++ column ++ "': " ++ fault.message
  | .pool reason => "Pool error: " ++ reason
  | .migration fault => "Migration error: " ++ fault.message
  | .rollbackFailed .transaction cause reason =>
    cause.message ++ " (rollback failed: " ++ reason ++ ")"
  | .rollbackFailed .savepoint cause reason =>
    cause.message ++ " (savepoint rollback failed: " ++ reason ++ ")"
  | .other text => text

/-- Whether an error reports a second row with a value that must be unique. -/
def isUniqueViolation : Error → Bool
  | .uniqueViolation _ => true
  | _ => false

/-- Whether an error refuses a statement without a condition. -/
def isMissingCondition : Error → Bool
  | .missingCondition _ => true
  | _ => false

/-- Whether an error was found before anything was sent. -/
def isValidation : Error → Bool
  | .invalidArgument _ | .unsupported _ | .invalidOperator _ | .invalidDirection _
  | .missingCondition _ | .schemaMismatch .. => true
  | _ => false

/-- The batch of schema changes that failed. -/
def ddlSql? : Error → Option String
  | .ddl sql _ => some sql
  | _ => none

/-- The wording of the error behind an error. -/
def sourceMessage? : Error → Option String
  | .ddl _ source => some source.message
  | .query fault => some fault.message
  | _ => none

/-- Whether a server reports that a table does not exist. -/
def isUndefinedTable : Error → Bool
  | .query (.database error) => error.code = "42P01"
  | _ => false

end Error

/-- The error for a failure that a server reports: violated constraints have errors of their own. -/
def DatabaseError.toError (e : DatabaseError) : Error :=
  let detail := e.constraint.getD "unknown" ++ ": " ++ e.message
  if e.code = "23505" then .uniqueViolation detail
  else if e.code = "23503" then .foreignKeyViolation detail
  else if e.code = "23514" then .checkViolation detail
  else .query (.database e)

end PgToolkit
