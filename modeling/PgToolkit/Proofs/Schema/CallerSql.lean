import PgToolkit.Proofs.Query.CallerSql
import PgToolkit.Schema.Queue

/-!
# SQL of the caller in schema changes

Schema changes are made of names, types and values, but a type, a default, a check or a whole
statement may also be SQL that is written as it is.
-/

namespace PgToolkit

/-- The SQL of a type that is written as it is. -/
def ColumnType.rawTexts : ColumnType → List String
  | .specific sql => [sql]
  | _ => []

/-- The raw SQL in a default, at any depth. -/
def defaultRawTexts (default? : Option Value) : List String :=
  (default?.map Value.rawTexts).getD []

/-- The SQL in a definition: its type, its default and its check. -/
def Column.rawTexts (c : Column) : List String :=
  c.type.rawTexts ++ defaultRawTexts c.default? ++ c.check?.toList

/-- The SQL in changes of a definition. -/
def ColumnChanges.rawTexts (c : ColumnChanges) : List String :=
  (c.type?.map ColumnType.rawTexts).getD [] ++ defaultRawTexts c.default?.join ++
    c.check?.join.toList

/-- The SQL in an operation on an existing table. -/
def AlterOperation.rawTexts : AlterOperation → List String
  | .alterColumn _ changes => changes.rawTexts
  | _ => []

/-- The SQL in a draft: that of its columns and operations, and its own statements. -/
def TableDraft.rawTexts (d : TableDraft) : List String :=
  d.columns.flatMap (fun column => column.2.rawTexts) ++
    d.operations.flatMap AlterOperation.rawTexts ++ d.raw

/-- The SQL in an entry of a queue. -/
def SchemaChange.rawTexts : SchemaChange → List String
  | .raw sql => [sql]
  | .table draft => draft.rawTexts
  | _ => []

def SchemaQueue.rawTexts (q : SchemaQueue) : List String :=
  q.changes.flatMap SchemaChange.rawTexts

end PgToolkit
