import PgToolkit.Proofs.Sql.Agreement
import PgToolkit.Query.Command

/-!
# The shape of a query

Two queries have the same shape when they are built by the same steps from names and values that
correspond. Values may always differ; whether names may differ as well is a parameter.
-/

namespace PgToolkit

variable (d : Difference)

/-- Identifiers that correspond. SQL in the place of a name corresponds to nothing. -/
inductive Identifier.SameShape : Identifier → Identifier → Prop
  | name {n m : String} (h : SameName d n m) : SameShape (.name n) (.name m)

/-- Projections of the same shape: both or none have an alias. -/
structure Projection.SameShape (p r : Projection) : Prop where
  column : SameName d p.column r.column
  fields : List.Forall₂ (SameField d) p.fields r.fields
  label : Option.Rel (SameName d) p.alias? r.alias?

/-- Selected columns of the same shape. -/
inductive SelectColumn.SameShape : SelectColumn → SelectColumn → Prop
  | column {n m : Identifier} (h : n.SameShape d m) : SameShape (.column n) (.column m)
  | json {p r : Projection} (h : p.SameShape d r) : SameShape (.json p) (.json r)

/-- Joins of the same shape. -/
structure Join.SameShape (j k : Join) : Prop where
  kind : j.kind = k.kind
  table : j.table.SameShape d k.table
  left : j.left.SameShape d k.left
  op : j.op = k.op
  right : j.right.SameShape d k.right

/-- Items of the same shape. A fragment corresponds to nothing. -/
inductive OrderItem.SameShape : OrderItem → OrderItem → Prop
  | column {n m : Identifier} (h : n.SameShape d m) (direction : Direction) :
    SameShape (.column n direction) (.column m direction)

/-- Right sides of a condition that have the same shape. A single value may be any other one. Lists
must be equally long where every item is written for itself. -/
inductive SameOperand (mode : ListMode) (op : Operator) : Option Value → Option Value → Prop
  | none : SameOperand mode op none none
  | single {v w : Value} (h : op.isList = true → v.isArray = false ∧ w.isArray = false) :
    SameOperand mode op (some v) (some w)
  | list {xs ys : List Value} (hop : op.isList = true) (h : mode = .items → xs.length = ys.length) :
    SameOperand mode op (some (.array xs)) (some (.array ys))

/-- Conditions of the same shape. A fragment corresponds to nothing. -/
inductive Condition.SameShape (mode : ListMode) : Condition → Condition → Prop
  | column {n m : Identifier} (hname : n.SameShape d m) (op : Operator) {v w : Option Value}
    (hvalue : SameOperand mode op v w) (conjunction : Conjunction) :
    SameShape mode (.column n op v conjunction) (.column m op w conjunction)

/-- Queries of the same shape. -/
structure Query.SameShape (mode : ListMode) (q r : Query) : Prop where
  table : q.table.SameShape d r.table
  columns : List.Forall₂ (SelectColumn.SameShape d) q.columns r.columns
  conditions : List.Forall₂ (Condition.SameShape d mode) q.conditions r.conditions
  joins : List.Forall₂ (Join.SameShape d) q.joins r.joins
  orders : List.Forall₂ (OrderItem.SameShape d) q.orders r.orders
  limit : q.limit?.isSome = r.limit?.isSome
  offset : q.offset?.isSome = r.offset?.isSome

/-- Two names of the first list are equal exactly when those at the same places of the second list
are. -/
def SamePattern (ns ms : List String) : Prop :=
  ∀ x ∈ ns.zip ms, ∀ y ∈ ns.zip ms, x.1 = y.1 ↔ x.2 = y.2

/-- The columns that rows are inserted into. -/
def insertedColumns (rows : List Record) : List String :=
  (rows.head?.map Record.columns).getD []

/-- Rows of the same shape: equally many, for corresponding columns. -/
structure SameRows (rows others : List Record) : Prop where
  length : rows.length = others.length
  columns : List.Forall₂ (SameName d) (insertedColumns rows) (insertedColumns others)

/-- All names that decide which columns are overwritten. -/
def Upsert.names (u : Upsert) (rows : List Record) : List String :=
  insertedColumns rows ++ u.conflict ++ u.update?.getD []

/-- Options of the same shape. -/
structure Upsert.SameShape (rows others : List Record) (u v : Upsert) : Prop where
  conflict : List.Forall₂ (SameName d) u.conflict v.conflict
  update : Option.Rel (List.Forall₂ (SameName d)) u.update? v.update?
  returning : List.Forall₂ (SameName d) u.returning v.returning
  pattern : SamePattern (u.names rows) (v.names others)

/-- The same statement with arguments of the same shape. -/
inductive Command.SameShape : Command → Command → Prop
  | select : SameShape .select .select
  | first : SameShape .first .first
  | count : SameShape .count .count
  | pluck {n m : Identifier} (h : n.SameShape d m) : SameShape (.pluck n) (.pluck m)
  | insert {rows others : List Record} {ns ms : List String} (hrows : SameRows d rows others)
    (hreturning : List.Forall₂ (SameName d) ns ms) :
    SameShape (.insert rows ns) (.insert others ms)
  | upsert {rows others : List Record} {u v : Upsert} (hrows : SameRows d rows others)
    (h : u.SameShape d rows others v) : SameShape (.upsert rows u) (.upsert others v)
  | update {values others : Record} {ns ms : List String}
    (hvalues : List.Forall₂ (SameName d) values.columns others.columns)
    (hreturning : List.Forall₂ (SameName d) ns ms) :
    SameShape (.update values ns) (.update others ms)
  | delete {ns ms : List String} (hreturning : List.Forall₂ (SameName d) ns ms) :
    SameShape (.delete ns) (.delete ms)

def Command.listMode : Command → ListMode
  | .update _ _ => .whole
  | .insert _ _ => .whole
  | .upsert _ _ => .whole
  | _ => .items

end PgToolkit
