import PgToolkit.Proofs.Query.Predicate
import PgToolkit.Proofs.Query.Rows
import PgToolkit.Query.Command

/-!
# Queries that are compiled

A statement is compiled exactly when each name in it can be quoted and each fragment has one
placeholder for each of its values. The two ways of writing lists differ: an item-by-item comparison
with no items does not mention its column, so that the name of the column is not looked at.
-/

namespace PgToolkit

open Sql Piece

/-! ### Definitions -/

/-- A condition that has been put together from a column and a value that fits its operator, or from
SQL of the caller. -/
inductive Condition.Built : Condition → Prop
  | onColumn {name : Identifier} {op : Operator} {value : Option Value} {conjunction : Conjunction}
    {c : Condition} (h : Condition.onColumn name op value conjunction = .ok c) : Built c
  | raw (sql : String) (params : List Value) (conjunction : Conjunction) :
    Built (.raw sql params conjunction)

/-- What a condition needs to be written. -/
def Condition.Accepted (mode : ListMode) : Condition → Prop
  | .column name op value _ =>
    name.Quotable ∨ mode = .items ∧ op.isList = true ∧ value = some (.array [])
  | .raw sql params _ => countPlaceholders sql = params.length

/-- What an item of the ordering needs to be written. -/
def OrderItem.Accepted : OrderItem → Prop
  | .column name _ => name.Quotable
  | .raw sql params => countPlaceholders sql = params.length

structure Projection.Accepted (p : Projection) : Prop where
  fields : p.fields ≠ []
  column : Quotable p.column
  label : ∀ name, p.alias? = some name → Quotable name

def SelectColumn.Accepted : SelectColumn → Prop
  | .column name => name.Quotable
  | .json projection => projection.Accepted

structure Join.Accepted (j : Join) : Prop where
  table : j.table.Quotable
  left : j.left.Quotable
  right : j.right.Quotable

namespace Query

/-- What the SELECT of a query needs. -/
structure Selectable (q : Query) : Prop where
  table : q.table.Quotable
  columns : ∀ c ∈ q.columns, c.Accepted
  joins : ∀ j ∈ q.joins, j.Accepted
  conditions : ∀ c ∈ q.conditions, c.Accepted .items
  orders : ∀ item ∈ q.orders, item.Accepted

/-- What the DELETE of a query needs. -/
structure Deletable (q : Query) (returning : List String) : Prop where
  guarded : q.conditions ≠ []
  table : q.table.Quotable
  conditions : ∀ c ∈ q.conditions, c.Accepted .items
  returned : ∀ name ∈ returning, Quotable name

/-- What the UPDATE of a query needs. -/
structure Updatable (q : Query) (values : Record) (returning : List String) : Prop where
  guarded : q.conditions ≠ []
  assigned : values.entries ≠ []
  table : q.table.Quotable
  columns : ∀ name ∈ values.columns, Quotable name
  conditions : ∀ c ∈ q.conditions, c.Accepted .whole
  returned : ∀ name ∈ returning, Quotable name

end Query

/-! ### Names -/

namespace Sql

/-- A name that is not refused has no segment that is. -/
theorem Quotable.of_mem_segments {name segment : String} (h : Quotable name)
    (hsegment : segment ∈ segments name) : Quotable segment := by
  have hne : segment ≠ "" := by
    rintro rfl
    exact h.noEmptySegment hsegment
  refine ⟨hne, fun hnul => h.noNul ?_, ?_⟩
  · obtain ⟨part, hpart, rfl⟩ := List.mem_map.1 hsegment
    rw [String.toList_ofList] at hnul
    exact (subset_of_mem_splitOn hpart).2 hnul
  · rw [segments_of_not_mem (dot_not_mem_of_mem_segments hsegment), List.mem_singleton]
    exact hne.symm

theorem Quotable.lastSegment {name : String} (h : Quotable name) : Quotable (lastSegment name) := by
  have hne : segments name ≠ [] := by simp [segments, List.splitOn_ne_nil]
  rw [Sql.lastSegment, List.getLastD_eq_getLast?, List.getLast?_eq_some_getLast hne]
  exact h.of_mem_segments (List.getLast_mem hne)

end Sql

theorem Piece.exists_ofFragment_iff {sql : String} {params : List Value} :
    (∃ p, ofFragment sql params = .ok p) ↔ countPlaceholders sql = params.length := by
  simp [ofFragment_eq_ok_iff]

/-! ### Clauses -/

theorem Projection.exists_toSql_iff {p : Projection} : (∃ sql, p.toSql = .ok sql) ↔ p.Accepted := by
  unfold toSql
  split
  · next hfields =>
    refine iff_of_false (by simp) fun h => h.fields (List.isEmpty_iff.1 hfields)
  next hfields =>
  have hlabel (hcolumn : Quotable p.column) : Quotable (p.alias?.getD (lastSegment p.column)) ↔
      ∀ name, p.alias? = some name → Quotable name := by
    cases p.alias? with
    | none => simp [hcolumn.lastSegment]
    | some name => simp
  rw [exists_bind_iff fun column _ => exists_bind_pure_iff, quotable_iff, quotable_iff]
  constructor
  · rintro ⟨hcolumn, hname⟩
    exact ⟨fun hnil => hfields (List.isEmpty_iff.2 hnil), hcolumn, (hlabel hcolumn).1 hname⟩
  · intro h
    exact ⟨h.column, (hlabel h.column).2 h.label⟩

theorem SelectColumn.exists_piece_iff {c : SelectColumn} :
    (∃ p, c.piece = .ok p) ↔ c.Accepted := by
  cases c with
  | column name => exact exists_ofIdentifier_iff
  | json projection => exact exists_map_iff.trans Projection.exists_toSql_iff

theorem Join.exists_clause_iff {joins : List Join} :
    (∃ ps, clause joins = .ok ps) ↔ ∀ j ∈ joins, j.Accepted := by
  rw [clause, exists_bind_pure_iff, exists_mapM_eq_ok_iff]
  refine forall₂_congr fun j _ => ?_
  rw [pieces, exists_bind_iff fun table _ => exists_bind_iff fun left _ => exists_bind_pure_iff,
    exists_ofIdentifier_iff, exists_ofIdentifier_iff, exists_ofIdentifier_iff]
  constructor
  · rintro ⟨htable, hleft, hright⟩
    exact ⟨htable, hleft, hright⟩
  · intro h
    exact ⟨h.table, h.left, h.right⟩

theorem OrderItem.exists_clause_iff {orders : List OrderItem} :
    (∃ ps, clause orders = .ok ps) ↔ ∀ item ∈ orders, item.Accepted := by
  cases orders with
  | nil => exact iff_of_true ⟨_, rfl⟩ (by simp)
  | cons first rest =>
    rw [clause_cons, exists_bind_pure_iff, exists_mapM_eq_ok_iff]
    refine forall₂_congr fun item _ => ?_
    cases item with
    | column name direction => exact exists_bind_pure_iff.trans exists_ofIdentifier_iff
    | raw sql params => exact exists_bind_pure_iff.trans exists_ofFragment_iff

namespace Condition

theorem arityFault?_of_built {name : Identifier} {op : Operator} {value : Option Value}
    {conjunction : Conjunction} (h : Built (.column name op value conjunction)) :
    arityFault? name op value = none := by
  generalize hc : Condition.column name op value conjunction = c at h
  cases h with
  | raw sql params conjunction => cases hc
  | onColumn h =>
    unfold onColumn at h
    split at h
    · cases h
    · next hnone =>
      obtain rfl := Except.ok.inj h
      cases hc
      exact hnone

theorem exists_pieces_iff {mode : ListMode} {c : Condition} (hc : c.Built) :
    (∃ ps, c.pieces mode = .ok ps) ↔ c.Accepted mode := by
  simp only [pieces_eq_ok_iff]
  constructor
  · rintro ⟨ps, h⟩
    cases h with
    | fragment hpiece => exact exists_ofFragment_iff.1 ⟨_, hpiece⟩
    | unary hop hname => exact .inl (exists_ofIdentifier_iff.1 ⟨_, hname⟩)
    | noItems hop hmode => exact .inr ⟨hmode, hop, rfl⟩
    | items hop hmode hitems hname => exact .inl (exists_ofIdentifier_iff.1 ⟨_, hname⟩)
    | whole hop hmode hname => exact .inl (exists_ofIdentifier_iff.1 ⟨_, hname⟩)
    | operand hop hvalue hname => exact .inl (exists_ofIdentifier_iff.1 ⟨_, hname⟩)
  · intro h
    cases c with
    | raw sql params conjunction =>
      obtain ⟨piece, hpiece⟩ := exists_ofFragment_iff.2 h
      exact ⟨_, .fragment hpiece⟩
    | column name op value conjunction =>
      rcases h with hname | ⟨hmode, hop, rfl⟩
      swap
      · exact ⟨_, .noItems hop hmode⟩
      obtain ⟨column, hcolumn⟩ := exists_ofIdentifier_iff.2 hname
      have hfault := arityFault?_of_built hc
      cases hunary : op.isUnary with
      | true => exact ⟨_, .unary hunary hcolumn⟩
      | false =>
        cases value with
        | none => simp [arityFault?, hunary] at hfault
        | some value =>
          by_cases hlist : op.isList = true ∧ value.isArray = true
          · obtain ⟨hop, harray⟩ := hlist
            obtain ⟨items, rfl⟩ := Value.exists_items_of_isArray harray
            cases mode with
            | whole => exact ⟨_, .whole hop rfl hcolumn⟩
            | items =>
              by_cases hitems : items = []
              · subst hitems
                exact ⟨_, .noItems hop rfl⟩
              · exact ⟨_, .items hop rfl hitems hcolumn⟩
          · exact ⟨_, .operand hunary (fun hop => by simpa [hop] using hlist) hcolumn⟩

theorem exists_attached_iff {mode : ListMode} {conditions : List Condition}
    (hbuilt : ∀ c ∈ conditions, c.Built) :
    (∃ ps, attached mode conditions = .ok ps) ↔ ∀ c ∈ conditions, c.Accepted mode := by
  induction conditions with
  | nil => exact iff_of_true ⟨_, rfl⟩ (by simp)
  | cons c rest ih =>
    obtain ⟨hc, hrest⟩ := List.forall_mem_cons.1 hbuilt
    rw [attached, exists_bind_iff fun predicate _ => exists_bind_pure_iff, exists_pieces_iff hc,
      ih hrest, List.forall_mem_cons]

theorem exists_whereClause_iff {mode : ListMode} {conditions : List Condition}
    (hbuilt : ∀ c ∈ conditions, c.Built) :
    (∃ ps, whereClause mode conditions = .ok ps) ↔ ∀ c ∈ conditions, c.Accepted mode := by
  cases conditions with
  | nil => exact iff_of_true ⟨_, rfl⟩ (by simp)
  | cons c rest =>
    obtain ⟨hc, hrest⟩ := List.forall_mem_cons.1 hbuilt
    rw [whereClause, exists_bind_iff fun predicate _ => exists_bind_pure_iff, exists_pieces_iff hc,
      exists_attached_iff hrest, List.forall_mem_cons]

end Condition

/-! ### Statements -/

namespace Query

variable {q : Query} {returning : List String}

theorem exists_columnList_iff {columns : List SelectColumn} :
    (∃ ps, columnList columns = .ok ps) ↔ ∀ c ∈ columns, c.Accepted := by
  cases columns with
  | nil => exact iff_of_true ⟨_, rfl⟩ (by simp)
  | cons first rest =>
    rw [columnList_cons, exists_bind_pure_iff, exists_mapM_eq_ok_iff]
    exact forall₂_congr fun c _ => SelectColumn.exists_piece_iff

theorem exists_toSql_iff (hbuilt : ∀ c ∈ q.conditions, c.Built) :
    (∃ c, q.toSql = .ok c) ↔ q.Selectable := by
  have hsource : (∃ ps, q.source = .ok ps) ↔ q.table.Quotable ∧ (∀ j ∈ q.joins, j.Accepted) ∧
      ∀ c ∈ q.conditions, c.Accepted .items := by
    rw [source, exists_bind_iff fun table _ => exists_bind_iff fun joins _ => exists_bind_pure_iff,
      exists_ofIdentifier_iff, Join.exists_clause_iff, Condition.exists_whereClause_iff hbuilt]
  rw [toSql, exists_map_iff, selectPieces,
    exists_bind_iff fun list _ => exists_bind_iff fun source _ => exists_bind_pure_iff,
    exists_columnList_iff, hsource, OrderItem.exists_clause_iff]
  constructor
  · rintro ⟨hcolumns, ⟨htable, hjoins, hconditions⟩, horders⟩
    exact ⟨htable, hcolumns, hjoins, hconditions, horders⟩
  · intro h
    exact ⟨h.columns, ⟨h.table, h.joins, h.conditions⟩, h.orders⟩

theorem exists_deleteSql_iff (hbuilt : ∀ c ∈ q.conditions, c.Built) :
    (∃ c, q.deleteSql returning = .ok c) ↔ q.Deletable returning := by
  rw [deleteSql, exists_map_iff, deletePieces]
  split
  · next hempty => exact iff_of_false (by simp) fun h => h.guarded (List.isEmpty_iff.1 hempty)
  next hguarded =>
  rw [exists_bind_iff fun table _ => exists_bind_iff fun conditions _ => exists_bind_pure_iff,
    exists_ofIdentifier_iff, Condition.exists_whereClause_iff hbuilt, exists_returning_iff]
  constructor
  · rintro ⟨htable, hconditions, hreturned⟩
    exact ⟨fun hnil => hguarded (List.isEmpty_iff.2 hnil), htable, hconditions, hreturned⟩
  · intro h
    exact ⟨h.table, h.conditions, h.returned⟩

theorem exists_assignments_iff {values : Record} :
    (∃ groups, (values.entries.mapM fun (column, value) => assignment column value) = .ok groups) ↔
      ∀ name ∈ values.columns, Quotable name := by
  rw [exists_mapM_eq_ok_iff, Record.columns, OrderedMap.keys, List.forall_mem_map]
  refine forall₂_congr fun entry _ => ?_
  exact exists_bind_pure_iff.trans quotable_iff

theorem exists_updateSql_iff {values : Record} (hbuilt : ∀ c ∈ q.conditions, c.Built) :
    (∃ c, q.updateSql values returning = .ok c) ↔ q.Updatable values returning := by
  rw [updateSql, exists_map_iff, updatePieces]
  split
  · next hempty => exact iff_of_false (by simp) fun h => h.guarded (List.isEmpty_iff.1 hempty)
  next hguarded =>
  split
  · next hempty => exact iff_of_false (by simp) fun h => h.assigned (List.isEmpty_iff.1 hempty)
  next hassigned =>
  rw [exists_bind_iff fun table _ => exists_bind_iff fun assignments _ =>
      exists_bind_iff fun conditions _ => exists_bind_pure_iff,
    exists_ofIdentifier_iff, exists_assignments_iff, Condition.exists_whereClause_iff hbuilt,
    exists_returning_iff]
  constructor
  · rintro ⟨htable, hcolumns, hconditions, hreturned⟩
    exact ⟨fun hnil => hguarded (List.isEmpty_iff.2 hnil),
      fun hnil => hassigned (List.isEmpty_iff.2 hnil), htable, hcolumns, hconditions, hreturned⟩
  · intro h
    exact ⟨h.table, h.columns, h.conditions, h.returned⟩

/-- For a query whose conditions have been put together by its methods, the SELECT, the DELETE and
the UPDATE are compiled exactly when they have what they need; nothing else is refused. The UPDATE
binds lists whole, so it needs the columns of all conditions. -/
theorem exists_compile_iff (q : Query) (hbuilt : ∀ c ∈ q.conditions, c.Built) :
    ((∃ c, q.compile .select = .ok c) ↔ q.Selectable) ∧
      (∀ returning, (∃ c, q.compile (.delete returning) = .ok c) ↔ q.Deletable returning) ∧
      ∀ values returning,
        (∃ c, q.compile (.update values returning) = .ok c) ↔ q.Updatable values returning :=
  ⟨exists_toSql_iff hbuilt, fun _ => exists_deleteSql_iff hbuilt,
    fun _ _ => exists_updateSql_iff hbuilt⟩

/-- A query with a list that has no items, of a column that has no name. -/
def itemless : Query where
  table := .name "app.users"
  columns := [.column (.name "id"), .json { column := "doc", fields := ["a.b"] }]
  conditions := [.column (.name "") .isIn (some (.array [])) .and, .raw "age > ?" [.int 18] .or]
  joins := [⟨.left, .name "teams", .name "teams.id", .eq, .raw "users.team"⟩]
  orders := [.column (.name "id") .desc, .raw "now()" []]

/-- The list is compared with nothing in a SELECT and a DELETE, and with the column in an UPDATE. -/
theorem exists_compile_iff_itemless :
    (∀ c ∈ itemless.conditions, c.Built) ∧ (∃ c, itemless.compile .select = .ok c) ∧
      (∃ c, itemless.compile (.delete ["id"]) = .ok c) ∧
      ¬ ∃ c, itemless.compile (.update ⟨[("age", .int 1)]⟩ []) = .ok c := by
  have hlist : Condition.onColumn (.name "") .isIn (some (.array [])) .and =
      .ok (.column (.name "") .isIn (some (.array [])) .and) := rfl
  have hbuilt : ∀ c ∈ itemless.conditions, c.Built :=
    List.forall_mem_cons.2 ⟨.onColumn hlist, List.forall_mem_singleton.2 (.raw _ _ _)⟩
  obtain ⟨hselect, hdelete, hupdate⟩ := exists_compile_iff itemless hbuilt
  have htable : Quotable "app.users" := by decide +kernel
  have hid : Quotable "id" := by decide +kernel
  have hconditions : ∀ c ∈ itemless.conditions, c.Accepted .items := by
    refine List.forall_mem_cons.2 ⟨.inr ⟨rfl, rfl, rfl⟩, List.forall_mem_singleton.2 ?_⟩
    show countPlaceholders "age > ?" = 1
    decide +kernel
  refine ⟨hbuilt, hselect.2 ?_, (hdelete _).2 ?_, fun h => ?_⟩
  · refine ⟨htable, ?_, List.forall_mem_singleton.2 ?_, hconditions, ?_⟩
    · have hdoc : Projection.Accepted { column := "doc", fields := ["a.b"] } :=
        ⟨by simp, by decide +kernel, by simp⟩
      exact List.forall_mem_cons.2 ⟨hid, List.forall_mem_singleton.2 hdoc⟩
    · have hteams : Quotable "teams" ∧ Quotable "teams.id" := by decide +kernel
      exact ⟨hteams.1, hteams.2, trivial⟩
    · refine List.forall_mem_cons.2 ⟨hid, List.forall_mem_singleton.2 ?_⟩
      show countPlaceholders "now()" = 0
      decide +kernel
  · exact ⟨by simp [itemless], htable, hconditions, List.forall_mem_singleton.2 hid⟩
  · have hname := ((hupdate _ _).1 h).conditions _ List.mem_cons_self
    rcases hname with hname | ⟨hmode, -⟩
    · exact Quotable.nonempty hname rfl
    · cases hmode

end Query

end PgToolkit
