import PgToolkit.Proofs.Query.Rows
import PgToolkit.Proofs.Query.Shape

/-!
# Overwriting on conflict

An UPSERT is the INSERT of the same rows with a clause behind it. The clause names the columns that
are unique together and overwrites the others, or some of them, with what was to be inserted.
-/

namespace PgToolkit

open Sql Piece

/-! ### Definitions -/

/-- The columns that a conflict of inserted rows overwrites. -/
structure Upsert.Overwrites (u : Upsert) (inserted columns : List String) : Prop where
  /-- They stand in the order of insertion. -/
  order : columns.Sublist inserted
  /-- None of them must be unique, and if columns are named it is one of these. -/
  mem_iff : ∀ column, column ∈ columns ↔
    column ∈ inserted ∧ column ∉ u.conflict ∧ ∀ only, u.update? = some only → column ∈ only
  /-- Each of them stands there as often as it is inserted. -/
  count_eq : ∀ column ∈ columns, columns.count column = inserted.count column
  once : inserted.Nodup → columns.Nodup

/-- What stands behind the rows of an UPSERT. All names are quoted. -/
structure ConflictClause where
  /-- The columns that are unique together. -/
  target : List String
  assigned : List String
  returned : List String

namespace ConflictClause

/-- A column takes the value that was to be inserted. -/
def assignment (column : String) : String := column ++ " = EXCLUDED." ++ column

/-- What happens on conflict. -/
def action (c : ConflictClause) : String :=
  if c.assigned.isEmpty then " DO NOTHING"
  else " DO UPDATE SET " ++ ", ".intercalate (c.assigned.map assignment)

def sql (c : ConflictClause) : String :=
  String.join [" ON CONFLICT (", ", ".intercalate c.target, ")", c.action,
    if c.returned.isEmpty then "" else " RETURNING " ++ ", ".intercalate c.returned]

/-- A clause that shows options for given columns to overwrite. -/
structure Shows (u : Upsert) (columns : List String) (c : ConflictClause) : Prop where
  target : List.Forall₂ (fun name sql => quoteIdentifier name = .ok sql) u.conflict c.target
  assigned : List.Forall₂ (fun name sql => quoteIdentifier name = .ok sql) columns c.assigned
  returned : List.Forall₂ (fun name sql => quoteIdentifier name = .ok sql) u.returning c.returned
  /-- Conflicting rows are left alone when there is nothing to overwrite, and only then. -/
  nothing_iff : c.action = " DO NOTHING" ↔ columns = []

end ConflictClause

/-! ### The overwritten columns -/

namespace Upsert

variable {u : Upsert} {inserted : List String}

theorem mem_overwritten_iff {column : String} : column ∈ u.overwritten inserted ↔
    column ∈ inserted ∧ column ∉ u.conflict ∧ ∀ only, u.update? = some only → column ∈ only := by
  rw [overwritten, List.mem_filter]
  cases u.update? with
  | none => simp
  | some only => simp

theorem overwrites_overwritten (u : Upsert) (inserted : List String) :
    u.Overwrites inserted (u.overwritten inserted) where
  order := List.filter_sublist
  mem_iff _ := mem_overwritten_iff
  count_eq _ hcolumn := List.count_filter (List.mem_filter.1 hcolumn).2
  once := List.Nodup.filter _

/-- Only the inserted columns among those that are named count. -/
theorem overwritten_congr {only other : List String}
    (h : ∀ column ∈ inserted, column ∈ only ↔ column ∈ other) :
    { u with update? := some only }.overwritten inserted =
      { u with update? := some other }.overwritten inserted := by
  refine List.filter_congr fun column hcolumn => ?_
  simp [h column hcolumn]

end Upsert

/-! ### The clause -/

namespace ConflictClause

theorem action_eq_iff {c : ConflictClause} : c.action = " DO NOTHING" ↔ c.assigned = [] := by
  unfold action
  split
  · next hempty => exact iff_of_true rfl (List.isEmpty_iff.1 hempty)
  · next hassigned =>
    refine iff_of_false (fun h => ?_) fun hnil => hassigned (List.isEmpty_iff.2 hnil)
    -- the texts differ behind ` DO `
    have hchars := congrArg (fun s => s.toList[4]?) h
    simp at hchars

end ConflictClause

namespace Query

variable {q : Query} {rows : List Record} {u : Upsert}

/-- The inserted columns have been quoted before, so they can be quoted here. -/
theorem exists_conflictPieces_iff {columns : List String}
    (hcolumns : ∀ column ∈ columns, Quotable column) :
    (∃ ps, conflictPieces u columns = .ok ps) ↔ ∀ name ∈ u.conflict, Quotable name := by
  have hassignments : ∃ texts, (u.overwritten columns).mapM overwrite = .ok texts := by
    refine exists_mapM_eq_ok_iff.2 fun column hcolumn => ?_
    rw [overwrite, exists_bind_pure_iff, quotable_iff]
    exact hcolumns column (Upsert.mem_overwritten_iff.1 hcolumn).1
  rw [conflictPieces, exists_bind_iff fun target _ => exists_bind_pure_iff,
    and_iff_left hassignments, quotable_quoteIdentifiers_iff]

theorem quotable_insertedColumns {ps : List Piece} (h : q.rowInsertion rows = .ok ps) :
    ∀ column ∈ insertedColumns rows, Quotable column := by
  cases rows with
  | nil => simp [insertedColumns]
  | cons first rest => exact (exists_rowInsertion_iff.1 ⟨ps, h⟩).2.2.1

theorem exists_insertSql_nil_iff :
    (∃ c, q.insertSql rows [] = .ok c) ↔ ∃ ps, q.rowInsertion rows = .ok ps := by
  rw [insertSql, exists_map_iff, insertPieces, exists_bind_iff fun insert _ => exists_bind_pure_iff,
    exists_returning_iff]
  simp

theorem exists_upsertSql_iff : (∃ c, q.upsertSql rows u = .ok c) ↔
    u.conflict ≠ [] ∧ (∃ c, q.insertSql rows [] = .ok c) ∧
      ∀ name ∈ u.conflict ++ u.returning, Quotable name := by
  rw [upsertSql, exists_map_iff, upsertPieces, exists_insertSql_nil_iff, List.forall_mem_append]
  split
  · next hempty => exact iff_of_false (by simp) fun h => h.1 (List.isEmpty_iff.1 hempty)
  next hconflict =>
  have hne : u.conflict ≠ [] := fun hnil => hconflict (List.isEmpty_iff.2 hnil)
  rw [and_iff_right hne]
  refine exists_bind_iff fun insert hinsert => ?_
  rw [exists_bind_iff fun conflict _ => exists_bind_pure_iff, exists_returning_iff]
  exact and_congr_left' (exists_conflictPieces_iff (quotable_insertedColumns hinsert))

/-- Assignments are those of quoted names. -/
theorem exists_names_of_overwrite {columns assignments : List String}
    (h : List.Forall₂ (fun name sql => overwrite name = .ok sql) columns assignments) :
    ∃ names : List String,
      List.Forall₂ (fun name sql => quoteIdentifier name = .ok sql) columns names ∧
        assignments = names.map ConflictClause.assignment := by
  induction h with
  | nil => exact ⟨[], .nil, rfl⟩
  | cons hfirst _ ih =>
    simp only [overwrite, bind_eq_ok_iff, pure_eq_ok_iff] at hfirst
    obtain ⟨name, hname, rfl⟩ := hfirst
    obtain ⟨names, hnames, rfl⟩ := ih
    exact ⟨name :: names, .cons hname hnames, rfl⟩

/-- The clause is written as its parts. -/
theorem exists_clause {columns : List String} {ps returned : List Piece}
    (h : conflictPieces u columns = .ok ps) (hreturned : returning u.returning = .ok returned) :
    ∃ clause : ConflictClause, clause.Shows u (u.overwritten columns) ∧
      joined (ps ++ returned) = clause.sql := by
  obtain ⟨names, hnames, hnamesText⟩ := joined_returning hreturned
  simp only [conflictPieces, quoteIdentifiers, bind_eq_ok_iff, pure_eq_ok_iff] at h
  obtain ⟨_, ⟨target, htarget, rfl⟩, assignments, hassignments, rfl⟩ := h
  obtain ⟨assigned, hassigned, rfl⟩ := exists_names_of_overwrite (mapM_eq_ok_iff.1 hassignments)
  refine ⟨⟨target, assigned, names⟩, ⟨mapM_eq_ok_iff.1 htarget, hassigned, hnames, ?_⟩, ?_⟩
  · rw [ConflictClause.action_eq_iff, ← List.length_eq_zero_iff, ← List.length_eq_zero_iff,
      hassigned.length_eq]
  · rw [joined_append, hnamesText]
    simp [ConflictClause.sql, ConflictClause.action, Piece.sql, String.append_assoc]

/-- An UPSERT is refused when its INSERT is, or without a target, or for a name that cannot be
quoted. Otherwise it is the INSERT with a clause behind it that overwrites the inserted columns
outside the target, and of these only the named ones if any are named; the values are those of the
INSERT. The order of the named columns, repetitions and columns that are not inserted play no
part. -/
theorem upsertSql_extends (q : Query) (rows : List Record) (u : Upsert) :
    ((∃ c, q.upsertSql rows u = .ok c) ↔ u.conflict ≠ [] ∧ (∃ c, q.insertSql rows [] = .ok c) ∧
      ∀ name ∈ u.conflict ++ u.returning, Quotable name) ∧
    (∀ c, q.upsertSql rows u = .ok c → ∃ insert columns clause,
      q.insertSql rows [] = .ok insert ∧ u.Overwrites (insertedColumns rows) columns ∧
        ConflictClause.Shows u columns clause ∧ c = ⟨insert.sql ++ clause.sql, insert.params⟩) ∧
    ∀ only other, (∀ column ∈ insertedColumns rows, column ∈ only ↔ column ∈ other) →
      q.upsertSql rows { u with update? := some only } =
        q.upsertSql rows { u with update? := some other } := by
  refine ⟨exists_upsertSql_iff, fun c h => ?_, fun only other h => ?_⟩
  · obtain ⟨ps, hps, rfl⟩ := map_eq_ok_iff.1 h
    unfold upsertPieces at hps
    split at hps
    · cases hps
    simp only [bind_eq_ok_iff, pure_eq_ok_iff] at hps
    obtain ⟨insert, hinsert, conflict, hconflict, returned, hreturned, rfl⟩ := hps
    have hplain : q.insertSql rows [] = .ok (Compiled.ofPieces insert) :=
      insertSql_eq_ok_iff.2 ⟨insert, [], hinsert, rfl, by rw [List.append_nil]⟩
    obtain ⟨clause, hclause, htext⟩ := exists_clause hconflict hreturned
    refine ⟨_, _, clause, hplain, u.overwrites_overwritten _, hclause, ?_⟩
    rw [Compiled.mk.injEq]
    constructor
    · change joined _ = joined insert ++ _
      rw [List.append_assoc, joined_append, htext]
    · -- neither the clause nor the returned names bind anything
      have hbound := ((writes_conflictPieces hconflict).append (writes_returning hreturned)).params
      change List.flatMap Piece.params _ = List.flatMap Piece.params insert
      rw [List.append_assoc, List.flatMap_append, hbound]
      simp
  · simp only [upsertSql, upsertPieces, conflictPieces]
    rw [← insertedColumns, Upsert.overwritten_congr h]

example : Compiled.sql <$> (Query.on (.name "t")).upsertSql
    [⟨[("id", .int 1), ("a", .raw "now()"), ("b", .null)]⟩]
    { conflict := ["id"], update? := some ["b", "id", "x", "b"] } =
      .ok ("INSERT INTO \"t\" (\"id\", \"a\", \"b\") VALUES (?, now(), ?)" ++
        " ON CONFLICT (\"id\") DO UPDATE SET \"b\" = EXCLUDED.\"b\"") := by
  decide +kernel

end Query

end PgToolkit
