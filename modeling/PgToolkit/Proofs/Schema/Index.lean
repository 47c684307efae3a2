import Mathlib.Data.Set.Function
import PgToolkit.Proofs.Schema.Edit

/-!
# Indexes of a table under construction

A declared index is kept under a name that is derived from the names of the table and of its
columns. As long as these names are different, every index is created, in the order of their
declaration. The derived name does not tell all lists of columns apart: an underscore or a dot in
the name of a column looks like the end of one.
-/

namespace PgToolkit

open Sql

/-- The index that a step declares. Without columns it is refused. -/
def TableStep.declared? : TableStep → Option Index
  | .index definition => if definition.columns.isEmpty then none else some definition
  | _ => none

namespace TableDraft

/-- A statement that creates an index over its columns, in their order, under its derived name. -/
def CreatesIndex (d : TableDraft) (table : String) (index : Index) (sql : String) : Prop :=
  ∃ name columns, quoteIdentifier (d.indexName index.columns) = .ok name ∧
    List.Forall₂ (fun column quoted => quoteIdentifier column = .ok quoted) index.columns columns ∧
    sql = String.join ["CREATE ", if index.unique then "UNIQUE " else "", "INDEX ",
      if d.mode = .createIfNotExists then "IF NOT EXISTS " else "", name, " ON ", table,
      match index.method? with
      | some method => " USING " ++ method.sql
      | none => "",
      " (", ", ".intercalate columns, ")"]

/-! ### What steps leave alone -/

/-- The steps on columns do not touch the indexes. -/
theorem edit_unchanged (d : TableDraft) (s : ColumnStep) :
    (d.edit s).name = d.name ∧ (d.edit s).mode = d.mode ∧ (d.edit s).indexes = d.indexes := by
  cases s with
  | declare name start calls =>
    rw [edit, declare_eq_column]
    exact ⟨rfl, rfl, rfl⟩
  | timestamps => exact ⟨rfl, rfl, rfl⟩
  | rename source target =>
    rw [edit, renameColumn]
    split_ifs <;> exact ⟨rfl, rfl, rfl⟩
  | drop name =>
    rw [edit, dropColumn]
    split_ifs <;> exact ⟨rfl, rfl, rfl⟩
  | alter name changes =>
    rw [edit, alterColumn]
    split_ifs <;> exact ⟨rfl, rfl, rfl⟩

theorem perform_unchanged (d : TableDraft) (s : TableStep) :
    (d.perform s).name = d.name ∧ (d.perform s).mode = d.mode := by
  cases s with
  | column s => exact ⟨(d.edit_unchanged s).1, (d.edit_unchanged s).2.1⟩
  | index definition =>
    rw [perform, index]
    split_ifs <;> exact ⟨rfl, rfl⟩
  | dropIndex columns =>
    simp only [perform, dropIndex]
    split_ifs <;> exact ⟨rfl, rfl⟩
  | raw sql => exact ⟨rfl, rfl⟩

theorem foldl_perform_unchanged (d : TableDraft) (steps : List TableStep) :
    (steps.foldl perform d).name = d.name ∧ (steps.foldl perform d).mode = d.mode := by
  induction steps generalizing d with
  | nil => exact ⟨rfl, rfl⟩
  | cons s steps ih =>
    obtain ⟨hname, hmode⟩ := d.perform_unchanged s
    rw [List.foldl_cons, ← hname, ← hmode]
    exact ih (d.perform s)

/-- The derived names depend on the table's name only. -/
theorem indexName_congr {d e : TableDraft} (h : d.name = e.name) : d.indexName = e.indexName := by
  funext columns
  rw [indexName, indexName, h]

/-! ### One step on the indexes -/

/-- The indexes after a step: a declaration sets the one of its derived name, a removal forgets the
one of its derived name, and nothing else changes them. -/
theorem indexes_perform (d : TableDraft) (s : TableStep) : (d.perform s).indexes =
    match s with
    | .dropIndex columns => OrderedMap.erase (d.indexName columns) d.indexes
    | s => OrderedMap.insertAll d.indexes
        (s.declared?.toList.map fun i => (d.indexName i.columns, i)) := by
  cases s with
  | column s => exact (d.edit_unchanged s).2.2
  | index definition =>
    simp only [perform, index, TableStep.declared?]
    split_ifs <;> rfl
  | dropIndex columns =>
    simp only [perform, dropIndex]
    split_ifs with hcontains hcreate
    · rfl
    · exact (OrderedMap.erase_of_not_mem (mt OrderedMap.contains_iff.2 hcontains)).symm
    · exact (OrderedMap.erase_of_not_mem (mt OrderedMap.contains_iff.2 hcontains)).symm
  | raw sql => rfl

/-- A draft whose indexes have their derived names, and no name twice. -/
structure Keyed (d : TableDraft) : Prop where
  nodup : (OrderedMap.keys d.indexes).Nodup
  named : ∀ entry ∈ d.indexes, entry.1 = d.indexName entry.2.columns

/-- A removal forgets exactly the index whose name it derives. -/
theorem Keyed.indexes_dropIndex {d : TableDraft} (h : d.Keyed) (columns : List String) :
    (d.dropIndex columns).indexes =
      d.indexes.filter fun entry => d.indexName entry.2.columns ≠ d.indexName columns := by
  have hstep : (d.dropIndex columns).indexes = OrderedMap.erase (d.indexName columns) d.indexes :=
    d.indexes_perform (.dropIndex columns)
  rw [hstep, OrderedMap.erase_eq_filter h.nodup]
  refine List.filter_congr fun entry hentry => ?_
  rw [h.named entry hentry]

theorem Keyed.perform {d : TableDraft} (h : d.Keyed) (s : TableStep) : (d.perform s).Keyed := by
  have hname : (d.perform s).indexName = d.indexName := indexName_congr (d.perform_unchanged s).1
  have hstep := d.indexes_perform s
  have hdeclared (i? : Option Index) (hindexes : (d.perform s).indexes =
      OrderedMap.insertAll d.indexes (i?.toList.map fun i => (d.indexName i.columns, i))) :
      (d.perform s).Keyed := by
    refine ⟨hindexes ▸ OrderedMap.nodup_keys_insertAll h.nodup _, fun entry hentry => ?_⟩
    rw [hname]
    cases i? with
    | none => exact h.named entry (by simpa [hindexes, OrderedMap.insertAll] using hentry)
    | some i =>
      rw [hindexes] at hentry
      rcases OrderedMap.mem_insert hentry with rfl | hentry
      · rfl
      · exact h.named entry hentry
  cases s with
  | dropIndex columns =>
    have hindexes := h.indexes_dropIndex columns
    refine ⟨?_, fun entry hentry => ?_⟩
    · change (OrderedMap.keys (d.dropIndex columns).indexes).Nodup
      rw [hindexes]
      exact h.nodup.sublist ((List.filter_sublist).map _)
    · rw [hname]
      change entry ∈ (d.dropIndex columns).indexes at hentry
      rw [hindexes] at hentry
      exact h.named entry (List.mem_of_mem_filter hentry)
  | _ => exact hdeclared _ hstep

/-! ### Any steps -/

theorem keyed_build (table : String) (mode : TableMode) (steps : List TableStep) :
    (build table mode steps).Keyed := by
  have hempty : (empty table mode).Keyed := ⟨List.nodup_nil, by simp [empty]⟩
  rw [build]
  generalize empty table mode = d at hempty
  induction steps generalizing d with
  | nil => exact hempty
  | cons s steps ih => exact ih _ (hempty.perform s)

/-- Declarations without removals set the indexes of their derived names, one after the other. -/
theorem indexes_foldl_perform (d : TableDraft) {steps : List TableStep}
    (hdrop : ∀ columns, .dropIndex columns ∉ steps) : (steps.foldl perform d).indexes =
      OrderedMap.insertAll d.indexes
        ((steps.filterMap TableStep.declared?).map fun i => (d.indexName i.columns, i)) := by
  induction steps generalizing d with
  | nil => rfl
  | cons s steps ih =>
    have hrest : ∀ columns, .dropIndex columns ∉ steps := fun columns hmem =>
      hdrop columns (List.mem_cons_of_mem _ hmem)
    have hstep : (d.perform s).indexes = OrderedMap.insertAll d.indexes
        (s.declared?.toList.map fun i => (d.indexName i.columns, i)) := by
      cases s with
      | dropIndex columns => exact absurd List.mem_cons_self (hdrop columns)
      | _ => exact d.indexes_perform _
    rw [List.foldl_cons, ih _ hrest, hstep, indexName_congr (d.perform_unchanged s).1,
      OrderedMap.insertAll, OrderedMap.insertAll, OrderedMap.insertAll, ← List.foldl_append,
      ← List.map_append]
    congr 2
    cases hdeclared : s.declared? <;> simp [hdeclared]

/-! ### Derived names -/

/-- What stands for a character in a derived name. -/
def flattened (c : Char) : Char := if c = '.' then '_' else c

/-- A derived name ends with the names of its columns. -/
theorem toList_indexName (d : TableDraft) {columns : List String} (hne : columns ≠ []) :
    (d.indexName columns).toList = ("idx_" ++ d.name ++ "_").toList.map flattened ++
      (['_'].intercalate (columns.map String.toList)).map flattened := by
  obtain ⟨first, rest, rfl⟩ := List.exists_cons_of_ne_nil hne
  have hflat : (fun c => if c = '.' then '_' else c) = flattened := rfl
  simp [indexName, hflat, String.toList_intercalate]

theorem map_flattened_intercalate {parts : List (List Char)} (h : ∀ part ∈ parts, '.' ∉ part) :
    (['_'].intercalate parts).map flattened = ['_'].intercalate parts := by
  have hpart {part : List Char} (hdot : '.' ∉ part) : part.map flattened = part := by
    refine (List.map_congr_left fun c hc => ?_).trans (List.map_id' _)
    exact if_neg fun (heq : c = '.') => hdot (heq ▸ hc)
  induction parts with
  | nil => rfl
  | cons first rest ih =>
    have hfirst := hpart (h first List.mem_cons_self)
    have hrest := ih fun part hmem => h part (List.mem_cons_of_mem _ hmem)
    cases rest with
    | nil => simpa using hfirst
    | cons =>
      rw [List.intercalate_cons_cons, List.map_append, List.map_append, hfirst, hrest]
      rfl

/-- Columns whose names have no underscore and no dot. -/
structure PlainColumns (columns : List String) : Prop where
  nonempty : columns ≠ []
  noUnderscore : ∀ name ∈ columns, '_' ∉ name.toList
  noDot : ∀ name ∈ columns, '.' ∉ name.toList

instance (columns : List String) : Decidable (PlainColumns columns) :=
  decidable_of_iff (columns ≠ [] ∧ (∀ name ∈ columns, '_' ∉ name.toList) ∧
      ∀ name ∈ columns, '.' ∉ name.toList)
    ⟨fun h => ⟨h.1, h.2.1, h.2.2⟩, fun h => ⟨h.nonempty, h.noUnderscore, h.noDot⟩⟩

/-- The names of plain columns are what stands between the underscores. -/
theorem splitOn_plain {columns : List String} (h : PlainColumns columns) :
    ((['_'].intercalate (columns.map String.toList)).map flattened).splitOn '_' =
      columns.map String.toList := by
  rw [map_flattened_intercalate (List.forall_mem_map.2 h.noDot)]
  exact List.splitOn_intercalate _ (List.forall_mem_map.2 h.noUnderscore)
    (by simpa using h.nonempty)

theorem indexName_injOn (d : TableDraft) :
    Set.InjOn d.indexName {columns | PlainColumns columns} := by
  intro columns hcolumns others hothers h
  have hlist := congrArg String.toList h
  rw [toList_indexName d hcolumns.nonempty, toList_indexName d hothers.nonempty] at hlist
  have hmap : columns.map String.toList = others.map String.toList := by
    rw [← splitOn_plain hcolumns, ← splitOn_plain hothers, List.append_cancel_left hlist]
  exact List.map_injective_iff.2 (fun _ _ => String.toList_injective) hmap

/-! ### Statements -/

theorem createsIndex_of_indexStatement {d : TableDraft} {table sql : String} {i : Index}
    (h : d.indexStatement table (d.indexName i.columns) i = .ok sql) :
    d.CreatesIndex table i sql := by
  simp only [indexStatement, quoteIdentifiers, bind_eq_ok_iff, pure_eq_ok_iff] at h
  obtain ⟨name, hname, _, ⟨columns, hcolumns, rfl⟩, rfl⟩ := h
  refine ⟨name, columns, hname, mapM_eq_ok_iff.1 hcolumns, ?_⟩
  cases i.method? <;> simp [String.append_assoc]

/-- A draft is compiled to the statements of its table, one CREATE INDEX for each of its indexes,
and the statements in SQL. -/
theorem Keyed.exists_of_toSql {d : TableDraft} (h : d.Keyed) {statements : List String}
    (hsql : d.toSql = .ok statements) : ∃ table changes creates,
      quoteIdentifier d.name = .ok table ∧ d.tableStatements table = .ok changes ∧
      List.Forall₂ (fun entry sql => d.CreatesIndex table entry.2 sql) d.indexes creates ∧
      statements = changes ++ creates ++ d.raw := by
  simp only [toSql, bind_eq_ok_iff, pure_eq_ok_iff] at hsql
  obtain ⟨table, htable, changes, hchanges, creates, hcreates, rfl⟩ := hsql
  refine ⟨table, changes, creates, htable, hchanges, ?_, rfl⟩
  refine ((List.forall₂_and_left _ _).2 ⟨h.named, mapM_eq_ok_iff.1 hcreates⟩).imp ?_
  rintro entry sql ⟨hname, hstatement⟩
  exact createsIndex_of_indexStatement (hname ▸ hstatement)

/-- A removal forgets exactly the index over its columns, if all of these are plain. -/
theorem Keyed.indexes_dropIndex_of_plain {d : TableDraft} (h : d.Keyed) {columns : List String}
    (hcolumns : PlainColumns columns) (hplain : ∀ entry ∈ d.indexes, PlainColumns entry.2.columns) :
    (d.dropIndex columns).indexes = d.indexes.filter (·.2.columns ≠ columns) := by
  rw [h.indexes_dropIndex columns]
  refine List.filter_congr fun entry hentry => ?_
  exact decide_eq_decide.2 (d.indexName_injOn.ne_iff (hplain entry hentry) hcolumns)

theorem nodup_indexName (d : TableDraft) {calls : List Index}
    (hplain : ∀ call ∈ calls, PlainColumns call.columns)
    (hdistinct : (calls.map Index.columns).Nodup) :
    (calls.map fun call => d.indexName call.columns).Nodup := by
  have hmap : (calls.map fun call => d.indexName call.columns) =
      (calls.map Index.columns).map d.indexName := by simp
  rw [hmap]
  refine hdistinct.map_on fun columns hcolumns others hothers heq => ?_
  obtain ⟨call, hcall, rfl⟩ := List.mem_map.1 hcolumns
  obtain ⟨other, hother, rfl⟩ := List.mem_map.1 hothers
  exact d.indexName_injOn (hplain call hcall) (hplain other hother) heq

/-- A removal forgets the indexes over columns of the derived name, which for plain columns are
those over exactly these columns. Without removals there is one CREATE INDEX for each derived name,
of its last declaration; there is one for every declaration, in order, exactly if the derived names
are different, as they are for different lists of plain columns. -/
theorem indexes_created (table : String) (mode : TableMode) (steps : List TableStep) :
    let d := build table mode steps
    let calls := steps.filterMap TableStep.declared?
    let names := calls.map fun call => d.indexName call.columns
    (∀ columns, (d.dropIndex columns).indexes =
        d.indexes.filter (fun entry => d.indexName entry.2.columns ≠ d.indexName columns) ∧
      (PlainColumns columns → (∀ entry ∈ d.indexes, PlainColumns entry.2.columns) →
        (d.dropIndex columns).indexes = d.indexes.filter (·.2.columns ≠ columns))) ∧
    ((∀ columns, .dropIndex columns ∉ steps) → ∀ statements, d.toSql = .ok statements →
      ∃ quoted changes creates, quoteIdentifier table = .ok quoted ∧
        d.tableStatements quoted = .ok changes ∧ statements = changes ++ creates ++ d.raw ∧
        List.Forall₂ (fun entry sql => d.CreatesIndex quoted entry.2 sql)
          (OrderedMap.insertAll [] (calls.map fun call => (d.indexName call.columns, call)))
          creates ∧
        (creates.length = calls.length ↔ names.Nodup) ∧
        (names.Nodup → List.Forall₂ (d.CreatesIndex quoted) calls creates)) ∧
    ((∀ call ∈ calls, PlainColumns call.columns) → (calls.map Index.columns).Nodup →
      names.Nodup) := by
  intro d calls names
  have hkeyed : d.Keyed := keyed_build table mode steps
  have hname : d.name = table := (foldl_perform_unchanged (empty table mode) steps).1
  refine ⟨fun columns => ⟨hkeyed.indexes_dropIndex columns, hkeyed.indexes_dropIndex_of_plain⟩,
    fun hdrop statements hsql => ?_, d.nodup_indexName⟩
  let entries := calls.map fun call => (d.indexName call.columns, call)
  have hindexes : d.indexes = OrderedMap.insertAll [] entries := by
    have hfold := indexes_foldl_perform (empty table mode) hdrop
    rwa [indexName_congr (hname.symm : (empty table mode).name = d.name)] at hfold
  have hkeys : OrderedMap.keys entries = names := by simp [OrderedMap.keys, entries, names]
  obtain ⟨quoted, changes, creates, hquoted, hchanges, hcreates, rfl⟩ :=
    hkeyed.exists_of_toSql hsql
  rw [hindexes] at hcreates
  refine ⟨quoted, changes, creates, hname ▸ hquoted, hchanges, rfl, hcreates, ?_,
    fun hnodup => ?_⟩
  · have hlength : entries.length = calls.length := List.length_map _
    rw [← hcreates.length_eq, ← hlength, OrderedMap.length_insertAll_eq_iff, hkeys]
  · rwa [OrderedMap.insertAll_of_nodup (by simpa [hkeys] using hnodup), List.nil_append,
      List.forall₂_map_left_iff] at hcreates

/-- Three indexes, of which each is told apart by its columns. -/
def docsSteps : List TableStep :=
  [.index ⟨["a", "b"], false, none⟩, .index ⟨["a"], true, none⟩,
    .index ⟨["body"], false, some .gin⟩]

def docsStatements : List String :=
  ["CREATE INDEX \"idx_public_docs_a_b\" ON \"public\".\"docs\" (\"a\", \"b\")",
    "CREATE UNIQUE INDEX \"idx_public_docs_a\" ON \"public\".\"docs\" (\"a\")",
    "CREATE INDEX \"idx_public_docs_body\" ON \"public\".\"docs\" USING gin (\"body\")"]

theorem indexes_created_docs :
    let d := build "public.docs" .alter docsSteps
    let calls := docsSteps.filterMap TableStep.declared?
    d.toSql = .ok docsStatements ∧
      (∃ quoted changes creates, docsStatements = changes ++ creates ++ d.raw ∧
        creates.length = 3 ∧ List.Forall₂ (d.CreatesIndex quoted) calls creates) ∧
      (d.dropIndex ["a"]).indexes = d.indexes.filter (·.2.columns ≠ ["a"]) := by
  intro d calls
  have hsql : d.toSql = .ok docsStatements := by decide +kernel
  have hkept : ∀ columns, .dropIndex columns ∉ docsSteps := by simp [docsSteps]
  obtain ⟨hdrop, hcreate, hdistinct⟩ := indexes_created "public.docs" .alter docsSteps
  have hnodup := hdistinct (by decide +kernel) (by decide)
  obtain ⟨quoted, changes, creates, _, _, heq, _, hlength, hall⟩ := hcreate hkept _ hsql
  exact ⟨hsql, ⟨quoted, changes, creates, heq, hlength.2 hnodup, hall hnodup⟩,
    (hdrop ["a"]).2 (by decide) (by decide +kernel)⟩

/-- Two indexes over different columns whose derived names are equal: one of them is lost, and the
removal of the one forgets the other. -/
theorem indexes_lost :
    (build "t" .alter [.index ⟨["a_b"], true, none⟩, .index ⟨["a", "b"], false, none⟩]).toSql =
        .ok ["CREATE INDEX \"idx_t_a_b\" ON \"t\" (\"a\", \"b\")"] ∧
      ((build "t" .alter [.index ⟨["a_b"], true, none⟩]).dropIndex ["a", "b"]).toSql = .ok [] := by
  decide +kernel

end TableDraft

end PgToolkit
