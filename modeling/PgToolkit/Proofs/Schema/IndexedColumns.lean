import Mathlib.Data.List.Induction
import PgToolkit.Proofs.Schema.Index

/-!
# Indexed columns of a new table

The columns of a new table and its indexes are edited apart from each other. An index keeps the
names of the columns that it was declared over, whatever becomes of these columns afterwards, so
that the statements of a new table may create an index over a column which the table does not have.
-/

namespace PgToolkit

open Sql

/-- The columns that are there after a step whatever there was before it. -/
def TableStep.incoming : TableStep → List String
  | .column (.declare name ..) => [name]
  | .column .timestamps => ["created_at", "updated_at"]
  | .column (.rename _ target) => [target]
  | _ => []

/-- The columns that a step takes away. -/
def TableStep.outgoing : TableStep → List String
  | .column (.rename source target) => if source = target then [] else [source]
  | .column (.drop name) => [name]
  | _ => []

/-- A column that is taken away by one of the steps and not there again after any later one. -/
def Lost (column : String) (steps : List TableStep) : Prop :=
  ∃ before s rest, steps = before ++ s :: rest ∧ column ∈ s.outgoing ∧
    ∀ later ∈ rest, column ∉ later.incoming

section

variable {column : String} {s : TableStep} {steps : List TableStep}

theorem TableStep.not_mem_incoming_of_mem_outgoing (h : column ∈ s.outgoing) :
    column ∉ s.incoming := by
  cases s with
  | column s =>
    cases s with
    | rename source target =>
      simp only [outgoing] at h
      split_ifs at h with heq
      · simp at h
      · obtain rfl := List.mem_singleton.1 h
        exact fun hin => heq (List.mem_singleton.1 hin)
    | drop name => simp [incoming]
    | _ => simp [outgoing] at h
  | _ => simp [outgoing] at h

theorem not_lost_nil : ¬ Lost column [] := by
  rintro ⟨before, s, rest, heq, -⟩
  simp at heq

/-- A step among others and a last one is the last one, or it is among the others. -/
theorem eq_or_exists_of_concat_eq {before rest : List TableStep} {taker : TableStep}
    (h : steps ++ [s] = before ++ taker :: rest) :
    (steps = before ∧ s = taker ∧ rest = []) ∨
      ∃ rest', rest = rest' ++ [s] ∧ steps = before ++ taker :: rest' := by
  rcases List.eq_nil_or_concat rest with rfl | ⟨rest', last, rfl⟩
  · obtain ⟨hsteps, hlast⟩ := List.append_inj' h rfl
    exact .inl ⟨hsteps, List.singleton_inj.1 hlast, rfl⟩
  · have hassoc : steps ++ [s] = (before ++ taker :: rest') ++ [last] := by simpa using h
    obtain ⟨hsteps, hlast⟩ := List.append_inj' hassoc rfl
    obtain rfl := List.singleton_inj.1 hlast
    exact .inr ⟨rest', List.concat_eq_append, hsteps⟩

theorem lost_concat_iff : Lost column (steps ++ [s]) ↔
    column ∈ s.outgoing ∨ (Lost column steps ∧ column ∉ s.incoming) := by
  constructor
  · rintro ⟨before, taker, rest, heq, htaken, hkept⟩
    obtain ⟨-, rfl, -⟩ | ⟨rest', rfl, hsteps⟩ := eq_or_exists_of_concat_eq heq
    · exact .inl htaken
    · rw [List.forall_mem_append, List.forall_mem_singleton] at hkept
      exact .inr ⟨⟨before, taker, rest', hsteps, htaken, hkept.1⟩, hkept.2⟩
  · rintro (htaken | ⟨⟨before, taker, rest, rfl, htaken, hkept⟩, hlast⟩)
    · exact ⟨steps, s, [], rfl, htaken, by simp⟩
    · refine ⟨before, taker, rest ++ [s], by simp, htaken, ?_⟩
      rw [List.forall_mem_append, List.forall_mem_singleton]
      exact ⟨hkept, hlast⟩

/-- A step that takes nothing away loses nothing. -/
theorem lost_cons_iff (h : column ∉ s.outgoing) : Lost column (s :: steps) ↔ Lost column steps := by
  constructor
  · rintro ⟨before, taker, rest, heq, htaken, hkept⟩
    rcases List.cons_eq_append_iff.1 heq with ⟨rfl, heq⟩ | ⟨before, rfl, rfl⟩
    · obtain ⟨rfl, rfl⟩ := List.cons.inj heq
      exact absurd htaken h
    · exact ⟨before, taker, rest, rfl, htaken, hkept⟩
  · rintro ⟨before, taker, rest, rfl, htaken, hkept⟩
    exact ⟨s :: before, taker, rest, rfl, htaken, hkept⟩

end

/-! ### One step -/

namespace ColumnMap

theorem mem_declare {m : ColumnMap} {name column : String} {definition : Column} :
    column ∈ (m.declare name definition).names ↔ column = name ∨ column ∈ m.names := by
  simp only [declare]
  split_ifs with hmem
  · exact ⟨.inr, fun h => h.elim (fun heq => heq ▸ hmem) id⟩
  · rw [List.mem_append, List.mem_singleton, or_comm]

/-- The names after a step that is not refused. -/
theorem mem_names_apply {m : ColumnMap} {table column : String} {s : ColumnStep}
    (h : s.refusal? table m.names = none) : column ∈ (m.apply s).names ↔
      column ∈ (TableStep.column s).incoming ∨
        (column ∈ m.names ∧ column ∉ (TableStep.column s).outgoing) := by
  cases s with
  | declare name start calls =>
    simp only [apply, mem_declare, TableStep.incoming, TableStep.outgoing, List.mem_singleton,
      List.not_mem_nil, not_false_eq_true, and_true]
  | timestamps =>
    simp only [apply, mem_declare, TableStep.incoming, TableStep.outgoing, List.mem_cons,
      List.not_mem_nil, not_false_eq_true, and_true, or_false]
    tauto
  | rename source target =>
    have hsource : source ∈ m.names := by
      by_contra hnot
      simp [ColumnStep.refusal?, hnot] at h
    simp only [apply, rename, TableStep.incoming, TableStep.outgoing, List.mem_map,
      List.mem_singleton]
    constructor
    -- the new name comes from the old one, and every other name from itself
    · rintro ⟨name, hname, rfl⟩
      split_ifs with hsame heq heq
      · exact .inl rfl
      · exact .inl rfl
      · exact .inr ⟨hname, by simp⟩
      · exact .inr ⟨hname, by simpa using hsame⟩
    · rintro (rfl | ⟨hname, hout⟩)
      · exact ⟨source, hsource, if_pos rfl⟩
      · by_cases hsame : column = source
        · refine ⟨source, hsource, ?_⟩
          split_ifs at hout with heq
          · rw [if_pos rfl, ← heq, hsame]
          · exact absurd (List.mem_singleton.2 hsame) hout
        · exact ⟨column, hname, if_neg hsame⟩
  | drop name =>
    simp [apply, drop, TableStep.incoming, TableStep.outgoing]
  | alter name changes =>
    simp [apply, alter, TableStep.incoming, TableStep.outgoing]

end ColumnMap

namespace TableDraft

/-- A draft without anything but its columns. -/
def onlyColumns (d : TableDraft) : TableDraft :=
  { name := d.name, mode := d.mode, columns := d.columns, error? := d.error? }

/-- The columns of a new table are edited without looking at anything else. -/
theorem edit_onlyColumns {d : TableDraft} (hmode : d.mode.isCreate = true) (s : ColumnStep) :
    d.onlyColumns.edit s = (d.edit s).onlyColumns := by
  have honly : d.onlyColumns.mode.isCreate = true := hmode
  cases s with
  | declare name start calls =>
    rw [edit, edit, declare_eq_column, declare_eq_column]
    rfl
  | timestamps => rfl
  | rename source target =>
    rw [edit, edit, renameColumn, renameColumn, if_pos hmode, if_pos honly, apply_ite onlyColumns,
      apply_ite onlyColumns]
    rfl
  | drop name =>
    rw [edit, edit, dropColumn, dropColumn, if_pos hmode, if_pos honly, apply_ite onlyColumns]
    rfl
  | alter name changes =>
    rw [edit, edit, alterColumn, alterColumn, if_pos hmode, if_pos honly, apply_ite onlyColumns]
    rfl

/-- Only the steps on columns change them. -/
theorem columns_perform (d : TableDraft) (s : TableStep) : (d.perform s).columns =
    match s with
    | .column s => (d.edit s).columns
    | _ => d.columns := by
  cases s with
  | column s => rfl
  | index definition =>
    rw [perform, index]
    split_ifs <;> rfl
  | dropIndex columns =>
    simp only [perform, dropIndex]
    split_ifs <;> rfl
  | raw sql => rfl

/-- The names and definitions of the columns of a draft. -/
def columnMap (d : TableDraft) : ColumnMap :=
  ⟨OrderedMap.keys d.columns, fun name => OrderedMap.get? name d.columns⟩

/-- A draft of a new table with distinct columns. -/
structure CreatesTable (d : TableDraft) : Prop where
  isCreate : d.mode.isCreate = true
  nodup : (OrderedMap.keys d.columns).Nodup

variable {d : TableDraft} {s : TableStep} {column : String}

namespace CreatesTable

theorem stepped_edit (h : d.CreatesTable) (s : ColumnStep) :
    Stepped d.name d.mode d.columnMap s d.onlyColumns (d.edit s).onlyColumns := by
  have hshows : Shows d.name d.mode d.columnMap d.onlyColumns :=
    ⟨rfl, rfl, h.nodup, rfl, fun _ => rfl, rfl, rfl, rfl⟩
  rw [← edit_onlyColumns h.isCreate s]
  exact TableDraft.stepped_edit hshows h.isCreate s

theorem perform (h : d.CreatesTable) (s : TableStep) : (d.perform s).CreatesTable := by
  refine ⟨(d.perform_unchanged s).2.symm ▸ h.isCreate, ?_⟩
  rw [columns_perform]
  cases s with
  | column s => exact (h.stepped_edit s).shows.nodup
  | _ => exact h.nodup

/-- The columns after a step that is not refused. -/
theorem mem_columns_perform (h : d.CreatesTable) (herror : (d.perform s).error? = none) :
    column ∈ OrderedMap.keys (d.perform s).columns ↔
      column ∈ s.incoming ∨ (column ∈ OrderedMap.keys d.columns ∧ column ∉ s.outgoing) := by
  rw [columns_perform]
  cases s with
  | column s =>
    have hstepped := h.stepped_edit s
    have hrefusal : s.refusal? d.name d.columnMap.names = none :=
      (Option.or_eq_none_iff.1 (hstepped.error.symm.trans herror)).2
    have hnames := hstepped.shows.names
    rw [ColumnMap.step, hrefusal] at hnames
    exact (iff_of_eq (congrArg (column ∈ ·) hnames)).trans (ColumnMap.mem_names_apply hrefusal)
  | _ => simp [TableStep.incoming, TableStep.outgoing]

end CreatesTable

/-- An error is never forgotten. -/
theorem error_eq_none_of_perform (h : (d.perform s).error? = none) : d.error? = none := by
  have hfail {error : Error} (h : (d.fail error).error? = none) : d.error? = none :=
    (Option.or_eq_none_iff.1 h).1
  cases s with
  | column s =>
    cases s with
    | declare name start calls => rwa [perform, edit, declare_eq_column] at h
    | timestamps => exact h
    | rename source target =>
      simp only [perform, edit, renameColumn] at h
      split_ifs at h <;> first | exact hfail h | exact h
    | drop name =>
      simp only [perform, edit, dropColumn] at h
      split_ifs at h <;> first | exact hfail h | exact h
    | alter name changes =>
      simp only [perform, edit, alterColumn] at h
      split_ifs at h <;> first | exact hfail h | exact h
  | index definition =>
    simp only [perform, index] at h
    split_ifs at h <;> first | exact hfail h | exact h
  | dropIndex columns =>
    simp only [perform, dropIndex] at h
    split_ifs at h <;> exact h
  | raw sql => exact h

/-- An index is there because it was before, or because the step declares it. -/
theorem mem_indexes_perform {entry : String × Index} (h : entry ∈ (d.perform s).indexes) :
    entry ∈ d.indexes ∨ s = .index entry.2 := by
  rw [indexes_perform] at h
  cases s with
  | dropIndex columns => exact .inl (OrderedMap.mem_of_mem_erase h)
  | index definition =>
    by_cases hempty : definition.columns.isEmpty
    · simp only [TableStep.declared?, if_pos hempty] at h
      exact .inl h
    · simp only [TableStep.declared?, if_neg hempty] at h
      rcases OrderedMap.mem_insert h with rfl | h
      · exact .inr rfl
      · exact .inl h
  | _ => exact .inl h

/-! ### Any steps -/

theorem CreatesTable.foldl_perform (h : d.CreatesTable) (steps : List TableStep) :
    (steps.foldl TableDraft.perform d).CreatesTable := by
  induction steps generalizing d with
  | nil => exact h
  | cons s steps ih => exact ih (h.perform s)

/-- By induction from the first steps on: a column that was there is there after one more step if it
was not lost before, and the step does not take it away, or if the step brings it back. -/
theorem CreatesTable.mem_columns_foldl_perform (h : d.CreatesTable) {steps : List TableStep}
    (herror : (steps.foldl TableDraft.perform d).error? = none)
    (hcolumn : column ∈ OrderedMap.keys d.columns) :
    column ∈ OrderedMap.keys (steps.foldl TableDraft.perform d).columns ↔ ¬ Lost column steps := by
  induction steps using List.reverseRecOn with
  | nil => exact iff_of_true hcolumn not_lost_nil
  | append_singleton steps s ih =>
    rw [List.foldl_append, List.foldl_cons, List.foldl_nil] at herror ⊢
    have hbefore := ih (error_eq_none_of_perform herror)
    have hnot : column ∈ s.outgoing → column ∉ s.incoming :=
      TableStep.not_mem_incoming_of_mem_outgoing
    rw [(h.foldl_perform steps).mem_columns_perform herror, hbefore, lost_concat_iff]
    tauto

/-- Every index was declared by a step. -/
theorem exists_declaration {entry : String × Index} {steps : List TableStep} (hd : d.indexes = [])
    (hentry : entry ∈ (steps.foldl perform d).indexes) :
    ∃ before after, steps = before ++ .index entry.2 :: after := by
  induction steps using List.reverseRecOn with
  | nil => simp [hd] at hentry
  | append_singleton steps s ih =>
    rw [List.foldl_append, List.foldl_cons, List.foldl_nil] at hentry
    rcases mem_indexes_perform hentry with hentry | rfl
    · obtain ⟨before, after, rfl⟩ := ih hentry
      exact ⟨before, after ++ [s], by simp⟩
    · exact ⟨steps, [], rfl⟩

/-- The columns that are there when an index is declared, after all steps. -/
theorem mem_columns_build {table : String} {mode : TableMode} (hmode : mode.isCreate = true)
    {before after : List TableStep} {i : Index}
    (herror : (build table mode (before ++ .index i :: after)).error? = none)
    (hcolumn : column ∈ OrderedMap.keys (build table mode before).columns) :
    column ∈ OrderedMap.keys (build table mode (before ++ .index i :: after)).columns ↔
      ¬ Lost column after := by
  have hempty : (empty table mode).CreatesTable := ⟨hmode, List.nodup_nil⟩
  have hcreate : (build table mode before).CreatesTable := hempty.foldl_perform before
  have hsplit : build table mode (before ++ .index i :: after) =
      (.index i :: after : List TableStep).foldl perform (build table mode before) :=
    List.foldl_append
  rw [hsplit] at herror ⊢
  rw [hcreate.mem_columns_foldl_perform herror hcolumn,
    lost_cons_iff (by simp [TableStep.outgoing])]

/-- The statements of a new table whose steps have no error, where every index is declared over
columns that are there at that moment: one for the table, with its columns, and one for each of its
indexes. An index is over a column that the table does not have exactly if that column is lost after
the declaration of the index. -/
theorem indexed_columns {table : String} {mode : TableMode} {steps : List TableStep}
    (hmode : mode.isCreate = true) (herror : (build table mode steps).error? = none)
    (hpending : ∀ before i after, steps = before ++ .index i :: after →
      i.columns ⊆ OrderedMap.keys (build table mode before).columns)
    {statements : List String} (hsql : (build table mode steps).toSql = .ok statements) :
    let d := build table mode steps
    ∃ quoted definitions creates, quoteIdentifier table = .ok quoted ∧
      List.Forall₂ (fun column sql => column.2.toSql column.1 = .ok sql) d.columns definitions ∧
      List.Forall₂ (fun entry sql => d.CreatesIndex quoted entry.2 sql) d.indexes creates ∧
      statements = ((if mode = .createIfNotExists then "CREATE TABLE IF NOT EXISTS "
          else "CREATE TABLE ") ++ quoted ++ " (" ++ ", ".intercalate definitions ++ ")") ::
        (creates ++ d.raw) ∧
      ∀ entry ∈ d.indexes, ∃ before after, steps = before ++ .index entry.2 :: after ∧
        ∀ column ∈ entry.2.columns, column ∉ OrderedMap.keys d.columns ↔ Lost column after := by
  intro d
  have hname : d.name = table := (foldl_perform_unchanged (empty table mode) steps).1
  have hdmode : d.mode = mode := (foldl_perform_unchanged (empty table mode) steps).2
  obtain ⟨quoted, changes, creates, hquoted, hchanges, hcreates, rfl⟩ :=
    (keyed_build table mode steps).exists_of_toSql hsql
  obtain ⟨definitions, hdefinitions, rfl⟩ :=
    exists_of_tableStatements (hdmode.symm ▸ hmode : d.mode.isCreate = true) hchanges
  refine ⟨quoted, definitions, creates, hname ▸ hquoted, hdefinitions, hcreates, ?_,
    fun entry hentry => ?_⟩
  · rw [hdmode]
    rfl
  · obtain ⟨before, after, rfl⟩ := exists_declaration rfl hentry
    refine ⟨before, after, rfl, fun column hcolumn => ?_⟩
    rw [mem_columns_build hmode herror (hpending before entry.2 after rfl hcolumn), not_not]

/-- An index over two columns, of which one is dropped and declared again. -/
def planSteps : List TableStep :=
  [.column (.declare "id" (Column.ofType .integer) []),
    .column (.declare "plan" (Column.ofType .text) []), .index ⟨["id", "plan"], true, none⟩,
    .column (.drop "id"), .column (.declare "id" (Column.ofType .bigInt) [])]

def planStatements : List String :=
  ["CREATE TABLE \"plans\" (\"plan\" text NOT NULL, \"id\" bigint NOT NULL)",
    "CREATE UNIQUE INDEX \"idx_plans_id_plan\" ON \"plans\" (\"id\", \"plan\")"]

theorem indexed_columns_planSteps :
    (build "plans" .create planSteps).error? = none ∧
      (build "plans" .create planSteps).toSql = .ok planStatements ∧
      ∀ entry ∈ (build "plans" .create planSteps).indexes, ∃ before after,
        planSteps = before ++ .index entry.2 :: after ∧ ∀ column ∈ entry.2.columns,
          column ∉ OrderedMap.keys (build "plans" .create planSteps).columns ↔
            Lost column after := by
  have herror : (build "plans" .create planSteps).error? = none := by decide +kernel
  have hsql : (build "plans" .create planSteps).toSql = .ok planStatements := by decide +kernel
  have hpending : ∀ before i after, planSteps = before ++ .index i :: after →
      i.columns ⊆ OrderedMap.keys (build "plans" .create before).columns := by
    intro before i after heq
    simp [planSteps, List.cons_eq_append_iff] at heq
    obtain ⟨rfl, rfl, rfl⟩ := heq
    decide +kernel
  obtain ⟨quoted, definitions, creates, -, -, -, -, hindexed⟩ :=
    indexed_columns rfl herror hpending hsql
  exact ⟨herror, hsql, hindexed⟩

/-- An index over a column, and then one more step on the columns. -/
def indexedSteps (last : ColumnStep) : List TableStep :=
  [.column (.declare "a" (Column.ofType .integer) []),
    .column (.declare "b" (Column.ofType .integer) []), .index ⟨["a"], false, none⟩, .column last]

/-- The index stays when its column is dropped, and keeps the old name when it is renamed. -/
theorem indexed_columns_lost :
    (build "t" .create (indexedSteps (.drop "a"))).error? = none ∧
      (build "t" .create (indexedSteps (.drop "a"))).toSql =
        .ok ["CREATE TABLE \"t\" (\"b\" integer NOT NULL)",
          "CREATE INDEX \"idx_t_a\" ON \"t\" (\"a\")"] ∧
      (build "t" .create (indexedSteps (.rename "a" "c"))).error? = none ∧
      (build "t" .create (indexedSteps (.rename "a" "c"))).toSql =
        .ok ["CREATE TABLE \"t\" (\"c\" integer NOT NULL, \"b\" integer NOT NULL)",
          "CREATE INDEX \"idx_t_a\" ON \"t\" (\"a\")"] := by
  decide +kernel

end TableDraft

end PgToolkit
