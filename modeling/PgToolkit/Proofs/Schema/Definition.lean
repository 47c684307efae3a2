import PgToolkit.Proofs.Schema.IndexedColumns
import PgToolkit.Schema.Queue

/-!
# Definitions of tables

A table is queued as a whole or not at all. Steps on its draft go on after an error, but nothing
else in the draft depends on errors, and the first of them is the outcome. On an existing table two
sorts of steps have an error, and the changes are queued in the order in which they are made; an
index is dropped from the database only if it is not pending.
-/

namespace PgToolkit

/-- The error of a step on an existing table: its collation changes only together with its type. -/
def ColumnStep.alterRefusal? : ColumnStep → Option Error
  | .alter name changes =>
    if changes.collation?.isSome ∧ changes.type?.isNone then
      some (.invalidArgument (.collationWithoutType name))
    else none
  | _ => none

/-- The error of a step on a table under construction. -/
def TableStep.refusal? (d : TableDraft) : TableStep → Option Error
  | .column s =>
    if d.mode.isCreate then s.refusal? d.name (OrderedMap.keys d.columns) else s.alterRefusal?
  | .index definition =>
    if definition.columns = [] then some (.invalidArgument (.emptyIndex d.name)) else none
  | .dropIndex _ => none
  | .raw _ => none

namespace TableDraft

/-! ### Errors -/

/-- A draft as if no step had had an error. -/
def cleared (d : TableDraft) : TableDraft := { d with error? := none }

/-- The error that a step records, which is kept if it is the first one. -/
def recorded? (d : TableDraft) (s : TableStep) : Option Error := (d.cleared.perform s).error?

/-- The errors that steps record, in order. -/
def recorded (d : TableDraft) : List TableStep → List Error
  | [] => []
  | s :: rest => (d.recorded? s).toList ++ (d.perform s).recorded rest

theorem error_edit_of_isCreate {d : TableDraft} (hmode : d.mode.isCreate = true) (s : ColumnStep) :
    (d.edit s).error? = d.error?.or (s.refusal? d.name (OrderedMap.keys d.columns)) := by
  cases s with
  | declare name start calls =>
    rw [edit, declare_eq_column]
    exact Option.or_none.symm
  | timestamps => exact Option.or_none.symm
  | rename source target =>
    simp only [edit, renameColumn, if_pos hmode, ColumnStep.refusal?, OrderedMap.contains_iff]
    split_ifs <;> simp_all [fail, failUnknown]
  | drop name =>
    simp only [edit, dropColumn, if_pos hmode, ColumnStep.refusal?, OrderedMap.contains_iff]
    split_ifs <;> simp_all [fail, failUnknown]
  | alter name changes =>
    simp only [edit, alterColumn, if_pos hmode, ColumnStep.refusal?, OrderedMap.contains_iff]
    split_ifs <;> simp_all [fail, failUnknown]

theorem error_edit_of_alter {d : TableDraft} (hmode : ¬ d.mode.isCreate = true) (s : ColumnStep) :
    (d.edit s).error? = d.error?.or s.alterRefusal? := by
  cases s with
  | declare name start calls =>
    rw [edit, declare_eq_column]
    exact Option.or_none.symm
  | timestamps => exact Option.or_none.symm
  | rename source target =>
    rw [edit, renameColumn, if_neg hmode]
    exact Option.or_none.symm
  | drop name =>
    rw [edit, dropColumn, if_neg hmode]
    exact Option.or_none.symm
  | alter name changes =>
    simp only [edit, alterColumn, if_neg hmode, ColumnStep.alterRefusal?]
    split_ifs <;> simp [fail]

theorem error_perform (d : TableDraft) (s : TableStep) :
    (d.perform s).error? = d.error?.or (s.refusal? d) := by
  cases s with
  | column s =>
    rw [perform, TableStep.refusal?]
    split_ifs with hmode
    · exact error_edit_of_isCreate hmode s
    · exact error_edit_of_alter hmode s
  | index definition =>
    simp only [perform, index, TableStep.refusal?, List.isEmpty_iff]
    split_ifs <;> simp [fail]
  | dropIndex columns =>
    simp only [perform, dropIndex, TableStep.refusal?]
    split_ifs <;> simp
  | raw sql => simp [perform, rawStatement, TableStep.refusal?]

/-- An error does not depend on those before it. -/
theorem recorded?_eq (d : TableDraft) (s : TableStep) : d.recorded? s = s.refusal? d := by
  rw [recorded?, error_perform]
  cases s <;> rfl

/-- By induction on the steps: the error of each counts only if those before it had none. -/
theorem error_foldl_perform (d : TableDraft) (steps : List TableStep) :
    (steps.foldl perform d).error? = d.error?.or (d.recorded steps).head? := by
  induction steps generalizing d with
  | nil => simp [recorded]
  | cons s steps ih =>
    rw [List.foldl_cons, ih, error_perform, recorded, recorded?_eq]
    cases s.refusal? d <;> simp

end TableDraft

/-- A step on an existing table that has an error: a collation is changed without a type, or an
index is declared over no columns. -/
inductive TableStep.Unfit (table : String) : TableStep → Error → Prop
  | collation {name : String} {changes : ColumnChanges} (hcollation : changes.collation?.isSome)
      (htype : changes.type? = none) :
      Unfit table (.column (.alter name changes)) (.invalidArgument (.collationWithoutType name))
  | index {definition : Index} (hcolumns : definition.columns = []) :
      Unfit table (.index definition) (.invalidArgument (.emptyIndex table))

theorem TableStep.refusal?_eq_some_iff {d : TableDraft} (hmode : d.mode = .alter) {s : TableStep}
    {e : Error} : s.refusal? d = some e ↔ s.Unfit d.name e := by
  have halter : ¬ d.mode.isCreate = true := by simp [hmode, TableMode.isCreate]
  constructor
  · intro h
    cases s with
    | column s =>
      rw [refusal?, if_neg halter] at h
      cases s with
      | alter name changes =>
        simp only [ColumnStep.alterRefusal?] at h
        split_ifs at h with hchanges
        obtain rfl := Option.some.inj h
        exact .collation hchanges.1 (by simpa using hchanges.2)
      | _ => cases h
    | index definition =>
      simp only [refusal?] at h
      split_ifs at h with hcolumns
      obtain rfl := Option.some.inj h
      exact .index hcolumns
    | dropIndex columns => cases h
    | raw sql => cases h
  · rintro (⟨hcollation, htype⟩ | hcolumns)
    · rw [refusal?, if_neg halter, ColumnStep.alterRefusal?, if_pos ⟨hcollation, by simp [htype]⟩]
    · rw [refusal?, if_pos hcolumns]

/-! ### Operations -/

/-- The operation that a step on an existing table queues: the renaming, the removal and the changes
of a column, and the removal of an index that is not pending. -/
def TableStep.operation? (d : TableDraft) : TableStep → Option AlterOperation
  | .column (.rename source target) => some (.renameColumn source target)
  | .column (.drop name) => some (.dropColumn name)
  | .column (.alter name changes) =>
    if changes.collation?.isSome ∧ changes.type? = none ∨ changes.isEmpty then none
    else some (.alterColumn name changes)
  | .dropIndex columns =>
    if d.indexName columns ∈ OrderedMap.keys d.indexes then none
    else some (.dropIndex (d.indexName columns))
  | _ => none

namespace TableDraft

/-- The operations that steps queue, in order. -/
def queued (d : TableDraft) : List TableStep → List AlterOperation
  | [] => []
  | s :: rest => (s.operation? d).toList ++ (d.perform s).queued rest

theorem operations_perform {d : TableDraft} (hmode : d.mode = .alter) (s : TableStep) :
    (d.perform s).operations = d.operations ++ (s.operation? d).toList := by
  have halter : ¬ d.mode.isCreate = true := by simp [hmode, TableMode.isCreate]
  cases s with
  | column s =>
    cases s with
    | declare name start calls =>
      rw [perform, edit, declare_eq_column]
      exact (List.append_nil _).symm
    | timestamps => exact (List.append_nil _).symm
    | rename source target =>
      rw [perform, edit, renameColumn, if_neg halter]
      rfl
    | drop name =>
      rw [perform, edit, dropColumn, if_neg halter]
      rfl
    | alter name changes =>
      simp only [perform, edit, alterColumn, if_neg halter, TableStep.operation?]
      split_ifs <;> simp_all [fail]
  | index definition =>
    rw [perform, index]
    split_ifs <;> exact (List.append_nil _).symm
  | dropIndex columns =>
    simp only [perform, dropIndex, if_neg halter, TableStep.operation?, OrderedMap.contains_iff]
    split_ifs <;> simp
  | raw sql => exact (List.append_nil _).symm

theorem operations_foldl_perform {d : TableDraft} (hmode : d.mode = .alter)
    (steps : List TableStep) :
    (steps.foldl perform d).operations = d.operations ++ d.queued steps := by
  induction steps generalizing d with
  | nil => exact (List.append_nil _).symm
  | cons s steps ih =>
    rw [List.foldl_cons, ih ((d.perform_unchanged s).2.trans hmode), operations_perform hmode,
      List.append_assoc, queued]

/-- The operations of an existing table are those of the steps, in order. -/
theorem operations_build (table : String) (steps : List TableStep) :
    (build table .alter steps).operations = (empty table .alter).queued steps :=
  (operations_foldl_perform rfl steps).trans (List.nil_append _)

end TableDraft

/-! ### Pending indexes -/

/-- An index that some step declares under the derived name, and that no later step removes. -/
def Pending (indexName : List String → String) (columns : List String) (steps : List TableStep) :
    Prop :=
  ∃ before i after, steps = before ++ .index i :: after ∧ i.columns ≠ [] ∧
    indexName columns = indexName i.columns ∧
    ∀ others, .dropIndex others ∈ after → indexName columns ≠ indexName others

section

variable {indexName : List String → String} {columns : List String} {steps : List TableStep}
  {s : TableStep}

theorem not_pending_nil : ¬ Pending indexName columns [] := by
  rintro ⟨before, i, after, heq, -⟩
  simp at heq

theorem pending_concat_iff : Pending indexName columns (steps ++ [s]) ↔
    (∃ i, s = .index i ∧ i.columns ≠ [] ∧ indexName columns = indexName i.columns) ∨
      (Pending indexName columns steps ∧
        ∀ others, s = .dropIndex others → indexName columns ≠ indexName others) := by
  constructor
  · rintro ⟨before, i, after, heq, hcolumns, hname, hkept⟩
    obtain ⟨-, hs, -⟩ | ⟨after, rfl, hsteps⟩ := eq_or_exists_of_concat_eq heq
    · exact .inl ⟨i, hs, hcolumns, hname⟩
    · refine .inr ⟨⟨before, i, after, hsteps, hcolumns, hname, fun others hmem => ?_⟩, ?_⟩
      · exact hkept others (List.mem_append_left _ hmem)
      · rintro others rfl
        exact hkept others (List.mem_append_right _ List.mem_cons_self)
  · rintro (⟨i, rfl, hcolumns, hname⟩ | ⟨⟨before, i, after, rfl, hcolumns, hname, hkept⟩, hlast⟩)
    · exact ⟨steps, i, [], rfl, hcolumns, hname, by simp⟩
    · refine ⟨before, i, after ++ [s], by simp, hcolumns, hname, fun others hmem => ?_⟩
      rcases List.mem_append.1 hmem with hmem | hmem
      · exact hkept others hmem
      · exact hlast others (List.mem_singleton.1 hmem).symm

end

namespace TableDraft

/-- One step and the derived names of the indexes: a declaration brings its own name, a removal
takes its own name away. -/
theorem Keyed.mem_keys_indexes_perform {d : TableDraft} (h : d.Keyed) {s : TableStep}
    {name : String} : name ∈ OrderedMap.keys (d.perform s).indexes ↔
      (∃ i, s = .index i ∧ i.columns ≠ [] ∧ name = d.indexName i.columns) ∨
        (name ∈ OrderedMap.keys d.indexes ∧
          ∀ others, s = .dropIndex others → name ≠ d.indexName others) := by
  have hstep := d.indexes_perform s
  cases s with
  | dropIndex columns =>
    rw [hstep, OrderedMap.keys_erase h.nodup, List.mem_filter]
    simp
  | index definition =>
    rw [hstep, OrderedMap.mem_keys_insertAll, or_comm, TableStep.declared?]
    by_cases hcolumns : definition.columns = []
    · simp [hcolumns, OrderedMap.keys]
    · simp [hcolumns, OrderedMap.keys]
  | column s => simp [hstep, TableStep.declared?, OrderedMap.insertAll]
  | raw sql => simp [hstep, TableStep.declared?, OrderedMap.insertAll]

/-- By induction from the first steps on. -/
theorem mem_keys_indexes_iff (table : String) (mode : TableMode) (columns : List String)
    (steps : List TableStep) :
    (empty table mode).indexName columns ∈ OrderedMap.keys (build table mode steps).indexes ↔
      Pending (empty table mode).indexName columns steps := by
  induction steps using List.reverseRecOn with
  | nil => exact iff_of_false (by simp [build, empty, OrderedMap.keys]) not_pending_nil
  | append_singleton steps s ih =>
    have hname : (build table mode steps).indexName = (empty table mode).indexName :=
      indexName_congr (foldl_perform_unchanged (empty table mode) steps).1
    have hstep : build table mode (steps ++ [s]) = (build table mode steps).perform s :=
      List.foldl_append
    rw [hstep, (keyed_build table mode steps).mem_keys_indexes_perform, hname, ih,
      pending_concat_iff]

end TableDraft

/-! ### Queueing a table -/

namespace SchemaQueue

open TableDraft

variable {q : SchemaQueue} {table : String} {mode : TableMode} {define : TableDraft → TableDraft}

/-- A definition with an error changes nothing, and what would be queued behind it is not. -/
theorem table_of_error {e : Error} (h : (define (TableDraft.empty table mode)).error? = some e) :
    q.table table mode define = (.error e, q) ∧
      ∀ later, q.editAll ((·.table table mode define) :: later) = (.error e, q) := by
  have htable : q.table table mode define = (.error e, q) := by
    simp only [SchemaQueue.table, finish, h]
  exact ⟨htable, fun later => by rw [editAll, htable]⟩

theorem table_of_error_eq_none (h : (define (TableDraft.empty table mode)).error? = none) :
    q.table table mode define =
      (.ok (), q.push (.table (define (TableDraft.empty table mode)))) := by
  simp only [SchemaQueue.table, finish, h]

/-- A table is queued behind what is there, as its steps define it, if none of them records an
error; otherwise the first error is the outcome and the queue stays as it was. The steps on a new
table record an error by the columns that are there; the steps on an existing one when a collation
is changed without a type, or an index declared without columns. What is queued for an existing
table are the renamings, removals and changes of columns and the removals of indexes that are not
pending, in the order of the steps, where an index is pending if it was declared and not removed
since. -/
theorem table_allOrNothing (q : SchemaQueue) (table : String) (mode : TableMode)
    (steps : List TableStep) :
    let define := fun d : TableDraft => steps.foldl TableDraft.perform d
    let draft := TableDraft.build table mode steps
    let errors := (TableDraft.empty table mode).recorded steps
    (∀ first rest, errors = first :: rest → q.table table mode define = (.error first, q) ∧
      ∀ later, q.editAll ((·.table table mode define) :: later) = (.error first, q)) ∧
    (errors = [] → ∃ q' : SchemaQueue, q.table table mode define = (.ok (), q') ∧
      q'.changes = q.changes ++ [.table draft] ∧ draft.name = table ∧ draft.mode = mode ∧
      ∀ later, q.editAll ((·.table table mode define) :: later) = q'.editAll later) ∧
    (mode.isCreate = true → ∀ before s, (build table mode before).recorded? (.column s) =
      s.refusal? table (OrderedMap.keys (build table mode before).columns)) ∧
    (mode = .alter →
      (∀ before s e, (build table mode before).recorded? s = some e ↔ s.Unfit table e) ∧
      draft.operations = (TableDraft.empty table mode).queued steps ∧
      ∀ before columns, draft.indexName columns ∈ OrderedMap.keys (build table mode before).indexes ↔
        Pending draft.indexName columns before) := by
  intro define draft errors
  have hunchanged (steps : List TableStep) :
      (build table mode steps).name = table ∧ (build table mode steps).mode = mode :=
    foldl_perform_unchanged (TableDraft.empty table mode) steps
  have herror : (define (TableDraft.empty table mode)).error? = errors.head? :=
    (TableDraft.empty table mode).error_foldl_perform steps
  refine ⟨fun first rest hfirst => ?_, fun hnone => ?_, fun hcreate before s => ?_,
    fun halter => ?_⟩
  · exact table_of_error (by rw [herror, hfirst, List.head?_cons])
  · have htable := table_of_error_eq_none (q := q) (by rw [herror, hnone, List.head?_nil])
    exact ⟨_, htable, rfl, (hunchanged steps).1, (hunchanged steps).2,
      fun later => by rw [editAll, htable]⟩
  · have hmode : (build table mode before).mode.isCreate = true :=
      (hunchanged before).2.symm ▸ hcreate
    rw [recorded?_eq, TableStep.refusal?, if_pos hmode, (hunchanged before).1]
  · subst halter
    refine ⟨fun before s e => ?_, operations_build table steps, fun before columns => ?_⟩
    · rw [recorded?_eq, TableStep.refusal?_eq_some_iff (hunchanged before).2, (hunchanged before).1]
    · have hname : draft.indexName = (TableDraft.empty table .alter).indexName :=
        indexName_congr (hunchanged steps).1
      rw [hname, mem_keys_indexes_iff]

/-- Changes of a table, of which some queue nothing. -/
def postsSteps : List TableStep :=
  [.column (.rename "body" "content"), .index ⟨["author_id"], false, none⟩,
    .column (.alter "title" {}), .dropIndex ["author_id"], .dropIndex ["author_id"],
    .column (.drop "draft")]

/-- The same changes, among others that have an error. -/
def unfitSteps : List TableStep :=
  .column (.alter "title" { collation? := some "C" }) :: (postsSteps ++ [.index ⟨[], true, none⟩])

theorem table_allOrNothing_posts :
    let q : SchemaQueue := ⟨[.raw "SELECT 1"]⟩
    let error := Error.invalidArgument (.collationWithoutType "title")
    (TableDraft.empty "posts" .alter).recorded unfitSteps =
        [error, .invalidArgument (.emptyIndex "posts")] ∧
      q.editAll [(·.table "posts" .alter fun d => unfitSteps.foldl perform d)] =
        (.error error, q) ∧
      (∃ q' : SchemaQueue,
        q.table "posts" .alter (fun d => postsSteps.foldl perform d) = (.ok (), q') ∧
        q'.changes = [.raw "SELECT 1", .table (build "posts" .alter postsSteps)]) ∧
      (build "posts" .alter postsSteps).operations = [.renameColumn "body" "content",
        .dropIndex "idx_posts_author_id", .dropColumn "draft"] := by
  intro q error
  have herrors : (TableDraft.empty "posts" .alter).recorded unfitSteps =
      [error, .invalidArgument (.emptyIndex "posts")] := by decide +kernel
  have hnone : (TableDraft.empty "posts" .alter).recorded postsSteps = [] := by decide +kernel
  obtain ⟨hrefused, -⟩ := table_allOrNothing q "posts" .alter unfitSteps
  obtain ⟨-, hqueued, -, halter⟩ := table_allOrNothing q "posts" .alter postsSteps
  obtain ⟨q', htable, hchanges, -⟩ := hqueued hnone
  refine ⟨herrors, (hrefused _ _ herrors).2 [], ⟨q', htable, hchanges⟩, ?_⟩
  rw [(halter rfl).2.1]
  with_unfolding_all rfl

end SchemaQueue

end PgToolkit
