import PgToolkit.Proofs.Schema.Index
import PgToolkit.Proofs.Sql.Suffix
import PgToolkit.Proofs.Sql.WrittenName

/-!
# Names of indexes in statements

The derived name of an index has one segment, whatever is in the names of its table and of its
columns. It is created in the schema of its table, and dropped from there: what is written in front
of the name when it is dropped is what is written in front of the last segment of the table.
-/

namespace PgToolkit

namespace Sql

/-! ### Dotted names -/

variable {name schema last : String}

theorem exists_eq_qualified (h : '.' ∈ name.toList) :
    ∃ schema last, name = schema ++ "." ++ last ∧ '.' ∉ last.toList := by
  obtain hnil | ⟨parts, last, hparts⟩ := List.eq_nil_or_concat (segments name)
  · exact absurd hnil (segments_ne_nil name)
  rw [List.concat_eq_append] at hparts
  have hne : parts ≠ [] := by
    rintro rfl
    have hlength := one_lt_length_segments h
    simp [hparts] at hlength
  have hlast : last ∈ segments name := by simp [hparts]
  refine ⟨".".intercalate parts, last, ?_, dot_not_mem_of_mem_segments hlast⟩
  rw [← intercalate_segments name, hparts,
    String.intercalate_append_of_ne_nil hne (by simp), String.intercalate_singleton]

theorem segments_qualified (hlast : '.' ∉ last.toList) :
    segments (schema ++ "." ++ last) = segments schema ++ [last] := by
  refine (eq_segments_iff.2 ⟨by simp, fun part hpart => ?_, ?_⟩).symm
  · rcases List.mem_append.1 hpart with hpart | hpart
    · exact dot_not_mem_of_mem_segments hpart
    · exact List.mem_singleton.1 hpart ▸ hlast
  · rw [String.intercalate_append_of_ne_nil (segments_ne_nil schema) (by simp),
      intercalate_segments, String.intercalate_singleton]

theorem qualifier?_qualified (hlast : '.' ∉ last.toList) :
    qualifier? (schema ++ "." ++ last) = some schema := by
  have hdrop : (segments (schema ++ "." ++ last)).dropLast = segments schema := by
    rw [segments_qualified hlast, List.dropLast_concat]
  unfold qualifier?
  rw [hdrop]
  split
  · next hnil => exact absurd hnil (segments_ne_nil schema)
  · rw [intercalate_segments]

theorem qualifier?_of_not_mem (h : '.' ∉ name.toList) : qualifier? name = none := by
  rw [qualifier?, segments_of_not_mem h]
  rfl

theorem qualified_inj {schema' last' : String} (hlast : '.' ∉ last.toList)
    (hlast' : '.' ∉ last'.toList) (h : schema ++ "." ++ last = schema' ++ "." ++ last') :
    schema = schema' ∧ last = last' := by
  have hsegments : segments (schema ++ "." ++ last) = segments schema ++ [last] :=
    segments_qualified hlast
  rw [h, segments_qualified hlast'] at hsegments
  obtain ⟨hschema, hlasts⟩ := List.append_inj' hsegments rfl
  exact ⟨(segments_injective hschema).symm, (List.singleton_inj.1 hlasts).symm⟩

theorem mem_intercalate {c : Char} {separator : List Char} {parts : List (List Char)}
    (h : c ∈ separator.intercalate parts) : c ∈ separator ∨ ∃ part ∈ parts, c ∈ part := by
  induction parts with
  | nil => simp at h
  | cons first rest ih =>
    cases rest with
    | nil => exact .inr ⟨first, List.mem_cons_self, by simpa using h⟩
    | cons =>
      rw [List.intercalate_cons_cons, List.mem_append, List.mem_append] at h
      rcases h with (h | h) | h
      · exact .inr ⟨first, List.mem_cons_self, h⟩
      · exact .inl h
      · obtain hseparator | ⟨part, hpart, h⟩ := ih h
        · exact .inl hseparator
        · exact .inr ⟨part, List.mem_cons_of_mem _ hpart, h⟩

/-- A name that can be quoted and is not written as it is. -/
theorem Quotable.quoteIdentifier_eq (h : Quotable name) (hverbatim : isVerbatim name = false) :
    quoteIdentifier name = .ok (".".intercalate (quoteSegments true (segments name))) := by
  obtain ⟨sql, hsql⟩ := quotable_iff.2 h
  rcases quoteIdentifier_cases hsql with ⟨htrue, -⟩ | ⟨-, rfl⟩
  · rw [hverbatim] at htrue
    cases htrue
  · exact hsql

/-- A dotted name without stars is written as its qualifier, a dot and its quoted last segment,
unless its qualifier looks like the count of all rows. -/
theorem quoteIdentifier_qualified (hlast : '.' ∉ last.toList)
    (h : Quotable (schema ++ "." ++ last)) (hstar : "*" ∉ segments (schema ++ "." ++ last))
    (hcount : schema.map Char.toLower ≠ "count(*)") : ∃ qualifier,
      quoteIdentifier schema = .ok qualifier ∧
        quoteIdentifier (schema ++ "." ++ last) = .ok (qualifier ++ "." ++ quotedName last) := by
  have hsegments : segments (schema ++ "." ++ last) = segments schema ++ [last] :=
    segments_qualified hlast
  have hempty := h.noEmptySegment
  rw [hsegments, List.mem_append, not_or] at hstar hempty
  have hdotted : isVerbatim (schema ++ "." ++ last) = false := by
    rw [Bool.eq_false_iff]
    intro hverbatim
    have hdot := dot_not_mem_of_mem_segments (mem_segments_of_isVerbatim hverbatim)
    simp at hdot
  have hplain : isVerbatim schema = false := by
    rw [Bool.eq_false_iff, Ne, isVerbatim_iff, not_or]
    refine ⟨?_, hcount⟩
    rintro rfl
    exact hstar.1 (by decide +kernel)
  have hschema : Quotable schema := by
    refine ⟨?_, fun hnul => h.noNul (by simp [hnul]), hempty.1⟩
    rintro rfl
    exact hempty.1 (by decide +kernel)
  refine ⟨_, hschema.quoteIdentifier_eq hplain, ?_⟩
  rw [h.quoteIdentifier_eq hdotted, hsegments, quoteSegments_of_not_mem hstar.1,
    quoteSegments_of_not_mem (by simpa using hstar), List.map_append, List.map_singleton,
    String.intercalate_append_of_ne_nil (by simpa using segments_ne_nil schema) (by simp),
    String.intercalate_singleton]

end Sql

namespace TableDraft

open Sql

variable {d : TableDraft} {table : String} {columns : List String}

/-! ### The derived name -/

theorem dot_not_mem_indexName (d : TableDraft) (columns : List String) :
    '.' ∉ (d.indexName columns).toList := by
  rw [indexName, String.toList_map, List.mem_map]
  rintro ⟨c, -, hc⟩
  split_ifs at hc with hdot
  · exact absurd hc (by decide)
  · exact hdot hc

theorem underscore_mem_indexName (d : TableDraft) (columns : List String) :
    '_' ∈ (d.indexName columns).toList := by
  rw [indexName, String.toList_map, String.toList_intercalate, List.map_cons, List.map_cons,
    List.intercalate_cons_cons]
  exact List.mem_map.2 ⟨'_', by simp, rfl⟩

theorem nul_not_mem_indexName (hname : '\x00' ∉ d.name.toList)
    (hcolumns : ∀ column ∈ columns, '\x00' ∉ column.toList) :
    '\x00' ∉ (d.indexName columns).toList := by
  rw [indexName, String.toList_map, List.mem_map]
  rintro ⟨c, hmem, hc⟩
  split_ifs at hc with hdot
  · exact absurd hc (by decide)
  subst hc
  rw [String.toList_intercalate] at hmem
  obtain hseparator | ⟨part, hpart, hmem⟩ := mem_intercalate hmem
  · exact absurd hseparator (by decide)
  obtain ⟨text, htext, rfl⟩ := List.mem_map.1 hpart
  rcases List.mem_cons.1 htext with rfl | htext
  · exact absurd hmem (by decide)
  rcases List.mem_cons.1 htext with rfl | htext
  · exact hname hmem
  · exact hcolumns text htext hmem

/-- The derived name is one segment, whatever the names of the table and of the columns are. -/
theorem quoteIdentifier_indexName (hname : '\x00' ∉ d.name.toList)
    (hcolumns : ∀ column ∈ columns, '\x00' ∉ column.toList) :
    quoteIdentifier (d.indexName columns) = .ok (quotedName (d.indexName columns)) := by
  have hunderscore := d.underscore_mem_indexName columns
  have hsegments := segments_of_not_mem (d.dot_not_mem_indexName columns)
  have hne : d.indexName columns ≠ "" := by
    intro hempty
    simp [hempty] at hunderscore
  have hstar : d.indexName columns ≠ "*" := by
    intro hstar
    rw [hstar] at hunderscore
    exact absurd hunderscore (by decide)
  have hquotable : Quotable (d.indexName columns) :=
    ⟨hne, nul_not_mem_indexName hname hcolumns, by simpa [hsegments] using hne.symm⟩
  rw [hquotable.quoteIdentifier_eq (isVerbatim_of_underscore hunderscore), hsegments]
  simp [quoteSegments]

theorem readName_quotedName (segment : String) :
    readName (quotedName segment) = some [segment] := by
  rw [readName, quoteTokens_quotedName, readSegments, if_pos rfl, String.ofList_toList]

/-! ### Statements -/

/-- The text of a statement that creates an index, whose names are quoted already. -/
def createIndexSql (mode : TableMode) (i : Index) (name table columns : String) : String :=
  String.join ["CREATE ", if i.unique then "UNIQUE " else "", "INDEX ",
    if mode = .createIfNotExists then "IF NOT EXISTS " else "", name, " ON ", table,
    match i.method? with
    | some method => " USING " ++ method.sql
    | none => "",
    " (", columns, ")"]

theorem indexStatement_eq {i : Index} {name quoted quotedColumns : String}
    (hname : quoteIdentifier name = .ok quoted)
    (hcolumns : quoteIdentifiers i.columns = .ok quotedColumns) (table : String) :
    d.indexStatement table name i = .ok (createIndexSql d.mode i quoted table quotedColumns) := by
  rw [indexStatement, hname, hcolumns]
  cases hmethod : i.method? <;>
    simp [createIndexSql, hmethod, String.append_assoc, bind, Except.bind, pure, Except.pure]

/-- With one index more, a draft has the same statements and the one for the index, in the place of
that for an index of the same name. -/
theorem exists_toSql_index (h : ∃ statements, d.toSql = .ok statements) {i : Index}
    (hne : i.columns ≠ []) {quoted name quotedColumns : String}
    (htable : quoteIdentifier d.name = .ok quoted)
    (hname : quoteIdentifier (d.indexName i.columns) = .ok name)
    (hcolumns : quoteIdentifiers i.columns = .ok quotedColumns) : ∃ statements,
      (d.index i).toSql = .ok statements ∧
        createIndexSql d.mode i name quoted quotedColumns ∈ statements := by
  obtain ⟨statements, h⟩ := h
  simp only [toSql, htable, bind_eq_ok_iff, pure_eq_ok_iff, Except.ok.injEq, exists_eq_left'] at h
  obtain ⟨changes, hchanges, creates, hcreates, -⟩ := h
  let entries := OrderedMap.insert (d.indexName i.columns) i d.indexes
  have hindex : d.index i = { d with indexes := entries } := by
    rw [index, if_neg (by simpa using hne)]
  have hstatement := indexStatement_eq (d := d) hname hcolumns quoted
  -- every entry is the new one or was there before
  have hall : ∀ entry ∈ entries, ∃ sql, d.indexStatement quoted entry.1 entry.2 = .ok sql := by
    intro entry hentry
    rcases OrderedMap.mem_insert hentry with rfl | hentry
    · exact ⟨_, hstatement⟩
    · exact exists_mapM_eq_ok_iff.1 ⟨creates, hcreates⟩ entry hentry
  obtain ⟨created, hcreated⟩ := exists_mapM_eq_ok_iff.2 hall
  have hmem : (d.indexName i.columns, i) ∈ entries :=
    OrderedMap.mem_of_get? (by rw [OrderedMap.get?_insert, if_pos rfl])
  refine ⟨changes ++ created ++ d.raw, ?_, ?_⟩
  · rw [hindex]
    simp only [toSql, htable, bind_eq_ok_iff, pure_eq_ok_iff, Except.ok.injEq, exists_eq_left']
    exact ⟨changes, hchanges, created, hcreated, rfl⟩
  · have hsql := mem_of_mapM_eq_ok hcreated hmem hstatement
    simp [hsql]

/-- When an index is dropped that is not pending, its removal follows the other changes. -/
theorem exists_toSql_dropIndex (h : ∃ statements, d.toSql = .ok statements)
    (hmode : d.mode = .alter) (hpending : d.indexName columns ∉ OrderedMap.keys d.indexes)
    {target : String} (htarget : d.qualifiedIndex (d.indexName columns) = .ok target) :
    ∃ statements, (d.dropIndex columns).toSql = .ok statements ∧
      "DROP INDEX " ++ target ∈ statements := by
  have halter : ¬ d.mode.isCreate = true := by simp [hmode, TableMode.isCreate]
  obtain ⟨statements, h⟩ := h
  simp only [toSql, tableStatements, if_neg halter, bind_eq_ok_iff, pure_eq_ok_iff] at h
  obtain ⟨quoted, htable, _, ⟨added, hadded, changed, hchanged, rfl⟩, creates, hcreates, -⟩ := h
  have hdrop : d.dropIndex columns =
      { d with operations := d.operations ++ [.dropIndex (d.indexName columns)] } := by
    simp only [dropIndex, OrderedMap.contains_iff]
    rw [if_neg hpending, if_neg halter]
  have hremoval : d.operationStatements quoted (.dropIndex (d.indexName columns)) =
      .ok ["DROP INDEX " ++ target] := by
    rw [operationStatements, htarget]
    rfl
  have hoperations : (d.operations ++ [AlterOperation.dropIndex (d.indexName columns)]).mapM
      (d.operationStatements quoted) = .ok (changed ++ [["DROP INDEX " ++ target]]) := by
    rw [mapM_eq_ok_iff] at hchanged ⊢
    exact List.rel_append hchanged (.cons hremoval .nil)
  refine ⟨added ++ (changed ++ [["DROP INDEX " ++ target]]).flatten ++ creates ++ d.raw, ?_, ?_⟩
  · rw [hdrop]
    simp only [toSql, tableStatements, if_neg halter, bind_eq_ok_iff, pure_eq_ok_iff]
    exact ⟨quoted, htable, _, ⟨added, hadded, _, hoperations, rfl⟩, creates, hcreates, rfl⟩
  · simp

theorem qualifiedIndex_of_not_mem (h : '.' ∉ d.name.toList) (name : String) :
    d.qualifiedIndex name = quoteIdentifier name := by
  rw [qualifiedIndex, qualifier?_of_not_mem h]

theorem qualifiedIndex_eq {schema last qualifier name quoted : String}
    (hname : d.name = schema ++ "." ++ last) (hlast : '.' ∉ last.toList)
    (hschema : quoteIdentifier schema = .ok qualifier)
    (hquoted : quoteIdentifier name = .ok quoted) :
    d.qualifiedIndex name = .ok (qualifier ++ "." ++ quoted) := by
  rw [qualifiedIndex, hname, qualifier?_qualified hlast]
  simp only [hschema, hquoted]
  rfl

/-- What names an index when it is dropped: its quoted name, and in front of it what stands in front
of the last segment of its table. -/
structure Drops (table quoted name target : String) : Prop where
  unqualified : '.' ∉ table.toList → target = name
  qualified : ∀ schema last, table = schema ++ "." ++ last → '.' ∉ last.toList → ∃ qualifier,
    quoteIdentifier schema = .ok qualifier ∧ target = qualifier ++ "." ++ name ∧
      quoted = qualifier ++ "." ++ quotedName last

theorem exists_drops (htable : Quotable table) (hstar : "*" ∉ segments table)
    (hcount : ∀ schema last, table = schema ++ "." ++ last → '.' ∉ last.toList →
      schema.map Char.toLower ≠ "count(*)") {quoted : String}
    (hquoted : quoteIdentifier table = .ok quoted) {index name : String}
    (hname : quoteIdentifier index = .ok name) : ∃ target, Drops table quoted name target ∧
      ∀ d : TableDraft, d.name = table → d.qualifiedIndex index = .ok target := by
  by_cases hdot : '.' ∈ table.toList
  · obtain ⟨schema, last, rfl, hlast⟩ := exists_eq_qualified hdot
    obtain ⟨qualifier, hschema, hwritten⟩ :=
      quoteIdentifier_qualified hlast htable hstar (hcount schema last rfl hlast)
    obtain rfl := Except.ok.inj (hquoted.symm.trans hwritten)
    refine ⟨qualifier ++ "." ++ name, ⟨fun hnot => absurd hdot hnot, ?_⟩,
      fun d hd => qualifiedIndex_eq hd hlast hschema hname⟩
    intro schema' last' heq hlast'
    obtain ⟨rfl, rfl⟩ := qualified_inj hlast hlast' heq
    exact ⟨qualifier, hschema, rfl, rfl⟩
  · refine ⟨name, ⟨fun _ => rfl, fun schema last heq _ => absurd ?_ hdot⟩, ?_⟩
    · simp [heq]
    · rintro d rfl
      rw [qualifiedIndex_of_not_mem hdot, hname]

theorem exists_toSql_empty {quoted : String} (hquoted : quoteIdentifier table = .ok quoted)
    (mode : TableMode) : ∃ statements, (empty table mode).toSql = .ok statements := by
  cases mode <;>
    simp [toSql, tableStatements, createStatement, TableMode.isCreate, empty, hquoted, bind,
      Except.bind, pure, Except.pure]

/-- For a table whose name has no star for a segment and no qualifier that looks like the count of
all rows: a statement that creates an index over some columns names it by one quoted segment, and a
statement that drops the index over the same columns names it by that segment alone, or behind a
qualifier if the table has one, which is the qualifier that the table is written with. A draft of
the table that is compiled without the index is compiled with it, or with its removal. -/
theorem createdIndex_dropped (htable : Quotable table) (hstar : "*" ∉ segments table)
    (hcount : ∀ schema last, table = schema ++ "." ++ last → '.' ∉ last.toList →
      schema.map Char.toLower ≠ "count(*)")
    (hne : columns ≠ []) (hcolumns : ∀ column ∈ columns, Quotable column) :
    ∃ index name quoted quotedColumns target, index = (empty table .alter).indexName columns ∧
      name = quotedName index ∧ readName name = some [index] ∧
      quoteIdentifier table = .ok quoted ∧ quoteIdentifiers columns = .ok quotedColumns ∧
      Drops table quoted name target ∧
      (∀ mode, ∃ statements, (empty table mode).toSql = .ok statements) ∧
      ∀ d : TableDraft, d.name = table → (∃ statements, d.toSql = .ok statements) →
        (∀ unique method?, ∃ statements,
          (d.index ⟨columns, unique, method?⟩).toSql = .ok statements ∧
          createIndexSql d.mode ⟨columns, unique, method?⟩ name quoted quotedColumns ∈ statements) ∧
        (d.mode = .alter → index ∉ OrderedMap.keys d.indexes → ∃ statements,
          (d.dropIndex columns).toSql = .ok statements ∧ "DROP INDEX " ++ target ∈ statements) := by
  have hname : quoteIdentifier ((empty table .alter).indexName columns) =
      .ok (quotedName ((empty table .alter).indexName columns)) :=
    quoteIdentifier_indexName htable.noNul fun column hcolumn => (hcolumns column hcolumn).noNul
  obtain ⟨quoted, hquoted⟩ := quotable_iff.2 htable
  obtain ⟨quotedColumns, hquotedColumns⟩ := quotable_quoteIdentifiers_iff.2 hcolumns
  obtain ⟨target, hdrops, htarget⟩ := exists_drops htable hstar hcount hquoted hname
  refine ⟨_, _, quoted, quotedColumns, target, rfl, rfl, readName_quotedName _, hquoted,
    hquotedColumns, hdrops, exists_toSql_empty hquoted, fun d hd hsql => ?_⟩
  have hindex : d.indexName columns = (empty table .alter).indexName columns :=
    congrFun (indexName_congr hd) columns
  rw [← hindex] at hname htarget ⊢
  refine ⟨fun unique method? => ?_, fun hmode hpending => ?_⟩
  · exact exists_toSql_index hsql hne (hd ▸ hquoted) hname hquotedColumns
  · exact exists_toSql_dropIndex hsql hmode hpending (htarget d hd)

/-- Dots and quotes in the names of the table and of a column. -/
theorem createdIndex_dropped_events :
    let columns := ["at.day", "a\"b"]
    Quotable "app.v1.events" ∧ "*" ∉ segments "app.v1.events" ∧ columns ≠ [] ∧
      (∀ column ∈ columns, Quotable column) ∧
      ∃ statements, ((empty "app.v1.events" .alter).dropIndex columns).toSql = .ok statements ∧
        "DROP INDEX \"app\".\"v1\".\"idx_app_v1_events_at_day_a\"\"b\"" ∈ statements := by
  intro columns
  have htable : Quotable "app.v1.events" := by decide +kernel
  have hstar : "*" ∉ segments "app.v1.events" := by decide +kernel
  have hcolumns : ∀ column ∈ columns, Quotable column := by decide +kernel
  have hcount : ∀ schema last, "app.v1.events" = schema ++ "." ++ last → '.' ∉ last.toList →
      schema.map Char.toLower ≠ "count(*)" := by
    intro schema last heq hlast
    have hevents : "app.v1" ++ "." ++ "events" = schema ++ "." ++ last := heq
    obtain ⟨rfl, -⟩ := qualified_inj (by decide) hlast hevents
    decide +kernel
  obtain ⟨index, name, quoted, quotedColumns, target, hindex, hname, -, -, -, hdrops, hempty,
    hdrafts⟩ := createdIndex_dropped htable hstar hcount (by decide) hcolumns
  obtain ⟨qualifier, hqualifier, rfl, -⟩ := hdrops.qualified "app.v1" "events" rfl (by decide)
  have happ : quoteIdentifier "app.v1" = .ok "\"app\".\"v1\"" := by decide +kernel
  obtain rfl := Except.ok.inj (hqualifier.symm.trans happ)
  have hpending : index ∉ OrderedMap.keys (empty "app.v1.events" .alter).indexes := by
    simp [empty, OrderedMap.keys]
  obtain ⟨statements, hsql, hmem⟩ := (hdrafts _ rfl (hempty .alter)).2 rfl hpending
  refine ⟨htable, hstar, by decide, hcolumns, statements, hsql, ?_⟩
  have htext : "DROP INDEX \"app\".\"v1\".\"idx_app_v1_events_at_day_a\"\"b\"" =
      "DROP INDEX " ++ ("\"app\".\"v1\"" ++ "." ++ name) := by
    rw [hname, hindex]
    decide +kernel
  exact htext ▸ hmem

end TableDraft

end PgToolkit
