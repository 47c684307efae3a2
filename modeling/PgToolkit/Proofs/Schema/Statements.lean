import PgToolkit.Proofs.Schema.CallerSql
import PgToolkit.Proofs.Value.Literal

/-!
# Statements of schema changes are tidy

Every statement that a queue without SQL of the caller is compiled to starts with a keyword and is
tidy, whatever its names and defaults are.
-/

namespace PgToolkit

open Sql

/-- A tidy statement that is not empty and does not start with a line break. -/
structure StandsAlone (sql : String) : Prop where
  tidy : Tidy sql.toList
  starts : sql.toList.head?.any (· != '\n') = true

namespace StandsAlone

variable {s k t : String}

theorem keyword (hk : Inert k.toList) (hstart : k.toList.head?.any (· != '\n') = true)
    (ht : Tidy t.toList) : StandsAlone (k ++ t) where
  tidy := by
    rw [String.toList_append]
    exact hk.tidy_append ht
  starts := by
    rw [String.toList_append]
    cases hlist : k.toList with
    | nil => simp [hlist] at hstart
    | cons c rest => simpa [hlist] using hstart

theorem append_tail (hs : StandsAlone s) (ht : TidyTail t.toList) : StandsAlone (s ++ t) where
  tidy := by
    rw [String.toList_append]
    exact hs.tidy.append_tail ht
  starts := by
    have hstart := hs.starts
    rw [String.toList_append]
    cases hlist : s.toList with
    | nil => simp [hlist] at hstart
    | cons c rest => simpa [hlist] using hstart

theorem append_inert (hs : StandsAlone s) (hk : Inert k.toList) : StandsAlone (s ++ k) :=
  hs.append_tail hk.tail

/-- Behind a statement may stand further keywords and a text. -/
theorem append_separator (hs : StandsAlone s) (hk : Inert k.toList) (hne : k.toList ≠ [])
    (ht : Tidy t.toList) : StandsAlone (s ++ k ++ t) := by
  rw [String.append_assoc]
  refine hs.append_tail ?_
  rw [String.toList_append]
  exact hk.tail_append hne ht

end StandsAlone

/-! ### Definitions of columns -/

namespace ColumnType

theorem inert_sql {type : ColumnType} (hraw : type.rawTexts = []) : Inert type.sql.toList := by
  cases type with
  | varchar length =>
    simp only [sql, String.toList_append]
    exact (Inert.append (by decide) (inert_toString length)).append (by decide)
  | decimal precision scale =>
    simp only [sql, String.toList_append]
    have hprecision := Inert.append (s := "decimal(".toList) (by decide) (inert_toString precision)
    exact ((hprecision.append (by decide)).append (inert_toString scale)).append (by decide)
  | specific sql => simp [rawTexts] at hraw
  | _ => decide

theorem inert_castSql {type : ColumnType} (hraw : type.rawTexts = []) :
    Inert type.castSql.toList := by
  cases type with
  | serial => decide
  | bigSerial => decide
  | _ => exact inert_sql hraw

end ColumnType

theorem tail_actionClause {keywords : String} (hkeywords : Inert keywords.toList)
    (action? : Option ReferentialAction) : TidyTail (actionClause keywords action?).toList := by
  cases action? with
  | none => exact Inert.tail (by simp [actionClause, Inert])
  | some action =>
    have haction : Inert action.sql.toList := by cases action <;> decide
    simp only [actionClause, String.toList_append]
    exact (hkeywords.append haction).tail

theorem ForeignKey.tidy_toSql {fk : ForeignKey} {sql : String} (h : fk.toSql = .ok sql) :
    Tidy sql.toList := by
  simp only [toSql, bind_eq_ok_iff, pure_eq_ok_iff] at h
  obtain ⟨table, htable, column, hcolumn, rfl⟩ := h
  simp only [String.toList_append]
  have hhead : Tidy ("REFERENCES ".toList ++ table.toList) :=
    Inert.tidy_append (by decide) (tidy_quoteIdentifier htable)
  have hname := hhead.append_separator (k := " (".toList) (by decide) (by decide)
    (tidy_quoteIdentifier hcolumn)
  have hclosed := hname.append_tail (Inert.tail (k := ")".toList) (by decide))
  exact (hclosed.append_tail (tail_actionClause (by decide) fk.onDelete?)).append_tail
    (tail_actionClause (by decide) fk.onUpdate?)

/-- A default is a literal with a cast. -/
theorem tidy_defaultSql {value : Value} {type : ColumnType} {sql : String}
    (hvalue : value.rawTexts = []) (htype : type.rawTexts = [])
    (h : defaultSql value type = .ok sql) : Tidy sql.toList := by
  simp only [defaultSql, bind_eq_ok_iff, pure_eq_ok_iff] at h
  obtain ⟨literal, hliteral, rfl⟩ := h
  have htidy := Value.tidy_literal hvalue hliteral
  split
  · exact htidy
  · simp only [String.toList_append]
    exact htidy.append_separator (by decide) (by decide) (type.inert_castSql htype).tidy

namespace Column

theorem tail_collationClause {collation? : Option String} {sql : String}
    (h : collationClause collation? = .ok sql) : TidyTail sql.toList := by
  cases collation? with
  | none =>
    obtain rfl := Except.ok.inj h
    exact Inert.tail (by decide)
  | some collation =>
    simp only [collationClause, bind_eq_ok_iff, pure_eq_ok_iff] at h
    obtain ⟨name, hname, rfl⟩ := h
    simp only [String.toList_append]
    exact Inert.tail_append (by decide) (by decide) (tidy_quoteIdentifier hname)

theorem tail_defaultClause {type : ColumnType} {default? : Option Value} {sql : String}
    (htype : type.rawTexts = []) (hdefault : defaultRawTexts default? = [])
    (h : defaultClause type default? = .ok sql) : TidyTail sql.toList := by
  cases default? with
  | none =>
    obtain rfl := Except.ok.inj h
    exact Inert.tail (by decide)
  | some value =>
    simp only [defaultClause, bind_eq_ok_iff, pure_eq_ok_iff] at h
    obtain ⟨literal, hliteral, rfl⟩ := h
    simp only [String.toList_append]
    exact Inert.tail_append (by decide) (by decide) (tidy_defaultSql hdefault htype hliteral)

theorem tail_referencesClause {references? : Option ForeignKey} {sql : String}
    (h : referencesClause references? = .ok sql) : TidyTail sql.toList := by
  cases references? with
  | none =>
    obtain rfl := Except.ok.inj h
    exact Inert.tail (by decide)
  | some fk =>
    simp only [referencesClause, bind_eq_ok_iff, pure_eq_ok_iff] at h
    obtain ⟨reference, hreference, rfl⟩ := h
    simp only [String.toList_append]
    exact Inert.tail_append (by decide) (by decide) (ForeignKey.tidy_toSql hreference)

theorem tidy_toSql {c : Column} {name sql : String} (hraw : c.rawTexts = [])
    (h : c.toSql name = .ok sql) : Tidy sql.toList := by
  simp only [rawTexts, List.append_eq_nil_iff, Option.toList_eq_nil_iff] at hraw
  obtain ⟨⟨htype, hdefault⟩, hcheck⟩ := hraw
  simp only [toSql, bind_eq_ok_iff, pure_eq_ok_iff] at h
  obtain ⟨quoted, hquoted, collation, hcollation, default, hclause, references, hreferences,
    rfl⟩ := h
  have hflag (flag : Bool) {y n : String} (hyes : Inert y.toList) (hno : Inert n.toList) :
      TidyTail (if flag then y else n).toList := by
    cases flag with
    | false => exact hno.tail
    | true => exact hyes.tail
  have hnone : TidyTail (checkClause c.check?).toList := by
    rw [hcheck]
    exact Inert.tail (by decide)
  simp only [String.toList_append]
  -- the clauses are appended in the order in which they are written
  have hname := (tidy_quoteIdentifier hquoted).append_separator (k := " ".toList) (by decide)
    (by decide) (c.type.inert_sql htype).tidy
  have hnull := (hname.append_tail (tail_collationClause hcollation)).append_tail
    (hflag c.nullable (y := "") (n := " NOT NULL") (by decide) (by decide))
  have hprimary := (hnull.append_tail (tail_defaultClause htype hdefault hclause)).append_tail
    (hflag c.primary (y := " PRIMARY KEY") (n := "") (by decide) (by decide))
  have hunique := hprimary.append_tail
    (hflag c.unique (y := " UNIQUE") (n := "") (by decide) (by decide))
  exact (hunique.append_tail hnone).append_tail (tail_referencesClause hreferences)

end Column

/-! ### Statements of tables -/

namespace TableDraft

/-- What holds of every statement for a part holds of all statements for an optional part. -/
theorem forall_statementFor {α : Type} {part : Option α} {statement : α → Except Error String}
    {statements : List String} {P : String → Prop}
    (h : statementFor part statement = .ok statements)
    (hpart : ∀ a, part = some a → ∀ sql, statement a = .ok sql → P sql) :
    ∀ sql ∈ statements, P sql := by
  cases part with
  | none =>
    obtain rfl := Except.ok.inj h
    simp
  | some a =>
    simp only [statementFor, bind_eq_ok_iff, pure_eq_ok_iff] at h
    obtain ⟨sql, hsql, rfl⟩ := h
    exact List.forall_mem_singleton.2 (hpart a rfl sql hsql)

theorem standsAlone_typeStatement {alter column sql : String} {type : ColumnType}
    {collation? : Option String} (halter : StandsAlone alter) (hcolumn : Tidy column.toList)
    (htype : type.rawTexts = []) (h : typeStatement alter column type collation? = .ok sql) :
    StandsAlone sql := by
  simp only [typeStatement, bind_eq_ok_iff, pure_eq_ok_iff] at h
  obtain ⟨collation, hcollation, rfl⟩ := h
  have hnamed := (halter.append_separator (k := " TYPE ") (by decide) (by decide)
    (type.inert_sql htype).tidy).append_tail (Column.tail_collationClause hcollation)
  have husing := hnamed.append_separator (k := " USING ") (by decide) (by decide) hcolumn
  exact husing.append_separator (by decide) (by decide) (type.inert_castSql htype).tidy

theorem standsAlone_defaultStatement {alter sql : String} {type? : Option ColumnType}
    {default? : Option Value} (halter : StandsAlone alter)
    (htype : (type?.map ColumnType.rawTexts).getD [] = [])
    (hdefault : defaultRawTexts default? = [])
    (h : defaultStatement alter type? default? = .ok sql) : StandsAlone sql := by
  cases default? with
  | none =>
    obtain rfl := Except.ok.inj h
    exact halter.append_inert (by decide)
  | some value =>
    cases type? with
    | none =>
      simp only [defaultStatement, bind_eq_ok_iff, pure_eq_ok_iff] at h
      obtain ⟨default, hvalue, rfl⟩ := h
      exact halter.append_separator (by decide) (by decide) (Value.tidy_literal hdefault hvalue)
    | some type =>
      simp only [defaultStatement, bind_eq_ok_iff, pure_eq_ok_iff] at h
      obtain ⟨default, hvalue, rfl⟩ := h
      exact halter.append_separator (by decide) (by decide)
        (tidy_defaultSql hdefault htype hvalue)

theorem standsAlone_alterStatements {d : TableDraft} {table name : String}
    {changes : ColumnChanges} {statements : List String} (htable : Tidy table.toList)
    (hraw : changes.rawTexts = []) (h : d.alterStatements table name changes = .ok statements) :
    ∀ sql ∈ statements, StandsAlone sql := by
  simp only [ColumnChanges.rawTexts, List.append_eq_nil_iff, Option.toList_eq_nil_iff] at hraw
  obtain ⟨⟨htypes, hdefaults⟩, hchecks⟩ := hraw
  simp only [alterStatements, bind_eq_ok_iff, pure_eq_ok_iff] at h
  obtain ⟨column, hquoted, type, htype, nullable, hnullable, default, hdefault, primary, hprimary,
    unique, hunique, check, hcheck, references, hreferences, rfl⟩ := h
  have hcolumn := tidy_quoteIdentifier hquoted
  have halterTable : StandsAlone ("ALTER TABLE " ++ table) :=
    .keyword (by decide) (by decide) htable
  have halter := halterTable.append_separator (k := " ALTER COLUMN ") (by decide) (by decide)
    hcolumn
  have hdrop {name constraint : String} (hname : quoteIdentifier name = .ok constraint) :=
    halterTable.append_separator (k := " DROP CONSTRAINT ") (by decide) (by decide)
      (tidy_quoteIdentifier hname)
  have hadd {name constraint : String} (hname : quoteIdentifier name = .ok constraint) :=
    halterTable.append_separator (k := " ADD CONSTRAINT ") (by decide) (by decide)
      (tidy_quoteIdentifier hname)
  -- type, nullability, default, primary key, uniqueness, check and reference, in this order
  simp only [List.forall_mem_append]
  refine ⟨⟨⟨⟨⟨⟨?_, ?_⟩, ?_⟩, ?_⟩, ?_⟩, ?_⟩, ?_⟩
  · refine forall_statementFor htype fun type htype sql hsql => ?_
    rw [htype] at htypes
    exact standsAlone_typeStatement halter hcolumn htypes hsql
  · refine forall_statementFor hnullable fun nullable _ sql hsql => ?_
    obtain rfl := Except.ok.inj hsql
    exact halter.append_inert (by split <;> decide)
  · refine forall_statementFor hdefault fun default hdefault sql hsql => ?_
    rw [hdefault] at hdefaults
    exact standsAlone_defaultStatement halter htypes hdefaults hsql
  · refine forall_statementFor hprimary fun primary _ sql hsql => ?_
    split at hsql
    · obtain rfl := Except.ok.inj hsql
      exact (halterTable.append_separator (k := " ADD PRIMARY KEY (") (by decide) (by decide)
        hcolumn).append_inert (by decide)
    · simp only [bind_eq_ok_iff, pure_eq_ok_iff] at hsql
      obtain ⟨constraint, hconstraint, rfl⟩ := hsql
      exact hdrop hconstraint
  · refine forall_statementFor hunique fun unique _ sql hsql => ?_
    simp only [bind_eq_ok_iff, pure_eq_ok_iff] at hsql
    obtain ⟨constraint, hconstraint, rfl⟩ := hsql
    split
    · exact ((hadd hconstraint).append_separator (k := " UNIQUE (") (by decide) (by decide)
        hcolumn).append_inert (by decide)
    · exact hdrop hconstraint
  · refine forall_statementFor hcheck fun check hpart sql hsql => ?_
    simp only [bind_eq_ok_iff, pure_eq_ok_iff] at hsql
    obtain ⟨constraint, hconstraint, rfl⟩ := hsql
    rw [hpart] at hchecks
    -- a condition would be SQL of the caller, so the constraint is dropped
    obtain rfl : check = none := hchecks
    exact hdrop hconstraint
  · refine forall_statementFor hreferences fun references _ sql hsql => ?_
    cases references with
    | none =>
      simp only [bind_eq_ok_iff, pure_eq_ok_iff] at hsql
      obtain ⟨constraint, hconstraint, rfl⟩ := hsql
      exact hdrop hconstraint
    | some fk =>
      simp only [bind_eq_ok_iff, pure_eq_ok_iff] at hsql
      obtain ⟨constraint, hconstraint, reference, hreference, rfl⟩ := hsql
      have hkey := (hadd hconstraint).append_separator (k := " FOREIGN KEY (") (by decide)
        (by decide) hcolumn
      exact hkey.append_separator (by decide) (by decide) (ForeignKey.tidy_toSql hreference)

theorem tidy_qualifiedIndex {d : TableDraft} {name sql : String}
    (h : d.qualifiedIndex name = .ok sql) : Tidy sql.toList := by
  unfold qualifiedIndex at h
  split at h
  · simp only [bind_eq_ok_iff, pure_eq_ok_iff] at h
    obtain ⟨schema, hschema, index, hindex, rfl⟩ := h
    simp only [String.toList_append]
    exact (tidy_quoteIdentifier hschema).append_separator (by decide) (by decide)
      (tidy_quoteIdentifier hindex)
  · exact tidy_quoteIdentifier h

theorem standsAlone_operationStatements {d : TableDraft} {table : String}
    {operation : AlterOperation} {statements : List String} (htable : Tidy table.toList)
    (hraw : operation.rawTexts = [])
    (h : d.operationStatements table operation = .ok statements) :
    ∀ sql ∈ statements, StandsAlone sql := by
  have halterTable : StandsAlone ("ALTER TABLE " ++ table) :=
    .keyword (by decide) (by decide) htable
  cases operation with
  | renameColumn source target =>
    simp only [operationStatements, bind_eq_ok_iff, pure_eq_ok_iff] at h
    obtain ⟨old, hold, new, hnew, rfl⟩ := h
    refine List.forall_mem_singleton.2 ?_
    have hrename := halterTable.append_separator (k := " RENAME COLUMN ") (by decide) (by decide)
      (tidy_quoteIdentifier hold)
    exact hrename.append_separator (by decide) (by decide) (tidy_quoteIdentifier hnew)
  | dropColumn name =>
    simp only [operationStatements, bind_eq_ok_iff, pure_eq_ok_iff] at h
    obtain ⟨column, hcolumn, rfl⟩ := h
    refine List.forall_mem_singleton.2 ?_
    exact halterTable.append_separator (by decide) (by decide) (tidy_quoteIdentifier hcolumn)
  | alterColumn name changes => exact standsAlone_alterStatements htable hraw h
  | dropIndex name =>
    simp only [operationStatements, bind_eq_ok_iff, pure_eq_ok_iff] at h
    obtain ⟨index, hindex, rfl⟩ := h
    refine List.forall_mem_singleton.2 ?_
    exact .keyword (by decide) (by decide) (tidy_qualifiedIndex hindex)

theorem standsAlone_indexStatement {d : TableDraft} {table name sql : String} {index : Index}
    (htable : Tidy table.toList) (h : d.indexStatement table name index = .ok sql) :
    StandsAlone sql := by
  simp only [indexStatement, bind_eq_ok_iff, pure_eq_ok_iff] at h
  obtain ⟨quoted, hquoted, columns, hcolumns, rfl⟩ := h
  have hhead : StandsAlone ("CREATE " ++ (if index.unique then "UNIQUE " else "") ++ "INDEX " ++
      (if d.mode = .createIfNotExists then "IF NOT EXISTS " else "") ++ quoted) := by
    refine .keyword ?_ ?_ (tidy_quoteIdentifier hquoted)
    · split <;> split <;> decide
    · split <;> split <;> decide
  have htarget := hhead.append_separator (k := " ON ") (by decide) (by decide) htable
  refine (StandsAlone.append_separator (htarget.append_tail ?_) (by decide) (by decide)
    (tidy_quoteIdentifiers hcolumns)).append_inert (by decide)
  cases index.method? with
  | none => exact Inert.tail (by decide)
  | some method => cases method <;> exact Inert.tail (by decide)

theorem standsAlone_createStatement {d : TableDraft} {table sql : String}
    (htable : Tidy table.toList) (hraw : d.columns.flatMap (fun column => column.2.rawTexts) = [])
    (h : d.createStatement table = .ok sql) : StandsAlone sql := by
  simp only [createStatement, bind_eq_ok_iff, pure_eq_ok_iff] at h
  obtain ⟨definitions, hdefinitions, rfl⟩ := h
  rw [List.flatMap_eq_nil_iff] at hraw
  have hlist : Tidy (", ".intercalate definitions).toList := by
    refine tidy_intercalate (by decide) (by decide) fun definition hmem => ?_
    obtain ⟨column, hcolumn, hsql⟩ := exists_mem_of_mapM_eq_ok hdefinitions hmem
    exact Column.tidy_toSql (hraw column hcolumn) hsql
  have hhead : StandsAlone
      ((if d.mode = .createIfNotExists then "CREATE TABLE IF NOT EXISTS " else "CREATE TABLE ") ++
        table) := by
    refine .keyword ?_ ?_ htable
    · split <;> decide
    · split <;> decide
  exact (hhead.append_separator (k := " (") (by decide) (by decide) hlist).append_inert (by decide)

theorem standsAlone_tableStatements {d : TableDraft} {table : String} {statements : List String}
    (htable : Tidy table.toList)
    (hcolumns : d.columns.flatMap (fun column => column.2.rawTexts) = [])
    (hoperations : d.operations.flatMap AlterOperation.rawTexts = [])
    (h : d.tableStatements table = .ok statements) : ∀ sql ∈ statements, StandsAlone sql := by
  unfold tableStatements at h
  split at h
  · simp only [bind_eq_ok_iff, pure_eq_ok_iff] at h
    obtain ⟨create, hcreate, rfl⟩ := h
    exact List.forall_mem_singleton.2 (standsAlone_createStatement htable hcolumns hcreate)
  · simp only [bind_eq_ok_iff, pure_eq_ok_iff] at h
    obtain ⟨added, hadded, changed, hchanged, rfl⟩ := h
    rw [List.flatMap_eq_nil_iff] at hcolumns hoperations
    have halterTable : StandsAlone ("ALTER TABLE " ++ table) :=
      .keyword (by decide) (by decide) htable
    refine List.forall_mem_append.2 ⟨fun sql hsql => ?_, fun sql hsql => ?_⟩
    · obtain ⟨column, hcolumn, hadd⟩ := exists_mem_of_mapM_eq_ok hadded hsql
      simp only [bind_eq_ok_iff, pure_eq_ok_iff] at hadd
      obtain ⟨definition, hdefinition, rfl⟩ := hadd
      exact halterTable.append_separator (by decide) (by decide)
        (Column.tidy_toSql (hcolumns column hcolumn) hdefinition)
    · obtain ⟨group, hgroup, hmem⟩ := List.mem_flatten.1 hsql
      obtain ⟨operation, hoperation, hok⟩ := exists_mem_of_mapM_eq_ok hchanged hgroup
      exact standsAlone_operationStatements htable (hoperations operation hoperation) hok sql hmem

theorem standsAlone_toSql {d : TableDraft} {statements : List String} (hraw : d.rawTexts = [])
    (h : d.toSql = .ok statements) : ∀ sql ∈ statements, StandsAlone sql := by
  simp only [rawTexts, List.append_eq_nil_iff] at hraw
  obtain ⟨⟨hcolumns, hoperations⟩, hnone⟩ := hraw
  simp only [toSql, bind_eq_ok_iff, pure_eq_ok_iff] at h
  obtain ⟨table, hquoted, statements, hstatements, indexes, hindexes, rfl⟩ := h
  have htable := tidy_quoteIdentifier hquoted
  rw [hnone, List.append_nil]
  refine List.forall_mem_append.2 ⟨?_, fun sql hsql => ?_⟩
  · exact standsAlone_tableStatements htable hcolumns hoperations hstatements
  · obtain ⟨index, -, hindex⟩ := exists_mem_of_mapM_eq_ok hindexes hsql
    exact standsAlone_indexStatement htable hindex

end TableDraft

/-! ### Statements of a queue -/

theorem SchemaChange.standsAlone_statements {change : SchemaChange} {statements : List String}
    (hraw : change.rawTexts = []) (h : change.statements = .ok statements) :
    ∀ sql ∈ statements, StandsAlone sql := by
  cases change with
  | raw sql => simp [rawTexts] at hraw
  | table draft => exact draft.standsAlone_toSql hraw h
  | dropTable name ifExists =>
    simp only [SchemaChange.statements, bind_eq_ok_iff, pure_eq_ok_iff] at h
    obtain ⟨table, htable, rfl⟩ := h
    refine List.forall_mem_singleton.2 (.keyword ?_ ?_ (tidy_quoteIdentifier htable))
    · split <;> decide
    · split <;> decide
  | renameTable source target =>
    simp only [SchemaChange.statements, bind_eq_ok_iff, pure_eq_ok_iff] at h
    obtain ⟨old, hold, new, hnew, rfl⟩ := h
    have halterTable : StandsAlone ("ALTER TABLE " ++ old) :=
      .keyword (by decide) (by decide) (tidy_quoteIdentifier hold)
    exact List.forall_mem_singleton.2
      (halterTable.append_separator (by decide) (by decide) (tidy_quoteIdentifier hnew))

/-- Every statement of a queue without SQL of the caller is tidy and starts with a keyword. -/
theorem SchemaQueue.standsAlone_toSql {q : SchemaQueue} {statements : List String}
    (hraw : q.rawTexts = []) (h : q.toSql = .ok statements) :
    ∀ sql ∈ statements, StandsAlone sql := by
  simp only [toSql, bind_eq_ok_iff, pure_eq_ok_iff] at h
  obtain ⟨groups, hgroups, rfl⟩ := h
  rw [rawTexts, List.flatMap_eq_nil_iff] at hraw
  intro sql hsql
  obtain ⟨group, hgroup, hmem⟩ := List.mem_flatten.1 hsql
  obtain ⟨change, hchange, hok⟩ := exists_mem_of_mapM_eq_ok hgroups hgroup
  exact SchemaChange.standsAlone_statements (hraw change hchange) hok sql hmem

end PgToolkit
