import PgToolkit.Proofs.Query.Operands
import PgToolkit.Proofs.Query.Predicate
import PgToolkit.Proofs.Sql.Statement

/-!
# The pieces of queries are spaced

Every clause is made of spaced pieces, whatever its names and values are. Only the SQL of the caller
has to meet a condition of its own: in the place of a name or a value it is self-contained, and as a
fragment it is closed.
-/

namespace PgToolkit

open Sql

/-! ### Names, values and fragments -/

namespace Piece

/-- A name is a sound piece, whatever it holds. -/
theorem isSound_ofIdentifier {id : Identifier} {p : Piece} (h : ofIdentifier id = .ok p)
    (hraw : ∀ sql ∈ id.rawTexts, SelfContained sql) : p.IsSound := by
  cases id with
  | name text =>
    obtain ⟨sql, hsql, rfl⟩ := map_eq_ok_iff.1 h
    exact tidy_quoteIdentifier hsql
  | raw sql =>
    obtain rfl := Except.ok.inj h
    exact hraw sql (by simp [Identifier.rawTexts])

theorem eq_raw_of_mem_rawTexts {id : Identifier} {p : Piece} (h : ofIdentifier id = .ok p)
    {sql : String} (hsql : sql ∈ id.rawTexts) : p = .raw sql := by
  cases id with
  | name text => simp [Identifier.rawTexts] at hsql
  | raw text =>
    obtain rfl := List.mem_singleton.1 hsql
    exact (Except.ok.inj h).symm

/-- A value is a sound piece, whatever it is. -/
theorem isSound_ofValue {value : Value} (hraw : ∀ sql, value = .raw sql → SelfContained sql) :
    (ofValue value).IsSound := by
  cases value with
  | raw sql => exact hraw sql rfl
  | _ => trivial

theorem isSound_ofValue_of_rawTexts {value : Value}
    (hraw : ∀ sql ∈ value.rawTexts, SelfContained sql) : (ofValue value).IsSound :=
  isSound_ofValue fun sql heq => hraw sql (by simp [heq, Value.rawTexts])

theorem ofValue_eq_raw_iff {value : Value} {sql : String} :
    ofValue value = .raw sql ↔ value = .raw sql := by
  cases value <;> simp [ofValue]

theorem isSound_ofFragment {sql : String} {params : List Value} {p : Piece}
    (h : ofFragment sql params = .ok p) (hclosed : Closed sql.toList) : p.IsSound := by
  obtain ⟨hcount, rfl⟩ := ofFragment_eq_ok_iff.1 h
  exact ⟨hclosed, hcount⟩

theorem spaced_values {values : List Value}
    (hraw : ∀ sql, .raw sql ∈ values → SelfContained sql) :
    Spaced (separated ", " (values.map fun value => [ofValue value])) := by
  refine .separated (by decide) (by decide) ?_
  intro group hgroup
  obtain ⟨value, hvalue, rfl⟩ := List.mem_map.1 hgroup
  refine Trailing.nil.piece (isSound_ofValue ?_)
  rintro sql rfl
  exact hraw sql hvalue

theorem trailing_returning {columns : List String} {ps : List Piece}
    (h : returning columns = .ok ps) : Trailing ps := by
  cases columns with
  | nil =>
    obtain rfl := Except.ok.inj h
    exact .nil
  | cons column columns =>
    simp only [returning_cons, bind_eq_ok_iff, pure_eq_ok_iff] at h
    obtain ⟨sql, hsql, rfl⟩ := h
    have hnames : IsSound (.text sql) := tidy_quoteIdentifiers hsql
    exact .keyword (by decide) (by decide) (Trailing.nil.piece hnames)

end Piece

open Piece

/-! ### Selected columns -/

namespace Projection

/-- A field is read by a path or an arrow, and its name is quoted. -/
theorem tidy_access {column : String} (hcolumn : Tidy column.toList) (field : String) :
    Tidy (access column field).toList := by
  unfold access
  split
  · simp only [String.toList_append]
    exact hcolumn.append_separator (by decide) (by decide) (tidy_literal _)
  · have harrow : Tidy ("->".toList ++ (literal field).toList) :=
      .minus (by decide) (tidy_literal field)
    simp only [String.toList_append, List.append_assoc]
    exact hcolumn.append harrow (by simp [Unquoted])

theorem tidy_pair {column : String} (hcolumn : Tidy column.toList) (field : String) :
    Tidy (pair column field).toList := by
  simp only [pair, String.toList_append]
  exact (tidy_literal field).append_separator (by decide) (by decide) (tidy_access hcolumn field)

theorem tidy_toSql {p : Projection} {sql : String} (h : p.toSql = .ok sql) : Tidy sql.toList := by
  simp only [toSql, ite_error_eq_ok_iff, bind_eq_ok_iff, pure_eq_ok_iff] at h
  obtain ⟨-, column, hcolumn, name, hname, rfl⟩ := h
  have hpairs : Tidy (", ".intercalate (p.fields.map (pair column))).toList := by
    refine tidy_intercalate (by decide) (by decide) fun s hs => ?_
    obtain ⟨field, -, rfl⟩ := List.mem_map.1 hs
    exact tidy_pair (tidy_quoteIdentifier hcolumn) field
  have hname := tidy_quoteIdentifier hname
  simp only [String.toList_append]
  refine Tidy.append_separator ?_ (by decide) (by decide) hname
  exact Inert.tidy_append (by decide) hpairs

end Projection

theorem SelectColumn.isSound_piece {c : SelectColumn} {p : Piece} (h : c.piece = .ok p)
    (hraw : ∀ sql ∈ c.rawTexts, SelfContained sql) : p.IsSound := by
  cases c with
  | column name => exact isSound_ofIdentifier h hraw
  | json projection =>
    obtain ⟨sql, hsql, rfl⟩ := map_eq_ok_iff.1 h
    exact Projection.tidy_toSql hsql

/-! ### Operators and joins -/

theorem Operator.inert_sql (op : Operator) : Inert op.sql.toList := by
  cases op <;> decide

theorem trailing_operand (op : Operator) {p : Piece} (hp : p.IsSound) :
    Trailing [.text " ", .text op.sql, .text " ", p] :=
  .keyword (by decide) (by decide)
    (.keyword op.inert_sql (.keyword (by decide) (Trailing.nil.piece hp)))

namespace Join

theorem trailing_pieces {j : Join} {ps : List Piece} (h : j.pieces = .ok ps)
    (hraw : ∀ sql ∈ j.rawTexts, SelfContained sql) : Trailing ps := by
  simp only [pieces, bind_eq_ok_iff, pure_eq_ok_iff] at h
  obtain ⟨table, htable, left, hleft, right, hright, rfl⟩ := h
  have htable := isSound_ofIdentifier htable fun sql hsql => hraw sql (by simp [rawTexts, hsql])
  have hleft := isSound_ofIdentifier hleft fun sql hsql => hraw sql (by simp [rawTexts, hsql])
  have hright := isSound_ofIdentifier hright fun sql hsql => hraw sql (by simp [rawTexts, hsql])
  have hkind : Inert j.kind.sql.toList := by cases j.kind <;> decide
  have hon : Trailing [.text " ON ", left, .text " ", .text j.op.sql, .text " ", right] :=
    .keyword (by decide) (by decide) ((trailing_operand j.op hright).piece hleft)
  exact .keyword (by decide) (by decide) (.keyword hkind (.keyword (by decide) (hon.piece htable)))

theorem trailing_clause {joins : List Join} {ps : List Piece} (h : clause joins = .ok ps)
    (hraw : ∀ sql ∈ joins.flatMap rawTexts, SelfContained sql) : Trailing ps := by
  simp only [clause, bind_eq_ok_iff, pure_eq_ok_iff] at h
  obtain ⟨groups, hgroups, rfl⟩ := h
  refine .flatten fun group hgroup => ?_
  obtain ⟨j, hj, hpieces⟩ := exists_mem_of_mapM_eq_ok hgroups hgroup
  exact trailing_pieces hpieces fun sql hsql => hraw sql (List.mem_flatMap.2 ⟨j, hj, hsql⟩)

end Join

/-! ### Orderings -/

namespace OrderItem

theorem spaced_pieces {item : OrderItem} {ps : List Piece} (h : item.pieces = .ok ps)
    (hraw : ∀ sql ∈ item.rawTexts, SelfContained sql)
    (hfragment : ∀ sql ∈ item.fragments, Closed sql.toList) : Spaced ps := by
  cases item with
  | column name direction =>
    simp only [pieces, bind_eq_ok_iff, pure_eq_ok_iff] at h
    obtain ⟨name, hname, rfl⟩ := h
    have hdirection : Inert direction.sql.toList := by cases direction <;> decide
    have hend : Trailing [.text " ", .text direction.sql] :=
      .keyword (by decide) (by decide) (.keyword hdirection .nil)
    exact hend.piece (isSound_ofIdentifier hname hraw)
  | raw sql params =>
    simp only [pieces, bind_eq_ok_iff, pure_eq_ok_iff] at h
    obtain ⟨piece, hpiece, rfl⟩ := h
    exact Trailing.nil.piece (isSound_ofFragment hpiece (hfragment sql (by simp [fragments])))

theorem trailing_clause {orders : List OrderItem} {ps : List Piece} (h : clause orders = .ok ps)
    (hraw : ∀ sql ∈ orders.flatMap rawTexts, SelfContained sql)
    (hfragment : ∀ sql ∈ orders.flatMap fragments, Closed sql.toList) : Trailing ps := by
  cases orders with
  | nil =>
    obtain rfl := Except.ok.inj h
    exact .nil
  | cons first rest =>
    simp only [clause_cons, bind_eq_ok_iff, pure_eq_ok_iff] at h
    obtain ⟨groups, hgroups, rfl⟩ := h
    refine .keyword (by decide) (by decide) (.separated (by decide) (by decide) ?_)
    intro group hgroup
    obtain ⟨item, hitem, hpieces⟩ := exists_mem_of_mapM_eq_ok hgroups hgroup
    exact spaced_pieces hpieces
      (fun sql hsql => hraw sql (List.mem_flatMap.2 ⟨item, hitem, hsql⟩))
      (fun sql hsql => hfragment sql (List.mem_flatMap.2 ⟨item, hitem, hsql⟩))

end OrderItem

/-! ### Conditions -/

theorem Conjunction.inert_sql (conjunction : Conjunction) : Inert conjunction.sql.toList := by
  cases conjunction <;> decide

namespace Condition

/-- A predicate is spaced, when the SQL of the caller in it is. -/
theorem Rendered.spaced {mode : ListMode} {c : Condition} {ps : List Piece}
    (h : Rendered mode c ps) (hraw : ∀ sql, .raw sql ∈ ps → SelfContained sql)
    (hfragment : ∀ sql ∈ c.fragments, Closed sql.toList) : Spaced ps := by
  have hend : Trailing [.text ")"] := .keyword (by decide) (by decide) .nil
  have hcolumn {name : Identifier} {column : Piece} (hname : ofIdentifier name = .ok column)
      (hmem : column ∈ ps) : column.IsSound :=
    isSound_ofIdentifier hname fun sql hsql =>
      hraw sql (eq_raw_of_mem_rawTexts hname hsql ▸ hmem)
  cases h with
  | @fragment sql _ _ _ hpiece =>
    exact .keyword (by decide)
      (hend.piece (isSound_ofFragment hpiece (hfragment sql (by simp [fragments]))))
  | @unary _ op _ _ _ _ hname =>
    have hop : Trailing [.text " ", .text op.sql] :=
      .keyword (by decide) (by decide) (.keyword op.inert_sql .nil)
    exact hop.piece (hcolumn hname (by simp))
  | noItems => exact .keyword (by split <;> decide) .nil
  | @items _ op items _ column _ _ _ hname =>
    have hitem (sql : String) (hsql : .raw sql ∈ items) : .raw sql ∈
        separated ", " (items.map fun item => [ofValue item]) :=
      mem_separated_of_mem (List.mem_map_of_mem hsql) (List.mem_singleton_self _)
    have hlist : Spaced (separated ", " (items.map fun item => [ofValue item]) ++ [.text ")"]) :=
      (spaced_values fun sql hsql => hraw sql (by simp [hitem sql hsql])).append hend
    have htail : Trailing (.text " " :: .text op.sql :: .text " (" ::
        (separated ", " (items.map fun item => [ofValue item]) ++ [.text ")"])) :=
      .keyword (by decide) (by decide) (.keyword op.inert_sql (.keyword (by decide) hlist))
    exact htail.piece (hcolumn hname (by simp))
  | @whole _ op items _ _ _ _ hname =>
    have hbind : IsSound (.bind (.array items)) := trivial
    refine Trailing.piece (.keyword ?_ ?_ (hend.piece hbind)) (hcolumn hname (by simp))
    · split <;> decide
    · split <;> decide
  | @operand _ op value _ _ _ _ hname =>
    have hvalue : (ofValue value).IsSound :=
      isSound_ofValue fun sql hsql => hraw sql (by simp [ofValue_eq_raw_iff.2 hsql])
    exact (trailing_operand op hvalue).piece (hcolumn hname (by simp))

/-- A predicate holds raw SQL in the place of its column and its values only. -/
theorem Rendered.mem_inlined {mode : ListMode} {c : Condition} {ps : List Piece}
    (h : Rendered mode c ps) {sql : String} (hsql : .raw sql ∈ ps) : sql ∈ c.inlined mode := by
  have hcolumn {name : Identifier} {column : Piece} (hname : ofIdentifier name = .ok column)
      (heq : .raw sql = column) : sql ∈ name.rawTexts := by
    subst heq
    cases name with
    | name text =>
      obtain ⟨_, -, heq⟩ := map_eq_ok_iff.1 hname
      cases heq
    | raw text =>
      obtain rfl : text = sql := by simpa [ofIdentifier] using hname
      exact .head _
  cases h with
  | fragment hpiece =>
    obtain ⟨-, rfl⟩ := ofFragment_eq_ok_iff.1 hpiece
    simp at hsql
  | unary hop hname =>
    simp only [List.mem_cons, reduceCtorEq, List.not_mem_nil, or_false] at hsql
    exact List.mem_append_left _ (hcolumn hname hsql)
  | noItems hop hmode => simp at hsql
  | @items name op items conjunction column hop hmode hitems hname =>
    simp only [List.mem_cons, List.mem_append, reduceCtorEq, List.not_mem_nil, or_false,
      false_or] at hsql
    rcases hsql with hsql | hsql
    · exact List.mem_append_left _ (hcolumn hname hsql)
    · refine List.mem_append_right _ (Value.mem_rawTexts_of_isRaw.2 ?_)
      rw [operands_list hop, hmode]
      rcases mem_separated hsql with heq | ⟨group, hgroup, hmem⟩
      · cases heq
      · obtain ⟨item, hitem, rfl⟩ := List.mem_map.1 hgroup
        rwa [← ofValue_eq_raw_iff.1 (List.mem_singleton.1 hmem).symm]
  | whole hop hmode hname =>
    simp only [List.mem_cons, reduceCtorEq, List.not_mem_nil, or_false] at hsql
    exact List.mem_append_left _ (hcolumn hname hsql)
  | @operand name op value conjunction column hop hvalue hname =>
    simp only [List.mem_cons, reduceCtorEq, List.not_mem_nil, or_false, false_or] at hsql
    rcases hsql with hsql | hsql
    · exact List.mem_append_left _ (hcolumn hname hsql)
    · obtain rfl := ofValue_eq_raw_iff.1 hsql.symm
      refine List.mem_append_right _ (Value.mem_rawTexts_of_isRaw.2 ?_)
      rw [operands_operand hop hvalue]
      exact List.mem_singleton_self _

theorem mem_rawTexts_of_mem_inlined {mode : ListMode} {c : Condition} {sql : String}
    (h : sql ∈ c.inlined mode) : sql ∈ c.rawTexts := by
  cases c with
  | raw text params conjunction => simp [inlined] at h
  | column name op value conjunction =>
    simp only [inlined, List.mem_append, Value.mem_rawTexts_of_isRaw] at h
    refine List.mem_append.2 (h.imp_right fun hvalue => ?_)
    simp only [operands] at hvalue
    split at hvalue
    · simp at hvalue
    split at hvalue
    · next items hop =>
      cases mode with
      | items =>
        simp only [Option.map_some, Option.getD_some, Value.rawTexts,
          Value.itemRawTexts_eq_flatMap]
        exact List.mem_flatMap.2 ⟨_, hvalue, by simp [Value.rawTexts]⟩
      | whole => simp [ListMode.operands] at hvalue
    · next hother =>
      obtain rfl := Option.mem_toList.1 hvalue
      simp [Value.rawTexts]

/-- The predicates behind the first one, each with its conjunction, may stand behind any other. -/
theorem trailing_others {mode : ListMode} {rest : List Condition}
    {others : List (Conjunction × List Piece)}
    (h : List.Forall₂ (fun c other => other.1 = c.conjunction ∧ Rendered mode c other.2) rest others)
    (hraw : ∀ sql ∈ rest.flatMap (inlined mode), SelfContained sql)
    (hfragment : ∀ sql ∈ rest.flatMap fragments, Closed sql.toList) :
    Trailing (others.flatMap fun other => .text other.1.sql :: other.2) := by
  induction h with
  | nil => exact .nil
  | @cons c other rest others hother _ ih =>
    rw [List.flatMap_cons, List.forall_mem_append] at hraw hfragment
    have hspaced := hother.2.spaced (fun sql hsql => hraw.1 sql (hother.2.mem_inlined hsql))
      hfragment.1
    have hbreaks : other.1.sql.toList.head?.any isBreak = true := by cases other.1 <;> decide
    rw [List.flatMap_cons]
    exact .keyword other.1.inert_sql hbreaks (hspaced.append (ih hraw.2 hfragment.2))

theorem trailing_whereClause {mode : ListMode} {conditions : List Condition} {ps : List Piece}
    (h : whereClause mode conditions = .ok ps)
    (hraw : ∀ sql ∈ conditions.flatMap (inlined mode), SelfContained sql)
    (hfragment : ∀ sql ∈ conditions.flatMap fragments, Closed sql.toList) : Trailing ps := by
  cases conditions with
  | nil =>
    obtain rfl := Except.ok.inj h
    exact .nil
  | cons c rest =>
    obtain ⟨first, others, hfirst, hothers, rfl⟩ := whereClause_eq_ok_iff.1 h
    rw [List.flatMap_cons, List.forall_mem_append] at hraw hfragment
    have hspaced := hfirst.spaced (fun sql hsql => hraw.1 sql (hfirst.mem_inlined hsql))
      hfragment.1
    exact .keyword (by decide) (by decide)
      (hspaced.append (trailing_others hothers hraw.2 hfragment.2))

/-- What a condition writes is among all of its raw SQL. -/
theorem trailing_whereClause_of_rawTexts {mode : ListMode} {conditions : List Condition}
    {ps : List Piece} (h : whereClause mode conditions = .ok ps)
    (hraw : ∀ sql ∈ conditions.flatMap rawTexts, SelfContained sql)
    (hfragment : ∀ sql ∈ conditions.flatMap fragments, Closed sql.toList) : Trailing ps := by
  refine trailing_whereClause h (fun sql hsql => hraw sql ?_) hfragment
  obtain ⟨c, hc, hsql⟩ := List.mem_flatMap.1 hsql
  exact List.mem_flatMap.2 ⟨c, hc, mem_rawTexts_of_mem_inlined hsql⟩

end Condition

/-! ### Rows -/

/-- What is found in a row is one of its values. -/
theorem Record.forall_rawTexts_get? {row : Record} {P : String → Prop}
    (h : ∀ sql ∈ row.rawTexts, P sql) (column : String) :
    ∀ sql ∈ ((row.get? column).getD .null).rawTexts, P sql := by
  intro sql hsql
  cases hvalue : row.get? column with
  | none => simp [hvalue, Value.rawTexts] at hsql
  | some value =>
    have hmem : value ∈ row.values :=
      List.mem_map.2 ⟨_, OrderedMap.mem_of_get? hvalue, rfl⟩
    exact h sql (List.mem_flatMap.2 ⟨value, hmem, by simpa [hvalue] using hsql⟩)

namespace Query

theorem spaced_rowPieces {columns : List String} {index : Nat} {row : Record} {ps : List Piece}
    (h : rowPieces columns index row = .ok ps)
    (hraw : ∀ sql ∈ row.rawTexts, SelfContained sql) : Spaced ps := by
  obtain ⟨-, rfl⟩ := rowPieces_eq_ok_iff.1 h
  have hend : Trailing [.text ")"] := .keyword (by decide) (by decide) .nil
  refine .keyword (by decide) (.append (spaced_values fun sql hsql => ?_) hend)
  obtain ⟨column, -, hvalue⟩ := List.mem_map.1 hsql
  exact Record.forall_rawTexts_get? hraw column sql (by simp [hvalue, Value.rawTexts])

theorem spaced_rowsPieces {columns : List String} {index : Nat} {rows : List Record}
    {groups : List (List Piece)} (h : rowsPieces columns index rows = .ok groups)
    (hraw : ∀ sql ∈ rows.flatMap Record.rawTexts, SelfContained sql) :
    ∀ group ∈ groups, Spaced group := by
  induction rows generalizing index groups with
  | nil =>
    obtain rfl := Except.ok.inj h
    simp
  | cons row rest ih =>
    simp only [rowsPieces, bind_eq_ok_iff, pure_eq_ok_iff] at h
    obtain ⟨pieces, hpieces, others, hothers, rfl⟩ := h
    rw [List.flatMap_cons, List.forall_mem_append] at hraw
    exact List.forall_mem_cons.2 ⟨spaced_rowPieces hpieces hraw.1, ih hothers hraw.2⟩

theorem spaced_rowInsertion {q : Query} {rows : List Record} {ps : List Piece}
    (h : q.rowInsertion rows = .ok ps) (htable : ∀ sql ∈ q.table.rawTexts, SelfContained sql)
    (hraw : ∀ sql ∈ rows.flatMap Record.rawTexts, SelfContained sql) : Spaced ps := by
  cases rows with
  | nil => simp [rowInsertion] at h
  | cons first rest =>
    obtain ⟨table, hpiece, ⟨-, -, rfl⟩ | ⟨-, columns, hcolumns, rows, hrows, rfl⟩⟩ :=
      rowInsertion_cons_eq_ok_iff.1 h
    · have hend : Trailing [.text " DEFAULT VALUES"] := .keyword (by decide) (by decide) .nil
      exact .keyword (by decide) (hend.piece (isSound_ofIdentifier hpiece htable))
    · -- from the end of the statement to its beginning
      have hnames : IsSound (.text columns) := tidy_quoteIdentifiers hcolumns
      have hvalues : Trailing (.text ") VALUES " :: separated ", " rows) :=
        .keyword (by decide) (by decide)
          (.separated (by decide) (by decide) (spaced_rowsPieces hrows hraw))
      have hlist : Trailing (.text " (" :: .text columns :: .text ") VALUES " ::
          separated ", " rows) :=
        .keyword (by decide) (by decide) (hvalues.piece hnames)
      exact .keyword (by decide) (hlist.piece (isSound_ofIdentifier hpiece htable))

theorem tidy_overwrite {column sql : String} (h : overwrite column = .ok sql) :
    Tidy sql.toList := by
  simp only [overwrite, bind_eq_ok_iff, pure_eq_ok_iff] at h
  obtain ⟨name, hname, rfl⟩ := h
  have hname := tidy_quoteIdentifier hname
  simp only [String.toList_append]
  exact hname.append_separator (by decide) (by decide) hname

theorem trailing_conflictPieces {u : Upsert} {columns : List String} {ps : List Piece}
    (h : conflictPieces u columns = .ok ps) : Trailing ps := by
  simp only [conflictPieces, bind_eq_ok_iff, pure_eq_ok_iff] at h
  obtain ⟨target, htarget, assignments, hassignments, rfl⟩ := h
  have hnames : IsSound (.text target) := tidy_quoteIdentifiers htarget
  refine .keyword (by decide) (by decide) (Trailing.piece ?_ hnames)
  refine .keyword (by decide) (by decide) (Trailing.nil.piece ?_)
  show Tidy _
  split
  · exact Inert.tidy (by decide)
  · rw [String.toList_append]
    refine Inert.tidy_append (by decide) (tidy_intercalate (by decide) (by decide) fun s hs => ?_)
    obtain ⟨column, -, hcolumn⟩ := exists_mem_of_mapM_eq_ok hassignments hs
    exact tidy_overwrite hcolumn

theorem spaced_assignment {column : String} {value : Value} {ps : List Piece}
    (h : assignment column value = .ok ps)
    (hraw : ∀ sql ∈ value.rawTexts, SelfContained sql) : Spaced ps := by
  simp only [assignment, bind_eq_ok_iff, pure_eq_ok_iff] at h
  obtain ⟨name, hname, rfl⟩ := h
  have hsound : IsSound (.text name) := tidy_quoteIdentifier hname
  have hvalue : Trailing [.text " = ", ofValue value] :=
    .keyword (by decide) (by decide) (Trailing.nil.piece (isSound_ofValue_of_rawTexts hraw))
  exact hvalue.piece hsound

/-! ### Statements -/

theorem trailing_source {q : Query} {ps : List Piece} (h : q.source = .ok ps)
    (hraw : ∀ sql ∈ q.rawTexts, SelfContained sql)
    (hfragment : ∀ sql ∈ q.fragments, Closed sql.toList) : Trailing ps := by
  simp only [source, bind_eq_ok_iff, pure_eq_ok_iff] at h
  obtain ⟨table, htable, joins, hjoins, conditions, hconditions, rfl⟩ := h
  simp only [rawTexts, fragments, List.forall_mem_append] at hraw hfragment
  obtain ⟨⟨⟨⟨hrawTable, -⟩, hrawConditions⟩, hrawJoins⟩, -⟩ := hraw
  have hjoins := Join.trailing_clause hjoins hrawJoins
  have hconditions :=
    Condition.trailing_whereClause_of_rawTexts hconditions hrawConditions hfragment.1
  exact .keyword (by decide) (by decide)
    ((hjoins.append hconditions).piece (isSound_ofIdentifier htable hrawTable))

theorem trailing_paging {keyword : String} (hinert : Inert keyword.toList)
    (hbreaks : keyword.toList.head?.any isBreak = true) (limit : Option Int64) :
    Trailing (paging keyword limit) := by
  cases limit with
  | none => exact .nil
  | some n =>
    have hbind : IsSound (.bind (.int n)) := trivial
    exact .keyword hinert hbreaks (Trailing.nil.piece hbind)

theorem spaced_columnList {columns : List SelectColumn} {ps : List Piece}
    (h : columnList columns = .ok ps)
    (hraw : ∀ sql ∈ columns.flatMap SelectColumn.rawTexts, SelfContained sql) : Spaced ps := by
  cases columns with
  | nil =>
    obtain rfl := Except.ok.inj h
    exact .keyword (by decide) .nil
  | cons first rest =>
    simp only [columnList_cons, bind_eq_ok_iff, pure_eq_ok_iff] at h
    obtain ⟨pieces, hpieces, rfl⟩ := h
    refine .separated (by decide) (by decide) fun group hgroup => ?_
    obtain ⟨piece, hpiece, rfl⟩ := List.mem_map.1 hgroup
    obtain ⟨column, hcolumn, hsql⟩ := exists_mem_of_mapM_eq_ok hpieces hpiece
    refine Trailing.nil.piece (SelectColumn.isSound_piece hsql ?_)
    intro sql hmem
    exact hraw sql (List.mem_flatMap.2 ⟨column, hcolumn, hmem⟩)

theorem spaced_selectPieces {q : Query} {columns : List SelectColumn} {limit : Option Int64}
    {ps : List Piece} (h : q.selectPieces columns limit = .ok ps)
    (hcolumns : ∀ sql ∈ columns.flatMap SelectColumn.rawTexts, SelfContained sql)
    (hraw : ∀ sql ∈ q.rawTexts, SelfContained sql)
    (hfragment : ∀ sql ∈ q.fragments, Closed sql.toList) : Spaced ps := by
  simp only [selectPieces, bind_eq_ok_iff, pure_eq_ok_iff] at h
  obtain ⟨list, hlist, source, hsource, order, horder, rfl⟩ := h
  have hsource := trailing_source hsource hraw hfragment
  simp only [rawTexts, fragments, List.forall_mem_append] at hraw hfragment
  have horder := OrderItem.trailing_clause horder hraw.2 hfragment.2
  have hlist := spaced_columnList hlist hcolumns
  have hlimit : Trailing (paging " LIMIT " limit) := trailing_paging (by decide) (by decide) limit
  have hoffset : Trailing (paging " OFFSET " q.offset?) :=
    trailing_paging (by decide) (by decide) q.offset?
  exact .keyword (by decide)
    ((((hlist.append hsource).append horder).append hlimit).append hoffset)

theorem spaced_insertPieces {q : Query} {rows : List Record} {returning : List String}
    {ps : List Piece} (h : q.insertPieces rows returning = .ok ps)
    (htable : ∀ sql ∈ q.table.rawTexts, SelfContained sql)
    (hraw : ∀ sql ∈ rows.flatMap Record.rawTexts, SelfContained sql) : Spaced ps := by
  simp only [insertPieces, bind_eq_ok_iff, pure_eq_ok_iff] at h
  obtain ⟨insert, hinsert, returned, hreturned, rfl⟩ := h
  exact (spaced_rowInsertion hinsert htable hraw).append (trailing_returning hreturned)

theorem spaced_upsertPieces {q : Query} {rows : List Record} {u : Upsert} {ps : List Piece}
    (h : q.upsertPieces rows u = .ok ps) (htable : ∀ sql ∈ q.table.rawTexts, SelfContained sql)
    (hraw : ∀ sql ∈ rows.flatMap Record.rawTexts, SelfContained sql) : Spaced ps := by
  simp only [upsertPieces, ite_error_eq_ok_iff, bind_eq_ok_iff, pure_eq_ok_iff] at h
  obtain ⟨-, insert, hinsert, conflict, hconflict, returned, hreturned, rfl⟩ := h
  have hinsert := spaced_rowInsertion hinsert htable hraw
  exact (hinsert.append (trailing_conflictPieces hconflict)).append (trailing_returning hreturned)

theorem spaced_updatePieces {q : Query} {values : Record} {returning : List String}
    {ps : List Piece} (h : q.updatePieces values returning = .ok ps)
    (hvalues : ∀ sql ∈ values.rawTexts, SelfContained sql)
    (hraw : ∀ sql ∈ q.rawTexts, SelfContained sql)
    (hfragment : ∀ sql ∈ q.fragments, Closed sql.toList) : Spaced ps := by
  simp only [updatePieces, ite_error_eq_ok_iff, bind_eq_ok_iff, pure_eq_ok_iff] at h
  obtain ⟨-, -, table, htable, assignments, hassignments, conditions, hconditions, returned,
    hreturned, rfl⟩ := h
  simp only [rawTexts, fragments, List.forall_mem_append] at hraw hfragment
  obtain ⟨⟨⟨⟨hrawTable, -⟩, hrawConditions⟩, -⟩, -⟩ := hraw
  have hconditions :=
    Condition.trailing_whereClause_of_rawTexts hconditions hrawConditions hfragment.1
  -- the raw SQL of an assignment is that of its value
  have hset : Spaced (separated ", " assignments) := by
    refine .separated (by decide) (by decide) fun group hgroup => ?_
    obtain ⟨⟨column, value⟩, hentry, hpieces⟩ := exists_mem_of_mapM_eq_ok hassignments hgroup
    refine spaced_assignment hpieces fun sql hsql => ?_
    have hvalue : value ∈ values.values := List.mem_map.2 ⟨_, hentry, rfl⟩
    exact hvalues sql (List.mem_flatMap.2 ⟨value, hvalue, hsql⟩)
  have htail : Trailing (.text " SET " ::
      (separated ", " assignments ++ conditions ++ returned)) :=
    .keyword (by decide) (by decide)
      ((hset.append hconditions).append (trailing_returning hreturned))
  exact .keyword (by decide) (htail.piece (isSound_ofIdentifier htable hrawTable))

theorem spaced_deletePieces {q : Query} {returning : List String} {ps : List Piece}
    (h : q.deletePieces returning = .ok ps) (hraw : ∀ sql ∈ q.rawTexts, SelfContained sql)
    (hfragment : ∀ sql ∈ q.fragments, Closed sql.toList) : Spaced ps := by
  simp only [deletePieces, ite_error_eq_ok_iff, bind_eq_ok_iff, pure_eq_ok_iff] at h
  obtain ⟨-, table, htable, conditions, hconditions, returned, hreturned, rfl⟩ := h
  simp only [rawTexts, fragments, List.forall_mem_append] at hraw hfragment
  obtain ⟨⟨⟨⟨hrawTable, -⟩, hrawConditions⟩, -⟩, -⟩ := hraw
  have hconditions :=
    Condition.trailing_whereClause_of_rawTexts hconditions hrawConditions hfragment.1
  have htail := hconditions.append (trailing_returning hreturned)
  exact .keyword (by decide) (htail.piece (isSound_ofIdentifier htable hrawTable))

/-- The pieces of every statement are spaced. -/
theorem spaced_pieces {q : Query} {command : Command} {ps : List Piece}
    (h : q.pieces command = .ok ps)
    (hraw : ∀ sql ∈ q.rawTexts ++ command.rawTexts, SelfContained sql)
    (hfragment : ∀ sql ∈ q.fragments, Closed sql.toList) : Spaced ps := by
  obtain ⟨hquery, hcommand⟩ := List.forall_mem_append.1 hraw
  have hparts := hquery
  simp only [rawTexts, List.forall_mem_append] at hparts
  obtain ⟨⟨⟨⟨htable, hcolumns⟩, -⟩, -⟩, -⟩ := hparts
  cases command with
  | select => exact spaced_selectPieces h hcolumns hquery hfragment
  | first => exact spaced_selectPieces h hcolumns hquery hfragment
  | count =>
    obtain ⟨source, hsource, h⟩ := bind_eq_ok_iff.1 h
    obtain rfl := pure_eq_ok_iff.1 h
    exact .keyword (by decide) (trailing_source hsource hquery hfragment).spaced
  | pluck column =>
    refine spaced_selectPieces h ?_ hquery hfragment
    simpa [SelectColumn.rawTexts, Command.rawTexts] using hcommand
  | insert rows returning => exact spaced_insertPieces h htable hcommand
  | upsert rows options => exact spaced_upsertPieces h htable hcommand
  | update values returning => exact spaced_updatePieces h hcommand hquery hfragment
  | delete returning => exact spaced_deletePieces h hquery hfragment

end Query

end PgToolkit
