import PgToolkit.Proofs.Query.CallerSql
import PgToolkit.Proofs.Query.Predicate

/-!
# Operands

The values that a statement writes: the right sides of conditions, the cells of rows, the assigned
values and the paging. Each of them is written as one. Raw SQL becomes a part of the text, and every
other operand is bound, together with all that is inside of it.
-/

namespace PgToolkit

open Sql

/-! ### Definitions -/

/-- The values that are written for a list: its items, or the array of them. -/
def ListMode.operands (items : List Value) : ListMode → List Value
  | .items => items
  | .whole => [.array items]

namespace Condition

/-- The values that a condition writes. -/
def operands (mode : ListMode) : Condition → List Value
  | .raw _ params _ => params
  | .column _ op value _ =>
    if op.isUnary then []
    else
      match op.isList, value with
      | true, some (.array items) => mode.operands items
      | _, value => value.toList

def fragmentParams : Condition → List Value
  | .column _ _ _ _ => []
  | .raw _ params _ => params

/-- The raw SQL that a condition writes in the place of its column and its values. An array is bound
with all that is inside of it. -/
def inlined (mode : ListMode) : Condition → List String
  | .column name op value conjunction =>
    let values := operands mode (.column name op value conjunction)
    name.rawTexts ++ (values.filter Value.isRaw).flatMap Value.rawTexts
  | .raw _ _ _ => []

end Condition

namespace OrderItem

/-- The values that an item of the ordering writes. -/
def operands : OrderItem → List Value
  | .column _ _ => []
  | .raw _ params => params

end OrderItem

namespace Query

/-- The values of a row in the order of the columns. -/
def rowOperands (columns : List String) (row : Record) : List Value :=
  columns.map fun column => (row.get? column).getD .null

/-- The cells of inserted rows, row by row. The columns are those of the first row. -/
def cells (rows : List Record) : List Value :=
  rows.flatMap (rowOperands ((rows.head?.map Record.columns).getD []))

/-- The number of rows behind a keyword of paging. -/
def pagingOperands (limit : Option Int64) : List Value :=
  (limit.map Value.int).toList

/-- The values that the SELECT of at most `limit` rows writes. -/
def selectOperands (q : Query) (limit : Option Int64) : List Value :=
  q.conditions.flatMap (Condition.operands .items) ++ q.orders.flatMap OrderItem.operands ++
    pagingOperands limit ++ pagingOperands q.offset?

/-- The values that a statement writes, in the order in which it writes them. -/
def operands (q : Query) : Command → List Value
  | .select | .pluck _ => q.selectOperands q.limit?
  | .first => q.selectOperands (some 1)
  | .count | .delete _ => q.conditions.flatMap (Condition.operands .items)
  | .insert rows _ | .upsert rows _ => cells rows
  | .update values _ => values.values ++ q.conditions.flatMap (Condition.operands .whole)

/-- The values that the caller gives with the fragments of a query. -/
def fragmentParams (q : Query) : List Value :=
  q.conditions.flatMap Condition.fragmentParams ++ q.orders.flatMap OrderItem.operands

end Query

/-! ### Raw SQL in values -/

namespace Value

theorem isRaw_eq_false_of_rawTexts {v : Value} (h : v.rawTexts = []) : v.isRaw = false := by
  cases v with
  | raw sql => simp [rawTexts] at h
  | _ => rfl

theorem mem_rawTexts_of_isRaw {values : List Value} {sql : String} :
    sql ∈ (values.filter isRaw).flatMap rawTexts ↔ .raw sql ∈ values := by
  simp only [List.mem_flatMap, List.mem_filter]
  constructor
  · rintro ⟨v, ⟨hv, hraw⟩, hsql⟩
    cases v with
    | raw text =>
      obtain rfl : sql = text := by simpa [rawTexts] using hsql
      exact hv
    | _ => simp [isRaw, kind] at hraw
  · exact fun hv => ⟨_, ⟨hv, rfl⟩, by simp [rawTexts]⟩

/-- Beside raw SQL itself only an array holds raw SQL. -/
theorem rawTexts_eq_nil_iff {v : Value} (h : v.isRaw = false) :
    v.rawTexts = [] ↔ ∀ items, v = .array items → itemRawTexts items = [] := by
  cases v with
  | raw sql => simp [isRaw, kind] at h
  | array items => simp [rawTexts]
  | _ => simp [rawTexts]

end Value

/-! ### Pieces that write operands -/

namespace Piece

theorem params_ofIdentifier {id : Identifier} {p : Piece} (hp : ofIdentifier id = .ok p) :
    p.params = [] := by
  cases id with
  | name name =>
    obtain ⟨sql, -, rfl⟩ := map_eq_ok_iff.1 hp
    rfl
  | raw sql =>
    obtain rfl := Except.ok.inj hp
    rfl

/-- Pieces that write values: those that are raw SQL as text, the others as parameters in their
order. -/
structure Writes (values : List Value) (pieces : List Piece) : Prop where
  params : pieces.flatMap Piece.params = values.filter fun v => !v.isRaw
  raw : ∀ sql, .raw sql ∈ values → .raw sql ∈ pieces

variable {values others : List Value} {ps qs : List Piece}

namespace Writes

theorem nil : Writes [] [] := ⟨rfl, by simp⟩

theorem append (h : Writes values ps) (hnext : Writes others qs) :
    Writes (values ++ others) (ps ++ qs) where
  params := by rw [List.flatMap_append, List.filter_append, h.params, hnext.params]
  raw sql hmem := by
    rcases List.mem_append.1 hmem with hmem | hmem
    · exact List.mem_append_left _ (h.raw sql hmem)
    · exact List.mem_append_right _ (hnext.raw sql hmem)

/-- A piece in front that has no parameters. -/
theorem cons {p : Piece} (hp : p.params = []) (h : Writes values ps) : Writes values (p :: ps) where
  params := by rw [List.flatMap_cons, hp, List.nil_append, h.params]
  raw sql hmem := List.mem_cons_of_mem _ (h.raw sql hmem)

theorem text (sql : String) (h : Writes values ps) : Writes values (.text sql :: ps) :=
  h.cons rfl

theorem identifier {id : Identifier} {p : Piece} (hp : ofIdentifier id = .ok p)
    (h : Writes values ps) : Writes values (p :: ps) :=
  h.cons (params_ofIdentifier hp)

/-- Raw SQL is written, everything else is bound. -/
theorem value (v : Value) (h : Writes values ps) : Writes (v :: values) (ofValue v :: ps) := by
  suffices hone : Writes [v] [ofValue v] from hone.append h
  cases v with
  | raw sql => exact ⟨rfl, by simp [ofValue]⟩
  | _ => exact ⟨rfl, by simp⟩

theorem fragment {sql : String} {params : List Value} {p : Piece}
    (hp : ofFragment sql params = .ok p) (hfree : ∀ v ∈ params, v.rawTexts = []) :
    Writes params [p] := by
  obtain ⟨-, rfl⟩ := ofFragment_eq_ok_iff.1 hp
  constructor
  · have hkept : ∀ v ∈ params, (!v.isRaw) = true := by
      intro v hv
      rw [Value.isRaw_eq_false_of_rawTexts (hfree v hv)]
      rfl
    rw [List.filter_eq_self.2 hkept]
    simp [Piece.params]
  · intro sql hmem
    have := hfree _ hmem
    simp [Value.rawTexts] at this

theorem separated (separator : String) {items : List (List Value)} {groups : List (List Piece)}
    (h : List.Forall₂ Writes items groups) :
    Writes items.flatten (Piece.separated separator groups) := by
  induction h with
  | nil => exact nil
  | @cons first group items groups hfirst hrest ih =>
    cases hrest with
    | nil => simpa [Piece.separated] using hfirst
    | cons hsecond hrest => exact hfirst.append (ih.text separator)

/-- Values with separators between them. -/
theorem ofValues (separator : String) (vs : List Value) :
    Writes vs (Piece.separated separator (vs.map fun v => [ofValue v])) := by
  have hitems : List.Forall₂ Writes (vs.map fun v => [v]) (vs.map fun v => [ofValue v]) := by
    rw [List.forall₂_map_left_iff, List.forall₂_map_right_iff, List.forall₂_same]
    exact fun v _ => nil.value v
  have hlist := separated separator hitems
  rwa [← List.flatMap_def, List.flatMap_singleton'] at hlist

/-- The groups of pieces for the items of a list write what each item does. -/
theorem of_mapM {α : Type} {f : α → Except Error (List Piece)} {operands : α → List Value}
    {items : List α} {groups : List (List Piece)} (h : items.mapM f = .ok groups)
    (hitem : ∀ a ∈ items, ∀ ps, f a = .ok ps → Writes (operands a) ps) :
    List.Forall₂ Writes (items.map operands) groups := by
  induction items generalizing groups with
  | nil =>
    obtain rfl := pure_eq_ok_iff.1 h
    exact .nil
  | cons item items ih =>
    simp only [List.mapM_cons, bind_eq_ok_iff, pure_eq_ok_iff] at h
    obtain ⟨first, hfirst, rest, hrest, rfl⟩ := h
    obtain ⟨hhead, htail⟩ := List.forall_mem_cons.1 hitem
    exact .cons (hhead first hfirst) (ih hrest htail)

end Writes

theorem writes_returning {columns : List String} (h : returning columns = .ok ps) :
    Writes [] ps := by
  cases columns with
  | nil =>
    obtain rfl := Except.ok.inj h
    exact .nil
  | cons column columns =>
    simp only [returning_cons, bind_eq_ok_iff, pure_eq_ok_iff] at h
    obtain ⟨sql, -, rfl⟩ := h
    exact .text _ (.text _ .nil)

end Piece

open Piece

/-! ### Clauses -/

theorem SelectColumn.writes_piece {c : SelectColumn} {p : Piece} (h : c.piece = .ok p) :
    Writes [] [p] := by
  cases c with
  | column name => exact Writes.nil.identifier h
  | json projection =>
    obtain ⟨sql, -, rfl⟩ := map_eq_ok_iff.1 h
    exact Writes.nil.text sql

namespace Join

theorem writes_pieces {j : Join} {ps : List Piece} (h : j.pieces = .ok ps) : Writes [] ps := by
  simp only [pieces, bind_eq_ok_iff, pure_eq_ok_iff] at h
  obtain ⟨table, htable, left, hleft, right, hright, rfl⟩ := h
  have hcomparison : Writes [] [left, .text " ", .text j.op.sql, .text " ", right] :=
    .identifier hleft (.text _ (.text _ (.text _ (Writes.nil.identifier hright))))
  exact .text _ (.text _ (.text _ (.identifier htable (.text _ hcomparison))))

theorem writes_clause {joins : List Join} {ps : List Piece} (h : clause joins = .ok ps) :
    Writes [] ps := by
  simp only [clause, bind_eq_ok_iff, pure_eq_ok_iff] at h
  obtain ⟨groups, hgroups, rfl⟩ := h
  have hall := mapM_eq_ok_iff.1 hgroups
  clear hgroups
  induction hall with
  | nil => exact .nil
  | cons hfirst _ ih => exact (writes_pieces hfirst).append ih

end Join

namespace OrderItem

theorem writes_pieces {item : OrderItem} {ps : List Piece} (h : item.pieces = .ok ps)
    (hfree : ∀ v ∈ item.operands, v.rawTexts = []) : Writes item.operands ps := by
  cases item with
  | column name direction =>
    simp only [pieces, bind_eq_ok_iff, pure_eq_ok_iff] at h
    obtain ⟨name, hname, rfl⟩ := h
    exact .identifier hname (.text _ (.text _ .nil))
  | raw sql params =>
    simp only [pieces, bind_eq_ok_iff, pure_eq_ok_iff] at h
    obtain ⟨piece, hpiece, rfl⟩ := h
    exact .fragment hpiece hfree

theorem writes_clause {orders : List OrderItem} {ps : List Piece} (h : clause orders = .ok ps)
    (hfree : ∀ v ∈ orders.flatMap operands, v.rawTexts = []) :
    Writes (orders.flatMap operands) ps := by
  cases orders with
  | nil =>
    obtain rfl := Except.ok.inj h
    exact .nil
  | cons first rest =>
    simp only [clause_cons, bind_eq_ok_iff, pure_eq_ok_iff] at h
    obtain ⟨groups, hgroups, rfl⟩ := h
    refine .text _ (.separated _ (Writes.of_mapM hgroups ?_))
    intro item hitem ps hps
    exact writes_pieces hps fun v hv => hfree v (List.mem_flatMap.2 ⟨item, hitem, hv⟩)

end OrderItem

namespace Condition

theorem operands_unary {op : Operator} (hop : op.isUnary = true) (mode : ListMode)
    (name : Identifier) (value : Option Value) (conjunction : Conjunction) :
    (column name op value conjunction).operands mode = [] :=
  if_pos hop

/-- The items of a list are written one by one or as one array. -/
theorem operands_list {op : Operator} (hop : op.isList = true) (mode : ListMode)
    (name : Identifier) (items : List Value) (conjunction : Conjunction) :
    (column name op (some (.array items)) conjunction).operands mode = mode.operands items := by
  simp [operands, hop, Operator.isUnary_of_isList hop]

theorem operands_operand {op : Operator} {value : Value} (hop : op.isUnary = false)
    (hvalue : op.isList = true → value.isArray = false) (mode : ListMode) (name : Identifier)
    (conjunction : Conjunction) :
    (column name op (some value) conjunction).operands mode = [value] := by
  simp only [operands, hop]
  split
  · contradiction
  split
  · next items hlist heq =>
    obtain rfl := Option.some.inj heq
    cases hvalue hlist
  · rfl

theorem writes_pieces {mode : ListMode} {c : Condition} {ps : List Piece}
    (h : c.pieces mode = .ok ps) (hfree : ∀ v ∈ c.fragmentParams, v.rawTexts = []) :
    Writes (c.operands mode) ps := by
  cases pieces_eq_ok_iff.1 h with
  | fragment hpiece =>
    have hfragment := (Writes.fragment hpiece hfree).append (Writes.nil.text ")")
    rw [List.append_nil] at hfragment
    exact .text _ hfragment
  | unary hop hname =>
    rw [operands_unary hop]
    exact .identifier hname (.text _ (.text _ .nil))
  | noItems hop hmode =>
    rw [operands_list hop, hmode]
    exact .text _ .nil
  | @items _ _ items _ _ hop hmode _ hname =>
    have hlist := (Writes.ofValues ", " items).append (Writes.nil.text ")")
    rw [List.append_nil] at hlist
    rw [operands_list hop, hmode]
    exact .identifier hname (.text _ (.text _ (.text _ hlist)))
  | whole hop hmode hname =>
    rw [operands_list hop, hmode]
    exact .identifier hname (.text _ ((Writes.nil.text ")").value _))
  | operand hop hvalue hname =>
    rw [operands_operand hop hvalue]
    exact .identifier hname (.text _ (.text _ (.text _ (Writes.nil.value _))))

theorem writes_attached {mode : ListMode} {conditions : List Condition} {ps : List Piece}
    (h : attached mode conditions = .ok ps)
    (hfree : ∀ v ∈ conditions.flatMap fragmentParams, v.rawTexts = []) :
    Writes (conditions.flatMap (operands mode)) ps := by
  induction conditions generalizing ps with
  | nil =>
    obtain rfl := Except.ok.inj h
    exact .nil
  | cons c rest ih =>
    simp only [attached, bind_eq_ok_iff, pure_eq_ok_iff] at h
    obtain ⟨predicate, hpredicate, others, hothers, rfl⟩ := h
    rw [List.flatMap_cons, List.forall_mem_append] at hfree
    exact .text _ ((writes_pieces hpredicate hfree.1).append (ih hothers hfree.2))

theorem writes_whereClause {mode : ListMode} {conditions : List Condition} {ps : List Piece}
    (h : whereClause mode conditions = .ok ps)
    (hfree : ∀ v ∈ conditions.flatMap fragmentParams, v.rawTexts = []) :
    Writes (conditions.flatMap (operands mode)) ps := by
  cases conditions with
  | nil =>
    obtain rfl := Except.ok.inj h
    exact .nil
  | cons c rest =>
    simp only [whereClause, bind_eq_ok_iff, pure_eq_ok_iff] at h
    obtain ⟨predicate, hpredicate, others, hothers, rfl⟩ := h
    rw [List.flatMap_cons, List.forall_mem_append] at hfree
    exact .text _ ((writes_pieces hpredicate hfree.1).append (writes_attached hothers hfree.2))

end Condition

/-! ### Rows -/

namespace Query

/-- A row is not refused if each of its columns is one of the first row's. -/
theorem rowPieces_eq_ok_iff {columns : List String} {index : Nat} {row : Record}
    {ps : List Piece} : rowPieces columns index row = .ok ps ↔
      row.columns ⊆ columns ∧
        ps = .text "(" :: (separated ", " ((rowOperands columns row).map fun v => [ofValue v]) ++
          [.text ")"]) := by
  have hfind : row.columns.find? (fun column => !columns.contains column) = none ↔
      row.columns ⊆ columns := by
    simp [List.find?_eq_none, List.subset_def]
  rw [rowPieces, rowOperands, List.map_map]
  split
  · next extra hextra =>
    have hnot : ¬ row.columns ⊆ columns := by
      rw [← hfind, hextra]
      exact Option.some_ne_none _
    simp [hnot]
  · next hnone =>
    rw [Except.ok.injEq, and_iff_right (hfind.1 hnone), eq_comm]
    rfl

theorem writes_rowPieces {columns : List String} {index : Nat} {row : Record} {ps : List Piece}
    (h : rowPieces columns index row = .ok ps) : Writes (rowOperands columns row) ps := by
  obtain ⟨-, rfl⟩ := rowPieces_eq_ok_iff.1 h
  have hcells := (Writes.ofValues ", " (rowOperands columns row)).append (Writes.nil.text ")")
  rw [List.append_nil] at hcells
  exact .text _ hcells

theorem writes_rowsPieces {columns : List String} {index : Nat} {rows : List Record}
    {groups : List (List Piece)} (h : rowsPieces columns index rows = .ok groups) :
    List.Forall₂ Writes (rows.map (rowOperands columns)) groups := by
  induction rows generalizing index groups with
  | nil =>
    obtain rfl := Except.ok.inj h
    exact .nil
  | cons row rest ih =>
    simp only [rowsPieces, bind_eq_ok_iff, pure_eq_ok_iff] at h
    obtain ⟨pieces, hpieces, others, hothers, rfl⟩ := h
    exact .cons (writes_rowPieces hpieces) (ih hothers)

/-- A single row without columns is inserted as such. Otherwise the first row has columns, and there
is a tuple for each row. -/
theorem rowInsertion_cons_eq_ok_iff {q : Query} {first : Record} {rest : List Record}
    {ps : List Piece} : q.rowInsertion (first :: rest) = .ok ps ↔
      ∃ table, ofIdentifier q.table = .ok table ∧
        (first.entries = [] ∧ rest = [] ∧
            [.text "INSERT INTO ", table, .text " DEFAULT VALUES"] = ps ∨
          first.entries ≠ [] ∧ ∃ columns, quoteIdentifiers first.columns = .ok columns ∧
            ∃ groups, rowsPieces first.columns 0 (first :: rest) = .ok groups ∧
              .text "INSERT INTO " :: table :: .text " (" :: .text columns ::
                .text ") VALUES " :: separated ", " groups = ps) := by
  simp only [rowInsertion, bind_eq_ok_iff]
  refine exists_congr fun table => and_congr_right fun _ => ?_
  by_cases hfirst : first.entries = []
  · have hempty : first.isEmpty = true := List.isEmpty_iff.2 hfirst
    cases rest with
    | nil => simp [hfirst, hempty, pure_eq_ok_iff]
    | cons row rows => simp [hfirst, hempty, throw, throwThe, MonadExceptOf.throw]
  · have hempty : ¬ first.isEmpty = true := fun h => hfirst (List.isEmpty_iff.1 h)
    simp [hfirst, hempty, bind_eq_ok_iff, map_eq_ok_iff]

theorem writes_rowInsertion {q : Query} {rows : List Record} {ps : List Piece}
    (h : q.rowInsertion rows = .ok ps) : Writes (cells rows) ps := by
  cases rows with
  | nil => cases h
  | cons first rest =>
    obtain ⟨table, htable, ⟨hfirst, rfl, rfl⟩ | ⟨-, columns, -, groups, hgroups, rfl⟩⟩ :=
      rowInsertion_cons_eq_ok_iff.1 h
    · -- a single row without columns has no cells
      have hcells : cells [first] = [] := by
        simp [cells, rowOperands, Record.columns, OrderedMap.keys, hfirst]
      rw [hcells]
      exact .text _ (.identifier htable (.text _ .nil))
    · have hvalues := Writes.separated ", " (writes_rowsPieces hgroups)
      rw [← List.flatMap_def] at hvalues
      exact .text _ (.identifier htable (.text _ (.text _ (.text _ hvalues))))

theorem writes_conflictPieces {u : Upsert} {columns : List String} {ps : List Piece}
    (h : conflictPieces u columns = .ok ps) : Writes [] ps := by
  simp only [conflictPieces, bind_eq_ok_iff, pure_eq_ok_iff] at h
  obtain ⟨target, -, assignments, -, rfl⟩ := h
  exact .text _ (.text _ (.text _ (.text _ .nil)))

theorem writes_assignments {values : Record} {groups : List (List Piece)}
    (h : (values.entries.mapM fun (column, value) => assignment column value) = .ok groups) :
    Writes values.values (Piece.separated ", " groups) := by
  have hentry (entry : String × Value) {ps : List Piece}
      (hps : assignment entry.1 entry.2 = .ok ps) : Writes [entry.2] ps := by
    simp only [assignment, bind_eq_ok_iff, pure_eq_ok_iff] at hps
    obtain ⟨name, -, rfl⟩ := hps
    exact .text _ (.text _ (Writes.nil.value entry.2))
  have hgroups := Writes.of_mapM h fun entry _ ps hps => hentry entry hps
  have hlist := Writes.separated ", " hgroups
  rwa [← List.flatMap_def, ← List.map_eq_flatMap] at hlist

/-! ### Statements -/

theorem writes_source {q : Query} {ps : List Piece} (h : q.source = .ok ps)
    (hfree : ∀ v ∈ q.fragmentParams, v.rawTexts = []) :
    Writes (q.conditions.flatMap (Condition.operands .items)) ps := by
  simp only [source, bind_eq_ok_iff, pure_eq_ok_iff] at h
  obtain ⟨table, htable, joins, hjoins, conditions, hconditions, rfl⟩ := h
  have hconditions := Condition.writes_whereClause hconditions (List.forall_mem_append.1 hfree).1
  exact .text _ (.identifier htable ((Join.writes_clause hjoins).append hconditions))

theorem writes_paging (keyword : String) (limit : Option Int64) :
    Writes (pagingOperands limit) (paging keyword limit) := by
  cases limit with
  | none => exact .nil
  | some n => exact .text keyword (Writes.nil.value (.int n))

theorem writes_columnList {columns : List SelectColumn} {ps : List Piece}
    (h : columnList columns = .ok ps) : Writes [] ps := by
  cases columns with
  | nil =>
    obtain rfl := Except.ok.inj h
    exact .text _ .nil
  | cons first rest =>
    simp only [columnList_cons, bind_eq_ok_iff, pure_eq_ok_iff] at h
    obtain ⟨pieces, hpieces, rfl⟩ := h
    have hgroups : List.Forall₂ Writes ((first :: rest).map fun _ => [])
        (pieces.map fun piece => [piece]) := by
      rw [List.forall₂_map_left_iff, List.forall₂_map_right_iff]
      exact (mapM_eq_ok_iff.1 hpieces).imp fun _ _ => SelectColumn.writes_piece
    have hlist := Writes.separated ", " hgroups
    rwa [← List.flatMap_def, List.flatMap_eq_nil_iff.2 fun _ _ => rfl] at hlist

theorem writes_selectPieces {q : Query} {columns : List SelectColumn} {limit : Option Int64}
    {ps : List Piece} (h : q.selectPieces columns limit = .ok ps)
    (hfree : ∀ v ∈ q.fragmentParams, v.rawTexts = []) : Writes (q.selectOperands limit) ps := by
  simp only [selectPieces, bind_eq_ok_iff, pure_eq_ok_iff] at h
  obtain ⟨list, hlist, source, hsource, order, horder, rfl⟩ := h
  have hlist := (writes_columnList hlist).append (writes_source hsource hfree)
  have horder := OrderItem.writes_clause horder (List.forall_mem_append.1 hfree).2
  exact .text _ (((hlist.append horder).append (writes_paging _ limit)).append
    (writes_paging _ q.offset?))

theorem writes_updatePieces {q : Query} {values : Record} {returning : List String}
    {ps : List Piece} (h : q.updatePieces values returning = .ok ps)
    (hfree : ∀ v ∈ q.fragmentParams, v.rawTexts = []) :
    Writes (values.values ++ q.conditions.flatMap (Condition.operands .whole)) ps := by
  simp only [updatePieces, ite_error_eq_ok_iff, bind_eq_ok_iff, pure_eq_ok_iff] at h
  obtain ⟨-, -, table, htable, assignments, hassignments, conditions, hconditions, returned,
    hreturned, rfl⟩ := h
  have hconditions := Condition.writes_whereClause hconditions (List.forall_mem_append.1 hfree).1
  have htail := ((writes_assignments hassignments).append hconditions).append
    (writes_returning hreturned)
  rw [List.append_nil] at htail
  exact .text _ (.identifier htable (.text _ htail))

theorem writes_deletePieces {q : Query} {returning : List String} {ps : List Piece}
    (h : q.deletePieces returning = .ok ps)
    (hfree : ∀ v ∈ q.fragmentParams, v.rawTexts = []) :
    Writes (q.conditions.flatMap (Condition.operands .items)) ps := by
  simp only [deletePieces, ite_error_eq_ok_iff, bind_eq_ok_iff, pure_eq_ok_iff] at h
  obtain ⟨-, table, htable, conditions, hconditions, returned, hreturned, rfl⟩ := h
  have hconditions := Condition.writes_whereClause hconditions (List.forall_mem_append.1 hfree).1
  have htail := hconditions.append (writes_returning hreturned)
  rw [List.append_nil] at htail
  exact .text _ (.identifier htable htail)

/-- A statement writes its operands: raw SQL as text, everything else as a parameter. -/
theorem writes_pieces {q : Query} {command : Command} {ps : List Piece}
    (h : q.pieces command = .ok ps) (hfree : ∀ v ∈ q.fragmentParams, v.rawTexts = []) :
    Writes (q.operands command) ps := by
  cases command with
  | select => exact writes_selectPieces h hfree
  | first => exact writes_selectPieces h hfree
  | count =>
    obtain ⟨source, hsource, h⟩ := bind_eq_ok_iff.1 h
    obtain rfl := pure_eq_ok_iff.1 h
    exact .text _ (writes_source hsource hfree)
  | pluck column => exact writes_selectPieces h hfree
  | insert rows returning =>
    obtain ⟨insert, hinsert, h⟩ := bind_eq_ok_iff.1 h
    obtain ⟨returned, hreturned, h⟩ := bind_eq_ok_iff.1 h
    obtain rfl := pure_eq_ok_iff.1 h
    have hwhole := (writes_rowInsertion hinsert).append (writes_returning hreturned)
    rwa [List.append_nil] at hwhole
  | upsert rows options =>
    simp only [pieces, upsertPieces, ite_error_eq_ok_iff, bind_eq_ok_iff, pure_eq_ok_iff] at h
    obtain ⟨-, insert, hinsert, conflict, hconflict, returned, hreturned, rfl⟩ := h
    have hwhole := ((writes_rowInsertion hinsert).append (writes_conflictPieces hconflict)).append
      (writes_returning hreturned)
    rwa [List.append_nil, List.append_nil] at hwhole
  | update values returning => exact writes_updatePieces h hfree
  | delete returning => exact writes_deletePieces h hfree

end Query

end PgToolkit
