import PgToolkit.Proofs.OrderedMap
import PgToolkit.Proofs.Query.Operands
import PgToolkit.Proofs.Sql.Quotable

/-!
# Rows of an INSERT

An INSERT of rows is a grid: a column for every column of the first row, and a tuple for every row.
A row is found in its tuple by the names of its columns, whatever their order, and a column that it
lacks is NULL.
-/

namespace PgToolkit

open Sql

/-! ### Definitions -/

/-- What a row has in a column: the value of its entry, or NULL when it has none. -/
def Record.Cell (row : Record) (column : String) (v : Value) : Prop :=
  (column, v) ∈ row.entries ∨ column ∉ row.columns ∧ v = .null

/-- How a cell is written: raw SQL as it is, and the place of a parameter for everything else. -/
def Value.cellSql : Value → String
  | .raw sql => sql
  | _ => "?"

/-- The parts of an INSERT of rows. -/
structure RowInsert where
  table : String
  columns : List String
  /-- The cells of each row, in the order of the columns. -/
  grid : List (List Value)
  returned : List String

namespace RowInsert

def tuple (cells : List Value) : String :=
  "(" ++ ", ".intercalate (cells.map Value.cellSql) ++ ")"

def sql (i : RowInsert) : String :=
  String.join ["INSERT INTO ", i.table, " (", ", ".intercalate i.columns, ") VALUES ",
    ", ".intercalate (i.grid.map tuple),
    if i.returned.isEmpty then "" else " RETURNING " ++ ", ".intercalate i.returned]

/-- The cells that are bound, row by row. -/
def params (i : RowInsert) : List Value :=
  i.grid.flatten.filter fun v => !v.isRaw

/-- An INSERT that shows rows, of which the first one gives the columns. -/
structure Shows (q : Query) (first : Record) (rest : List Record) (returning : List String)
    (i : RowInsert) : Prop where
  table : q.table.toSql = .ok i.table
  columns : List.Forall₂ (fun name sql => quoteIdentifier name = .ok sql) first.columns i.columns
  grid : List.Forall₂ (fun row cells => List.Forall₂ row.Cell first.columns cells) (first :: rest)
    i.grid
  returned : List.Forall₂ (fun name sql => quoteIdentifier name = .ok sql) returning i.returned
  /-- No value of a row is left out: there is a column for each of them. -/
  complete : ∀ row ∈ rest, row.columns ⊆ first.columns

end RowInsert

namespace Query

/-- Why the INSERT of rows is refused. -/
inductive RefusesRows (q : Query) (returning : List String) : List Record → Prop where
  | noRows : RefusesRows q returning []
  | emptyRows {first : Record} {rest : List Record} (hempty : first.entries = [])
    (hseveral : rest ≠ []) : RefusesRows q returning (first :: rest)
  | extraColumn {first row : Record} {rest : List Record} {column : String} (hrow : row ∈ rest)
    (hcolumn : column ∈ row.columns) (hextra : column ∉ first.columns) :
    RefusesRows q returning (first :: rest)
  | table {rows : List Record} (htable : ¬ q.table.Quotable) : RefusesRows q returning rows
  | column {first : Record} {rest : List Record} {column : String}
    (hcolumn : column ∈ first.columns) (hname : ¬ Quotable column) :
    RefusesRows q returning (first :: rest)
  | returned {rows : List Record} {column : String} (hcolumn : column ∈ returning)
    (hname : ¬ Quotable column) : RefusesRows q returning rows

end Query

/-! ### The text of pieces -/

namespace Piece

/-- The text that pieces make up. -/
def joined (pieces : List Piece) : String := String.join (pieces.map sql)

@[simp] theorem joined_nil : joined [] = "" := rfl

@[simp] theorem joined_cons (p : Piece) (rest : List Piece) :
    joined (p :: rest) = p.sql ++ joined rest := by
  simp [joined]

@[simp] theorem joined_append (ps qs : List Piece) :
    joined (ps ++ qs) = joined ps ++ joined qs := by
  simp [joined, String.join_append]

theorem joined_separated (separator : String) (groups : List (List Piece)) :
    joined (separated separator groups) = separator.intercalate (groups.map joined) := by
  induction groups with
  | nil => rfl
  | cons group rest ih =>
    cases rest with
    | nil => simp [separated]
    | cons next rest =>
      have hstep : separated separator (group :: next :: rest) =
          group ++ .text separator :: separated separator (next :: rest) := rfl
      rw [hstep, joined_append, joined_cons, ih]
      simp only [List.map_cons, String.intercalate_cons_cons, String.append_assoc]
      rfl

theorem joined_ofValue (v : Value) : joined [ofValue v] = v.cellSql := by
  cases v <;> rfl

theorem sql_ofIdentifier {id : Identifier} {p : Piece} (h : ofIdentifier id = .ok p) :
    id.toSql = .ok p.sql := by
  cases id with
  | name text =>
    obtain ⟨sql, hsql, rfl⟩ := map_eq_ok_iff.1 h
    exact hsql
  | raw sql =>
    obtain rfl := Except.ok.inj h
    rfl

theorem exists_ofIdentifier_iff {id : Identifier} :
    (∃ p, ofIdentifier id = .ok p) ↔ id.Quotable := by
  rw [← Identifier.quotable_iff]
  constructor
  · rintro ⟨p, hp⟩
    exact ⟨p.sql, sql_ofIdentifier hp⟩
  · rintro ⟨sql, hsql⟩
    cases id with
    | name text => exact ⟨.text sql, map_eq_ok_iff.2 ⟨sql, hsql, rfl⟩⟩
    | raw sql => exact ⟨.raw sql, rfl⟩

theorem exists_returning_iff {columns : List String} :
    (∃ ps, returning columns = .ok ps) ↔ ∀ column ∈ columns, Quotable column := by
  cases columns with
  | nil => exact iff_of_true ⟨_, rfl⟩ (by simp)
  | cons column columns =>
    rw [returning_cons, exists_bind_pure_iff, quotable_quoteIdentifiers_iff]

/-- The names behind RETURNING are the quoted ones, in order. -/
theorem joined_returning {columns : List String} {ps : List Piece}
    (h : returning columns = .ok ps) : ∃ names : List String,
      List.Forall₂ (fun name sql => quoteIdentifier name = .ok sql) columns names ∧
      joined ps = if names.isEmpty then "" else " RETURNING " ++ ", ".intercalate names := by
  cases columns with
  | nil =>
    obtain rfl := Except.ok.inj h
    exact ⟨[], .nil, rfl⟩
  | cons column columns =>
    simp only [returning_cons, quoteIdentifiers, bind_eq_ok_iff, pure_eq_ok_iff] at h
    obtain ⟨_, ⟨names, hnames, rfl⟩, rfl⟩ := h
    have hall := mapM_eq_ok_iff.1 hnames
    obtain ⟨first, rest, -, -, rfl⟩ := List.forall₂_cons_left_iff.1 hall
    exact ⟨_, hall, by simp [Piece.sql]⟩

end Piece

open Piece

/-! ### Rows -/

theorem Record.cell_get? {row : Record} (h : row.columns.Nodup) (column : String) :
    row.Cell column ((row.get? column).getD .null) := by
  by_cases hcolumn : column ∈ row.columns
  · obtain ⟨v, hv⟩ := Option.isSome_iff_exists.1 (OrderedMap.contains_iff.2 hcolumn)
    rw [Record.get?, hv]
    exact .inl ((OrderedMap.get?_eq_some_iff h).1 hv)
  · rw [Record.get?, OrderedMap.get?_eq_none hcolumn]
    exact .inr ⟨hcolumn, rfl⟩

namespace Query

theorem exists_rowsPieces_iff {columns : List String} {index : Nat} {rows : List Record} :
    (∃ groups, rowsPieces columns index rows = .ok groups) ↔
      ∀ row ∈ rows, row.columns ⊆ columns := by
  induction rows generalizing index with
  | nil => simp [rowsPieces]
  | cons row rest ih =>
    have hrest : (∃ groups, rowsPieces columns (index + 1) rest = .ok groups) ↔ _ := ih
    simp only [rowsPieces, bind_eq_ok_iff, pure_eq_ok_iff, List.forall_mem_cons, ← hrest,
      rowPieces_eq_ok_iff]
    constructor
    · rintro ⟨_, _, ⟨hrow, -⟩, groups, hgroups, -⟩
      exact ⟨hrow, groups, hgroups⟩
    · rintro ⟨hrow, groups, hgroups⟩
      exact ⟨_, _, ⟨hrow, rfl⟩, groups, hgroups, rfl⟩

theorem joined_rowsPieces {columns : List String} {index : Nat} {rows : List Record}
    {groups : List (List Piece)} (h : rowsPieces columns index rows = .ok groups) :
    groups.map joined = rows.map fun row => RowInsert.tuple (rowOperands columns row) := by
  induction rows generalizing index groups with
  | nil =>
    obtain rfl := Except.ok.inj h
    rfl
  | cons row rest ih =>
    simp only [rowsPieces, bind_eq_ok_iff, pure_eq_ok_iff] at h
    obtain ⟨pieces, hpieces, others, hothers, rfl⟩ := h
    obtain ⟨-, rfl⟩ := rowPieces_eq_ok_iff.1 hpieces
    have hcells : (rowOperands columns row).map (fun v => joined [ofValue v]) =
        (rowOperands columns row).map Value.cellSql := by simp only [joined_ofValue]
    rw [List.map_cons, List.map_cons, ih hothers, RowInsert.tuple, ← hcells]
    simp [joined_separated, Piece.sql, Function.comp_def, String.append_assoc]

/-- The order of the entries of a row plays no part. -/
theorem rowsPieces_of_perm {columns : List String} {index : Nat} {rows others : List Record}
    {groups : List (List Piece)}
    (hperm : List.Forall₂ (fun row other => row.entries.Perm other.entries) rows others)
    (hnodup : ∀ row ∈ rows, row.columns.Nodup) (h : rowsPieces columns index rows = .ok groups) :
    rowsPieces columns index others = .ok groups := by
  induction hperm generalizing index groups with
  | nil => exact h
  | @cons row other rows others hhead _ ih =>
    obtain ⟨hrow, hrows⟩ := List.forall_mem_cons.1 hnodup
    simp only [rowsPieces, bind_eq_ok_iff, pure_eq_ok_iff] at h ⊢
    obtain ⟨pieces, hpieces, groups, hgroups, rfl⟩ := h
    refine ⟨pieces, ?_, groups, ih hrows hgroups, rfl⟩
    obtain ⟨hsubset, hps⟩ := rowPieces_eq_ok_iff.1 hpieces
    have hoperands : rowOperands columns other = rowOperands columns row := by
      simp only [rowOperands, Record.get?, OrderedMap.get?_perm hhead hrow]
    refine rowPieces_eq_ok_iff.2 ⟨fun column hcolumn => hsubset ?_, by rw [hoperands, hps]⟩
    exact (hhead.map _).mem_iff.2 hcolumn

/-! ### Statements -/

variable {q : Query} {first : Record} {rest : List Record} {returning : List String}

theorem exists_rowInsertion_iff : (∃ ps, q.rowInsertion (first :: rest) = .ok ps) ↔
    q.table.Quotable ∧ (first.entries = [] → rest = []) ∧
      (∀ column ∈ first.columns, Quotable column) ∧ ∀ row ∈ rest, row.columns ⊆ first.columns := by
  have hrows : (∃ groups, rowsPieces first.columns 0 (first :: rest) = .ok groups) ↔
      ∀ row ∈ first :: rest, row.columns ⊆ first.columns := exists_rowsPieces_iff
  rw [List.forall_mem_cons, and_iff_right (List.Subset.refl _)] at hrows
  rw [← exists_ofIdentifier_iff]
  simp only [rowInsertion_cons_eq_ok_iff]
  constructor
  · rintro ⟨_, table, htable, ⟨hfirst, rfl, -⟩ | ⟨hfirst, columns, hcolumns, groups, hgroups, -⟩⟩
    · have hnone : first.columns = [] := by simp [Record.columns, OrderedMap.keys, hfirst]
      exact ⟨⟨table, htable⟩, fun _ => rfl, by simp [hnone], by simp⟩
    · exact ⟨⟨table, htable⟩, fun hnil => absurd hnil hfirst,
        quotable_quoteIdentifiers_iff.1 ⟨columns, hcolumns⟩, hrows.1 ⟨groups, hgroups⟩⟩
  · rintro ⟨⟨table, htable⟩, hseveral, hquotable, hsubset⟩
    by_cases hfirst : first.entries = []
    · exact ⟨_, table, htable, .inl ⟨hfirst, hseveral hfirst, rfl⟩⟩
    · obtain ⟨columns, hcolumns⟩ := quotable_quoteIdentifiers_iff.2 hquotable
      obtain ⟨groups, hgroups⟩ := hrows.2 hsubset
      exact ⟨_, table, htable, .inr ⟨hfirst, columns, hcolumns, groups, hgroups, rfl⟩⟩

theorem insertSql_eq_ok_iff {rows : List Record} {c : Compiled} :
    q.insertSql rows returning = .ok c ↔ ∃ insert returned, q.rowInsertion rows = .ok insert ∧
      Piece.returning returning = .ok returned ∧ Compiled.ofPieces (insert ++ returned) = c := by
  simp only [insertSql, insertPieces, map_eq_ok_iff, bind_eq_ok_iff, pure_eq_ok_iff]
  constructor
  · rintro ⟨_, ⟨insert, hinsert, returned, hreturned, rfl⟩, rfl⟩
    exact ⟨insert, returned, hinsert, hreturned, rfl⟩
  · rintro ⟨insert, returned, hinsert, hreturned, rfl⟩
    exact ⟨_, ⟨insert, hinsert, returned, hreturned, rfl⟩, rfl⟩

/-- There is an INSERT for all rows that are not refused. -/
theorem exists_insertSql_iff {rows : List Record} :
    (∃ c, q.insertSql rows returning = .ok c) ↔ ¬ q.RefusesRows returning rows := by
  have hsplit : (∃ c, q.insertSql rows returning = .ok c) ↔
      (∃ ps, q.rowInsertion rows = .ok ps) ∧ ∀ name ∈ returning, Quotable name := by
    rw [← exists_returning_iff]
    simp only [insertSql_eq_ok_iff]
    constructor
    · rintro ⟨_, insert, returned, hinsert, hreturned, -⟩
      exact ⟨⟨insert, hinsert⟩, returned, hreturned⟩
    · rintro ⟨⟨insert, hinsert⟩, returned, hreturned⟩
      exact ⟨_, insert, returned, hinsert, hreturned, rfl⟩
  rw [hsplit]
  cases rows with
  | nil =>
    refine iff_of_false ?_ (not_not_intro .noRows)
    rintro ⟨⟨ps, hps⟩, -⟩
    cases hps
  | cons first rest =>
    rw [exists_rowInsertion_iff]
    constructor
    · rintro ⟨⟨htable, hseveral, hcolumns, hsubset⟩, hreturned⟩ hrefused
      cases hrefused with
      | emptyRows hempty hne => exact hne (hseveral hempty)
      | extraColumn hrow hcolumn hextra => exact hextra (hsubset _ hrow hcolumn)
      | table hname => exact hname htable
      | column hcolumn hname => exact hname (hcolumns _ hcolumn)
      | returned hcolumn hname => exact hname (hreturned _ hcolumn)
    · intro hnot
      refine ⟨⟨?_, fun hempty => ?_, fun column hcolumn => ?_, fun row hrow column hcolumn => ?_⟩,
        fun name hname => ?_⟩ <;> by_contra hfault
      · exact hnot (.table hfault)
      · exact hnot (.emptyRows hempty hfault)
      · exact hnot (.column hcolumn hfault)
      · exact hnot (.extraColumn hrow hcolumn hfault)
      · exact hnot (.returned hname hfault)

/-- The statement for rows of which the first one has columns is their grid. -/
theorem exists_shows {c : Compiled} (h : q.insertSql (first :: rest) returning = .ok c)
    (hfirst : first.entries ≠ []) (hnodup : ∀ row ∈ first :: rest, row.columns.Nodup) :
    ∃ i : RowInsert, i.Shows q first rest returning ∧ c = ⟨i.sql, i.params⟩ := by
  obtain ⟨insert, returned, hinsert, hreturned, rfl⟩ := insertSql_eq_ok_iff.1 h
  obtain ⟨-, -, -, hsubset⟩ := exists_rowInsertion_iff.1 ⟨insert, hinsert⟩
  have hparams := ((writes_rowInsertion hinsert).append (writes_returning hreturned)).params
  obtain ⟨names, hnames, hnamesText⟩ := joined_returning hreturned
  obtain ⟨table, htable, ⟨hempty, -⟩ | ⟨-, _, hquoted, groups, hgroups, rfl⟩⟩ :=
    rowInsertion_cons_eq_ok_iff.1 hinsert
  · exact absurd hempty hfirst
  simp only [quoteIdentifiers, bind_eq_ok_iff, pure_eq_ok_iff] at hquoted
  obtain ⟨columns, hcolumns, rfl⟩ := hquoted
  refine ⟨⟨table.sql, columns, (first :: rest).map (rowOperands first.columns), names⟩,
    ⟨sql_ofIdentifier htable, mapM_eq_ok_iff.1 hcolumns, ?_, hnames, hsubset⟩, ?_⟩
  · rw [List.forall₂_map_right_iff, List.forall₂_same]
    intro row hrow
    rw [rowOperands, List.forall₂_map_right_iff, List.forall₂_same]
    exact fun column _ => Record.cell_get? (hnodup row hrow) column
  · rw [Compiled.mk.injEq]
    constructor
    · change joined _ = _
      rw [joined_append, hnamesText]
      simp only [joined_cons, joined_separated, joined_rowsPieces hgroups, RowInsert.sql,
        String.join_cons, List.map_map, String.append_assoc]
      simp [Piece.sql, Function.comp_def]
    · change List.flatMap Piece.params _ = _
      rw [hparams, List.append_nil, RowInsert.params, ← List.flatMap_def]
      rfl

/-- Rows whose entries are in another order are inserted by the same statement. -/
theorem insertSql_of_perm {c : Compiled} {others : List Record}
    (h : q.insertSql (first :: rest) returning = .ok c)
    (hperm : List.Forall₂ (fun row other => row.entries.Perm other.entries) rest others)
    (hnodup : ∀ row ∈ rest, row.columns.Nodup) :
    q.insertSql (first :: others) returning = .ok c := by
  obtain ⟨insert, returned, hinsert, hreturned, rfl⟩ := insertSql_eq_ok_iff.1 h
  refine insertSql_eq_ok_iff.2 ⟨insert, returned, ?_, hreturned, rfl⟩
  obtain ⟨table, htable, ⟨-, rfl, -⟩ | ⟨hfirst, columns, hcolumns, _, hrows, rfl⟩⟩ :=
    rowInsertion_cons_eq_ok_iff.1 hinsert
  · obtain rfl := List.forall₂_nil_left_iff.1 hperm
    exact hinsert
  · simp only [rowsPieces, bind_eq_ok_iff, pure_eq_ok_iff] at hrows
    obtain ⟨pieces, hpieces, groups, hgroups, rfl⟩ := hrows
    have hothers : rowsPieces first.columns 0 (first :: others) = .ok (pieces :: groups) := by
      simp only [rowsPieces, bind_eq_ok_iff, pure_eq_ok_iff]
      exact ⟨pieces, hpieces, groups, rowsPieces_of_perm hperm hnodup hgroups, rfl⟩
    exact rowInsertion_cons_eq_ok_iff.2
      ⟨table, htable, .inr ⟨hfirst, columns, hcolumns, _, hothers, rfl⟩⟩

/-- The INSERT of rows of which each has distinct columns, and the first one has any, is a grid: its
columns are those of the first row, there is one tuple for each row, and in each place of it what
the row has in that column, bound or as raw SQL; nothing of a row is left out, and the entries of
later rows may stand in any order. An INSERT is refused for no other reasons than the six. -/
theorem insertSql_layout (q : Query) (rows : List Record) (returning : List String)
    (hnodup : ∀ row ∈ rows, row.columns.Nodup) :
    (∀ first rest c, rows = first :: rest → first.entries ≠ [] →
      q.insertSql rows returning = .ok c →
        (∃ i : RowInsert, i.Shows q first rest returning ∧ c = ⟨i.sql, i.params⟩) ∧
        ∀ others, List.Forall₂ (fun row other => row.entries.Perm other.entries) rest others →
          q.insertSql (first :: others) returning = .ok c) ∧
    ((∃ e, q.insertSql rows returning = .error e) ↔ q.RefusesRows returning rows) := by
  constructor
  · rintro first rest c rfl hfirst hc
    exact ⟨exists_shows hc hfirst hnodup, fun others hperm =>
      insertSql_of_perm hc hperm (List.forall_mem_cons.1 hnodup).2⟩
  · rw [exists_error_iff, exists_insertSql_iff, not_not]

/-- Rows with raw SQL, a missing cell, and another order of the columns. -/
def guestRows : List Record :=
  [⟨[("id", .int 1), ("name", .raw "upper('ann')")]⟩, ⟨[("name", .text "bob")]⟩,
    ⟨[("name", .text "eve"), ("id", .int 3)]⟩]

theorem insertSql_layout_guests :
    (∀ row ∈ guestRows, row.columns.Nodup) ∧ ∃ i : RowInsert,
      i.grid.length = guestRows.length ∧
      i.sql = "INSERT INTO \"guests\" (\"id\", \"name\") " ++
        "VALUES (?, upper('ann')), (?, ?), (?, ?) RETURNING \"id\"" ∧
      i.params.map Value.kind = [.int, .null, .text, .int, .text] := by
  have hnodup : ∀ row ∈ guestRows, row.columns.Nodup := by decide
  have hcompiled : (fun c => (c.sql, c.params.map Value.kind)) <$>
      (Query.on (.name "guests")).insertSql guestRows ["id"] =
        .ok ("INSERT INTO \"guests\" (\"id\", \"name\") " ++
          "VALUES (?, upper('ann')), (?, ?), (?, ?) RETURNING \"id\"",
          [.int, .null, .text, .int, .text]) := by decide +kernel
  obtain ⟨c, hc, heq⟩ := map_eq_ok_iff.1 hcompiled
  obtain ⟨hlayout, -⟩ := insertSql_layout (Query.on (.name "guests")) guestRows ["id"] hnodup
  obtain ⟨⟨i, hshows, rfl⟩, -⟩ := hlayout _ _ _ rfl (List.cons_ne_nil _ _) hc
  obtain ⟨hsql, hkinds⟩ := Prod.mk.inj heq
  exact ⟨hnodup, i, hshows.grid.length_eq.symm, hsql, hkinds⟩

end Query

end PgToolkit
