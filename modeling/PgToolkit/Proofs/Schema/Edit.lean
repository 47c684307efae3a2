import PgToolkit.Proofs.OrderedMap
import PgToolkit.Proofs.Outcome
import PgToolkit.Schema.Edit
import PgToolkit.Schema.Statements

/-!
# Tables under construction as ordered maps

The columns of a new table are a list of distinct names and a definition for each of them. The steps
that edit a draft have the effects on its columns that they have on these, and fail when they name a
column that is not there, or take a name that is.
-/

namespace PgToolkit

/-! ### Overwriting parts of a definition -/

namespace ColumnChanges

/-- What is done for each part that is set. -/
def settings (changes : ColumnChanges) : List (Column → Column) :=
  (changes.type?.toList.map fun type c => { c with type }) ++
  (changes.nullable?.toList.map fun nullable c => { c with nullable }) ++
  (changes.default?.toList.map fun default? c => { c with default? }) ++
  (changes.primary?.toList.map fun primary c => { c with primary }) ++
  (changes.unique?.toList.map fun unique c => { c with unique }) ++
  (changes.check?.toList.map fun check? c => { c with check? }) ++
  (changes.references?.toList.map fun references? c => { c with references? }) ++
  (changes.collation?.toList.map fun collation c => { c with collation? := some collation })

/-- A definition with the parts overwritten that are set, and no others. -/
def overwrite (changes : ColumnChanges) (c : Column) : Column :=
  changes.settings.foldl (fun c set => set c) c

/-- A part is written when it is set; otherwise the part that is there is written again. -/
theorem foldl_part {α : Type} (part : Option α) (get : Column → α) (set : α → Column → Column)
    (hsame : ∀ c, set (get c) c = c) (c : Column) :
    (part.toList.map set).foldl (fun c set => set c) c = set (part.getD (get c)) c := by
  cases part with
  | none => exact (hsame c).symm
  | some a => rfl

theorem applyTo_eq_overwrite (changes : ColumnChanges) (c : Column) :
    changes.applyTo c = changes.overwrite c := by
  simp only [overwrite, settings, List.foldl_append]
  rw [foldl_part changes.type? Column.type _ fun _ => rfl,
    foldl_part changes.nullable? Column.nullable _ fun _ => rfl,
    foldl_part changes.default? Column.default? _ fun _ => rfl,
    foldl_part changes.primary? Column.primary _ fun _ => rfl,
    foldl_part changes.unique? Column.unique _ fun _ => rfl,
    foldl_part changes.check? Column.check? _ fun _ => rfl,
    foldl_part changes.references? Column.references? _ fun _ => rfl]
  -- an unset collation is not the one that is there, but none
  cases hcollation : changes.collation? <;> simp [applyTo, hcollation]

end ColumnChanges

/-! ### Names and definitions -/

/-- Names in order, and the definition of each of them. -/
structure ColumnMap where
  names : List String
  find : String → Option Column

namespace ColumnMap

def empty : ColumnMap := ⟨[], fun _ => none⟩

/-- The names with their definitions, in order. -/
def entries (m : ColumnMap) : List (String × Column) :=
  m.names.filterMap fun name => (m.find name).map (name, ·)

/-- A new name goes to the end, and a known one stays in its place. -/
def declare (m : ColumnMap) (name : String) (definition : Column) : ColumnMap :=
  ⟨if name ∈ m.names then m.names else m.names ++ [name],
    fun other => if other = name then some definition else m.find other⟩

/-- The new name takes the place and the definition of the old one. -/
def rename (m : ColumnMap) (source target : String) : ColumnMap :=
  ⟨m.names.map fun name => if name = source then target else name, fun other =>
    if other = target then m.find source else if other = source then none else m.find other⟩

def drop (m : ColumnMap) (name : String) : ColumnMap :=
  ⟨m.names.filter (· ≠ name), fun other => if other = name then none else m.find other⟩

def alter (m : ColumnMap) (name : String) (changes : ColumnChanges) : ColumnMap :=
  ⟨m.names, fun other =>
    if other = name then (m.find name).map changes.overwrite else m.find other⟩

end ColumnMap

/-- The error of a step on a table with the given columns: a column has to be there to be renamed,
dropped or altered, and the new name of a column must not be another one's. -/
def ColumnStep.refusal? (table : String) (names : List String) : ColumnStep → Option Error
  | .declare .. => none
  | .timestamps => none
  | .rename source target =>
    if source ∉ names then some (.schemaMismatch table source)
    else if target ≠ source ∧ target ∈ names then
      some (.invalidArgument (.columnExists target table))
    else none
  | .drop name => if name ∉ names then some (.schemaMismatch table name) else none
  | .alter name _ => if name ∉ names then some (.schemaMismatch table name) else none

namespace ColumnMap

/-- The definition of the columns with the times of creation and of the last change. -/
def stamp : Column := { type := .timestamptz, default? := some .now }

/-- The effect of a step that is not refused. -/
def apply (m : ColumnMap) : ColumnStep → ColumnMap
  | .declare name start calls => m.declare name (calls.foldl ColumnCall.apply start)
  | .timestamps => (m.declare "created_at" stamp).declare "updated_at" stamp
  | .rename source target => m.rename source target
  | .drop name => m.drop name
  | .alter name changes => m.alter name changes

/-- A step that is refused has no effect. -/
def step (table : String) (m : ColumnMap) (s : ColumnStep) : ColumnMap :=
  if (s.refusal? table m.names).isSome then m else m.apply s

/-- The errors of steps, in order. -/
def refusals (table : String) (m : ColumnMap) : List ColumnStep → List Error
  | [] => []
  | s :: rest => (s.refusal? table m.names).toList ++ refusals table (m.step table s) rest

end ColumnMap

/-- The text of a definition. It begins with the quoted name of its column, and the type is next. -/
structure Column.Written (name : String) (c : Column) (sql : String) : Prop where
  toSql : c.toSql name = .ok sql
  begins : ∃ quoted rest, Sql.quoteIdentifier name = .ok quoted ∧
    sql = quoted ++ " " ++ c.type.sql ++ rest

theorem Column.written_of_toSql {name sql : String} {c : Column} (h : c.toSql name = .ok sql) :
    c.Written name sql := by
  refine ⟨h, ?_⟩
  obtain ⟨quoted, hquoted, h⟩ := bind_eq_ok_iff.1 h
  obtain ⟨collation, -, h⟩ := bind_eq_ok_iff.1 h
  obtain ⟨default, -, h⟩ := bind_eq_ok_iff.1 h
  obtain ⟨references, -, h⟩ := bind_eq_ok_iff.1 h
  obtain rfl := pure_eq_ok_iff.1 h
  refine ⟨quoted, collation ++ (if c.nullable then "" else " NOT NULL") ++ default ++
    (if c.primary then " PRIMARY KEY" else "") ++ (if c.unique then " UNIQUE" else "") ++
    checkClause c.check? ++ references, hquoted, ?_⟩
  simp only [String.append_assoc]

namespace TableDraft

/-! ### Declarations -/

/-- Changes through the handle are changes of the definition that was declared. -/
theorem declare_eq_column (d : TableDraft) (name : String) (start : Column)
    (calls : List ColumnCall) :
    d.declare name start calls = d.column name (calls.foldl ColumnCall.apply start) := by
  rw [declare]
  induction calls generalizing start with
  | nil => rfl
  | cons call calls ih =>
    have htouch : (d.column name start).touch name call = d.column name (call.apply start) := by
      simp [touch, column, OrderedMap.modify_insert]
    rw [List.foldl_cons, List.foldl_cons, htouch, ih]

/-! ### One step -/

/-- A draft of a new table whose columns are the given ones. Nothing but columns is in it. -/
structure Shows (table : String) (mode : TableMode) (m : ColumnMap) (d : TableDraft) : Prop where
  name : d.name = table
  mode : d.mode = mode
  nodup : (OrderedMap.keys d.columns).Nodup
  names : OrderedMap.keys d.columns = m.names
  find : ∀ name, OrderedMap.get? name d.columns = m.find name
  operations : d.operations = []
  indexes : d.indexes = []
  raw : d.raw = []

section

variable {table : String} {mode : TableMode} {m : ColumnMap} {d : TableDraft}

namespace Shows

theorem columns_eq (h : Shows table mode m d) : d.columns = m.entries := by
  rw [OrderedMap.eq_filterMap_keys h.nodup, h.names, ColumnMap.entries]
  simp only [h.find]

theorem contains_iff (h : Shows table mode m d) {name : String} :
    OrderedMap.contains name d.columns = true ↔ name ∈ m.names := by
  rw [OrderedMap.contains_iff, h.names]

/-- Other columns, of which the names and definitions are known. -/
theorem of_columns {m' : ColumnMap} (h : Shows table mode m d) {columns : List (String × Column)}
    (hnodup : (OrderedMap.keys columns).Nodup) (hnames : OrderedMap.keys columns = m'.names)
    (hfind : ∀ name, OrderedMap.get? name columns = m'.find name) :
    Shows table mode m' { d with columns } :=
  ⟨h.name, h.mode, hnodup, hnames, hfind, h.operations, h.indexes, h.raw⟩

theorem fail (h : Shows table mode m d) (error : Error) : Shows table mode m (d.fail error) :=
  ⟨h.name, h.mode, h.nodup, h.names, h.find, h.operations, h.indexes, h.raw⟩

theorem column (h : Shows table mode m d) (name : String) (definition : Column) :
    Shows table mode (m.declare name definition) (d.column name definition) := by
  refine h.of_columns (OrderedMap.nodup_keys_insert h.nodup definition) ?_ fun other => ?_
  · by_cases hmem : name ∈ m.names
    · rw [OrderedMap.keys_insert_of_mem (h.names ▸ hmem), h.names, ColumnMap.declare, if_pos hmem]
    · rw [OrderedMap.keys_insert_of_not_mem (h.names ▸ hmem), h.names, ColumnMap.declare,
        if_neg hmem]
  · rw [OrderedMap.get?_insert, h.find, ColumnMap.declare]

theorem renameColumn (h : Shows table mode m d) {source target : String}
    (hfree : target = source ∨ target ∉ m.names) : Shows table mode (m.rename source target)
      { d with columns := OrderedMap.rename source target d.columns } := by
  have hnames := OrderedMap.keys_rename h.nodup source target
  refine h.of_columns (OrderedMap.nodup_keys_rename h.nodup (h.names ▸ hfree))
    (by rw [hnames, h.names, ColumnMap.rename]) fun other => ?_
  rw [OrderedMap.get?_rename h.nodup (h.names ▸ hfree), h.find, h.find, ColumnMap.rename]

theorem dropColumn (h : Shows table mode m d) (name : String) : Shows table mode (m.drop name)
      { d with columns := OrderedMap.erase name d.columns } := by
  have hnames := OrderedMap.keys_erase h.nodup name
  refine h.of_columns ?_ (by rw [hnames, h.names, ColumnMap.drop]) fun other => ?_
  · rw [hnames]
    exact h.nodup.filter _
  · rw [OrderedMap.get?_erase h.nodup, h.find, ColumnMap.drop]

theorem alterColumn (h : Shows table mode m d) (name : String) (changes : ColumnChanges) :
    Shows table mode (m.alter name changes)
      { d with columns := OrderedMap.modify name changes.applyTo d.columns } := by
  have hchange : changes.applyTo = changes.overwrite :=
    funext changes.applyTo_eq_overwrite
  have hnames := OrderedMap.keys_modify name changes.applyTo d.columns
  refine h.of_columns (hnames ▸ h.nodup) (by rw [hnames, h.names, ColumnMap.alter]) fun other => ?_
  rw [OrderedMap.get?_modify, h.find, h.find, hchange, ColumnMap.alter]

end Shows

/-- What becomes of a draft by a step: the error of a refused step is kept, if it is the first one,
and the columns stay; any other step has its effect on the columns and no error. -/
structure Stepped (table : String) (mode : TableMode) (m : ColumnMap) (s : ColumnStep)
    (d d' : TableDraft) : Prop where
  shows : Shows table mode (m.step table s) d'
  error : d'.error? = d.error?.or (s.refusal? table m.names)
  unchanged : (s.refusal? table m.names).isSome → d'.columns = d.columns

variable {s : ColumnStep}

theorem stepped_of_accepted {d' : TableDraft} (hnone : s.refusal? table m.names = none)
    (hd' : Shows table mode (m.apply s) d') (herror : d'.error? = d.error?) :
    Stepped table mode m s d d' := by
  have hstep : m.step table s = m.apply s := by simp [ColumnMap.step, hnone]
  exact ⟨by rwa [hstep], by simp [hnone, herror], by simp [hnone]⟩

theorem stepped_of_refused {error : Error} (h : Shows table mode m d)
    (hsome : s.refusal? table m.names = some error) : Stepped table mode m s d (d.fail error) := by
  have hstep : m.step table s = m := by simp [ColumnMap.step, hsome]
  exact ⟨by rw [hstep]; exact h.fail error, by rw [hsome, TableDraft.fail], fun _ => rfl⟩

theorem stepped_failUnknown {name : String} (h : Shows table mode m d)
    (hsome : s.refusal? table m.names = some (.schemaMismatch table name)) :
    Stepped table mode m s d (d.failUnknown name) := by
  rw [failUnknown, h.name]
  exact stepped_of_refused h hsome

theorem stepped_edit (h : Shows table mode m d) (hmode : mode.isCreate = true) (s : ColumnStep) :
    Stepped table mode m s d (d.edit s) := by
  have hcreate : d.mode.isCreate = true := h.mode ▸ hmode
  cases s with
  | declare name start calls =>
    rw [edit, declare_eq_column]
    exact stepped_of_accepted rfl (h.column name _) rfl
  | timestamps => exact stepped_of_accepted rfl ((h.column _ _).column _ _) rfl
  | rename source target =>
    rw [edit, renameColumn, if_pos hcreate]
    by_cases hsource : source ∈ m.names
    · rw [if_pos (h.contains_iff.2 hsource)]
      by_cases htaken : target ≠ source ∧ target ∈ m.names
      · rw [if_pos ⟨htaken.1.symm, h.contains_iff.2 htaken.2⟩, h.name]
        exact stepped_of_refused h (by simp [ColumnStep.refusal?, hsource, htaken])
      · rw [if_neg fun htarget => htaken ⟨htarget.1.symm, h.contains_iff.1 htarget.2⟩]
        refine stepped_of_accepted ?_ (h.renameColumn ?_) rfl
        · rw [ColumnStep.refusal?, if_neg (not_not_intro hsource), if_neg htaken]
        · exact or_iff_not_imp_left.2 fun hne htarget => htaken ⟨hne, htarget⟩
    · rw [if_neg fun hcontains => hsource (h.contains_iff.1 hcontains)]
      exact stepped_failUnknown h (by rw [ColumnStep.refusal?, if_pos hsource])
  | drop name =>
    rw [edit, dropColumn, if_pos hcreate]
    by_cases hname : name ∈ m.names
    · rw [if_pos (h.contains_iff.2 hname)]
      refine stepped_of_accepted ?_ (h.dropColumn name) rfl
      rw [ColumnStep.refusal?, if_neg (not_not_intro hname)]
    · rw [if_neg fun hcontains => hname (h.contains_iff.1 hcontains)]
      exact stepped_failUnknown h (by rw [ColumnStep.refusal?, if_pos hname])
  | alter name changes =>
    rw [edit, alterColumn, if_pos hcreate]
    by_cases hname : name ∈ m.names
    · rw [if_pos (h.contains_iff.2 hname)]
      refine stepped_of_accepted ?_ (h.alterColumn name changes) rfl
      rw [ColumnStep.refusal?, if_neg (not_not_intro hname)]
    · rw [if_neg fun hcontains => hname (h.contains_iff.1 hcontains)]
      exact stepped_failUnknown h (by rw [ColumnStep.refusal?, if_pos hname])

end

/-! ### Any steps -/

theorem shows_empty (table : String) (mode : TableMode) :
    Shows table mode .empty (empty table mode) :=
  ⟨rfl, rfl, List.nodup_nil, rfl, fun _ => rfl, rfl, rfl, rfl⟩

/-- By induction on the steps: each of them goes on with the columns that the ones before it led to,
and its error counts only if they had none. -/
theorem Shows.foldl_edit {table : String} {mode : TableMode} {m : ColumnMap} {d : TableDraft}
    (h : Shows table mode m d) (hmode : mode.isCreate = true) (steps : List ColumnStep) :
    Shows table mode (steps.foldl (ColumnMap.step table) m) (steps.foldl edit d) ∧
      (steps.foldl edit d).error? = d.error?.or (m.refusals table steps).head? := by
  induction steps generalizing m d with
  | nil => exact ⟨h, by simp [ColumnMap.refusals]⟩
  | cons s steps ih =>
    have hstepped := stepped_edit h hmode s
    obtain ⟨hshows, herror⟩ := ih hstepped.shows
    refine ⟨hshows, ?_⟩
    rw [List.foldl_cons, herror, hstepped.error, ColumnMap.refusals]
    cases s.refusal? table m.names <;> simp

/-- The statement of a new table has the definitions of its columns, in their order. -/
theorem exists_of_tableStatements {d : TableDraft} (hmode : d.mode.isCreate = true) {table : String}
    {statements : List String} (h : d.tableStatements table = .ok statements) : ∃ definitions,
      List.Forall₂ (fun entry sql => entry.2.toSql entry.1 = .ok sql) d.columns definitions ∧
      statements = [(if d.mode = .createIfNotExists then "CREATE TABLE IF NOT EXISTS "
        else "CREATE TABLE ") ++ table ++ " (" ++ ", ".intercalate definitions ++ ")"] := by
  rw [tableStatements, if_pos hmode] at h
  obtain ⟨sql, hstatement, hcreated⟩ := bind_eq_ok_iff.1 h
  obtain ⟨definitions, hdefinitions, hstatement⟩ := bind_eq_ok_iff.1 hstatement
  refine ⟨definitions, mapM_eq_ok_iff.1 hdefinitions, ?_⟩
  rw [← pure_eq_ok_iff.1 hcreated, ← pure_eq_ok_iff.1 hstatement]

/-- A draft of a new table is compiled to a single statement with the definitions of its columns. -/
theorem Shows.toSql {table : String} {mode : TableMode} {m : ColumnMap} {d : TableDraft}
    (h : Shows table mode m d) (hmode : mode.isCreate = true) {statements : List String}
    (hsql : d.toSql = .ok statements) :
    ∃ quoted definitions, Sql.quoteIdentifier table = .ok quoted ∧
      List.Forall₂ (fun entry sql => entry.2.Written entry.1 sql) m.entries definitions ∧
      statements = [(if mode = .createIfNotExists then "CREATE TABLE IF NOT EXISTS "
        else "CREATE TABLE ") ++ quoted ++ " (" ++ ", ".intercalate definitions ++ ")"] := by
  rw [TableDraft.toSql, h.name] at hsql
  obtain ⟨quoted, hquoted, hsql⟩ := bind_eq_ok_iff.1 hsql
  obtain ⟨created, hcreated, hsql⟩ := bind_eq_ok_iff.1 hsql
  obtain ⟨definitions, hdefinitions, rfl⟩ := exists_of_tableStatements (h.mode ▸ hmode) hcreated
  rw [h.indexes, h.raw] at hsql
  rw [h.columns_eq] at hdefinitions
  refine ⟨quoted, definitions, hquoted,
    hdefinitions.imp fun _ _ hwritten => Column.written_of_toSql hwritten, ?_⟩
  rw [← pure_eq_ok_iff.1 hsql, h.mode]
  simp

/-- After any steps that edit the columns of a new table, their names are distinct, nothing is
queued, and the columns are the names and definitions that the steps lead to, one by one. A further
step keeps its error behind the first one and leaves the columns alone if it is refused, and has no
error otherwise, so the error of the draft is that of the first step that was refused. The statement
that the draft is compiled to lists the columns in their order, each under its quoted name. -/
theorem edit_refines {mode : TableMode} (hmode : mode.isCreate = true) (table : String)
    (steps : List ColumnStep) :
    let d := steps.foldl edit (empty table mode)
    let m := steps.foldl (ColumnMap.step table) .empty
    (OrderedMap.keys d.columns).Nodup ∧ d.operations = [] ∧ d.columns = m.entries ∧
      OrderedMap.keys d.columns = m.names ∧
      d.error? = (ColumnMap.empty.refusals table steps).head? ∧
      (∀ s, (d.edit s).error? = d.error?.or (s.refusal? table m.names) ∧
        ((s.refusal? table m.names).isSome → (d.edit s).columns = d.columns)) ∧
      ∀ statements, d.toSql = .ok statements → ∃ quoted definitions,
        Sql.quoteIdentifier table = .ok quoted ∧
        List.Forall₂ (fun entry sql => entry.2.Written entry.1 sql) m.entries definitions ∧
        statements = [(if mode = .createIfNotExists then "CREATE TABLE IF NOT EXISTS "
          else "CREATE TABLE ") ++ quoted ++ " (" ++ ", ".intercalate definitions ++ ")"] := by
  intro d m
  obtain ⟨h, herror⟩ := (shows_empty table mode).foldl_edit hmode steps
  refine ⟨h.nodup, h.operations, h.columns_eq, h.names, herror, fun s => ?_,
    fun _ => h.toSql hmode⟩
  have hstepped := stepped_edit h hmode s
  exact ⟨hstepped.error, hstepped.unchanged⟩

/-- Steps of which two are refused: the new name is taken, and the column is gone. -/
def teamSteps : List ColumnStep :=
  [.declare "id" { type := .serial, primary := true } [],
    .declare "name" (Column.ofType .text) [.unique, .collate "C"], .rename "id" "name",
    .declare "team" (Column.ofType .integer) [.references "teams" "id", .onDelete .cascade],
    .drop "name", .alter "name" {}, .declare "id" (Column.ofType .bigInt) [.nullable],
    .rename "team" "team_id", .alter "team_id" { type? := some .bigInt, default? := some none }]

def teamStatements : List String :=
  ["CREATE TABLE \"users\" (\"id\" bigint, \"team_id\" bigint NOT NULL " ++
    "REFERENCES \"teams\" (\"id\") ON DELETE CASCADE)"]

theorem edit_refines_teamSteps :
    TableMode.create.isCreate = true ∧
      OrderedMap.keys (teamSteps.foldl edit (empty "users" .create)).columns = ["id", "team_id"] ∧
      (teamSteps.foldl edit (empty "users" .create)).error? =
        some (.invalidArgument (.columnExists "name" "users")) ∧
      (teamSteps.foldl edit (empty "users" .create)).toSql = .ok teamStatements ∧
      ∃ quoted definitions, Sql.quoteIdentifier "users" = .ok quoted ∧
        List.Forall₂ (fun entry sql => entry.2.Written entry.1 sql)
          (teamSteps.foldl (ColumnMap.step "users") .empty).entries definitions ∧
        teamStatements = ["CREATE TABLE " ++ quoted ++ " (" ++ ", ".intercalate definitions ++
          ")"] := by
  have hmode : TableMode.create.isCreate = true := rfl
  have hsql : (teamSteps.foldl edit (empty "users" .create)).toSql = .ok teamStatements := by
    decide +kernel
  obtain ⟨-, -, -, hnames, herror, -, hlisted⟩ := edit_refines hmode "users" teamSteps
  refine ⟨hmode, ?_, ?_, hsql, hlisted teamStatements hsql⟩
  · rw [hnames]
    rfl
  · rw [herror]
    rfl

end TableDraft

end PgToolkit
