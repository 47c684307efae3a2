import PgToolkit.Proofs.Schema.Edit
import PgToolkit.Proofs.Sql.Suffix

/-!
# Replaying the changes of a column

The changes of an existing column are statements, and those of a new column are folded into its
definition. Both are the same change: who knows what each of the statements does to a definition,
and replays them one after the other, comes to the definition that the changes are folded into.
-/

namespace PgToolkit

open Sql

/-- What a statement does to a column. -/
inductive ColumnAction where
  /-- The type, and the collation if there is one. -/
  | type (type : ColumnType) (collation? : Option String)
  | nullable (nullable : Bool)
  | default (default? : Option Value)
  | primary (primary : Bool)
  | unique (unique : Bool)
  | check (check? : Option String)
  | references (references? : Option ForeignKey)

/-- A part of a definition that is set or dropped. -/
inductive FieldChange where
  | type
  | nullable (nullable : Bool)
  | default (isSet : Bool)
  | primary (isSet : Bool)
  | unique (isSet : Bool)
  | check (isSet : Bool)
  | references (isSet : Bool)
  deriving DecidableEq, Repr

namespace ColumnAction

/-- The definition of a column after a statement. -/
def effect (c : Column) : ColumnAction → Column
  | .type new collation? => { c with type := new, collation? := collation?.or c.collation? }
  | .nullable isSet => { c with nullable := isSet }
  | .default value? => { c with default? := value? }
  | .primary isSet => { c with primary := isSet }
  | .unique isSet => { c with unique := isSet }
  | .check condition? => { c with check? := condition? }
  | .references fk? => { c with references? := fk? }

/-- The part that a statement changes. -/
def change : ColumnAction → FieldChange
  | .type .. => .type
  | .nullable isSet => .nullable isSet
  | .default value? => .default value?.isSome
  | .primary isSet => .primary isSet
  | .unique isSet => .unique isSet
  | .check condition? => .check condition?.isSome
  | .references fk? => .references fk?.isSome

end ColumnAction

/-- The parts that changes set, in order. The collation goes along with the type. -/
def ColumnChanges.fields (changes : ColumnChanges) : List FieldChange :=
  (changes.type?.toList.map fun _ => .type) ++
  (changes.nullable?.toList.map .nullable) ++
  (changes.default?.toList.map fun default? => .default default?.isSome) ++
  (changes.primary?.toList.map .primary) ++
  (changes.unique?.toList.map .unique) ++
  (changes.check?.toList.map fun check? => .check check?.isSome) ++
  (changes.references?.toList.map fun references? => .references references?.isSome)

/-! ### Texts of statements -/

/-- The statement with a clause on a column. -/
def alterColumnSql (table column clause : String) : String :=
  String.join ["ALTER TABLE ", table, " ALTER COLUMN ", column, clause]

def addConstraintSql (table constraint body : String) : String :=
  String.join ["ALTER TABLE ", table, " ADD CONSTRAINT ", constraint, body]

def dropConstraintSql (table constraint : String) : String :=
  String.join ["ALTER TABLE ", table, " DROP CONSTRAINT ", constraint]

/-- The clause that gives a column a type, and a collation if there is one. -/
def ColumnType.clause (column : String) (type : ColumnType) (collation? : Option String) :
    Except Error String := do
  return String.join [" TYPE ", type.sql, ← Column.collationClause collation?, " USING ", column,
    "::", type.castSql]

/-- A text for a default: its literal, which may be cast to the type of the column. -/
def Value.Spells (type : ColumnType) (text : String) (value : Value) : Prop :=
  value.literal = .ok text ∨ defaultSql value type = .ok text

section

variable (d : TableDraft) (table name column : String)

/-- The text of a statement on the column of a table, which is defined like `c` at that moment.
Constraints have the names that the server gives them. -/
def ColumnAction.Writes (c : Column) : ColumnAction → String → Prop
  | .type new collation?, sql => ∃ clause, new.clause column collation? = .ok clause ∧
    sql = alterColumnSql table column clause
  | .nullable isSet, sql =>
    sql = alterColumnSql table column (if isSet then " DROP NOT NULL" else " SET NOT NULL")
  | .default none, sql => sql = alterColumnSql table column " DROP DEFAULT"
  | .default (some value), sql => ∃ text, value.Spells c.type text ∧
    sql = alterColumnSql table column (" SET DEFAULT " ++ text)
  | .primary true, sql =>
    sql = String.join ["ALTER TABLE ", table, " ADD PRIMARY KEY (", column, ")"]
  | .primary false, sql => ∃ constraint, quoteIdentifier d.primaryKeyName = .ok constraint ∧
    sql = dropConstraintSql table constraint
  | .unique isSet, sql => ∃ constraint,
    quoteIdentifier (d.constraintName name "key") = .ok constraint ∧
    sql = if isSet then addConstraintSql table constraint (String.join [" UNIQUE (", column, ")"])
      else dropConstraintSql table constraint
  | .check condition?, sql => ∃ constraint,
    quoteIdentifier (d.constraintName name "check") = .ok constraint ∧
    sql = match condition? with
      | some condition =>
        addConstraintSql table constraint (String.join [" CHECK (", condition, ")"])
      | none => dropConstraintSql table constraint
  | .references none, sql => ∃ constraint,
    quoteIdentifier (d.constraintName name "fkey") = .ok constraint ∧
    sql = dropConstraintSql table constraint
  | .references (some fk), sql => ∃ constraint target,
    quoteIdentifier (d.constraintName name "fkey") = .ok constraint ∧ fk.toSql = .ok target ∧
    sql = addConstraintSql table constraint
      (String.join [" FOREIGN KEY (", column, ") ", target])

/-- Statements that can be read as the given actions, one each, on a definition and what becomes of
it by the ones before. -/
inductive Replays : Column → List ColumnAction → List String → Prop
  | nil (c : Column) : Replays c [] []
  | cons {c : Column} {action : ColumnAction} {actions : List ColumnAction} {sql : String}
      {statements : List String} (h : action.Writes d table name column c sql)
      (hrest : Replays (action.effect c) actions statements) :
      Replays c (action :: actions) (sql :: statements)

end

variable {d : TableDraft} {table name column : String}

/-! ### Replaying the parts of a change -/

namespace Replays

variable {c : Column} {actions others : List ColumnAction} {statements rest : List String}

theorem append (h : Replays d table name column c actions statements)
    (h' : Replays d table name column (actions.foldl ColumnAction.effect c) others rest) :
    Replays d table name column c (actions ++ others) (statements ++ rest) := by
  induction h with
  | nil c => exact h'
  | cons hsql _ ih => exact .cons hsql (ih h')

theorem length_eq (h : Replays d table name column c actions statements) :
    statements.length = actions.length := by
  induction h with
  | nil c => rfl
  | cons _ _ ih => rw [List.length_cons, List.length_cons, ih]

end Replays

/-- What is done by the statements for changes, one by one. -/
def ColumnChanges.actions (changes : ColumnChanges) : List ColumnAction :=
  (changes.type?.toList.map fun type => .type type changes.collation?) ++
  (changes.nullable?.toList.map .nullable) ++
  (changes.default?.toList.map .default) ++
  (changes.primary?.toList.map .primary) ++
  (changes.unique?.toList.map .unique) ++
  (changes.check?.toList.map .check) ++
  (changes.references?.toList.map .references)

namespace FieldChange

/-- The change that stands beside the first word which the text begins with. -/
def ofPrefix (words : List (String × FieldChange)) (text : List Char) : Option FieldChange :=
  (words.find? fun entry => entry.1.toList.isPrefixOf text).map (·.2)

/-- The change that stands beside the first word which the text ends with. -/
def ofSuffix (words : List (String × FieldChange)) (text : List Char) : Option FieldChange :=
  (words.find? fun entry => entry.1.toList.isSuffixOf text).map (·.2)

/-- The clauses on a column. -/
def clauses : List (String × FieldChange) :=
  [(" TYPE ", .type), (" DROP NOT NULL", .nullable true), (" SET NOT NULL", .nullable false),
    (" SET DEFAULT ", .default true), (" DROP DEFAULT", .default false)]

/-- The ends of the names of constraints that are added. -/
def added : List (String × FieldChange) :=
  [("_key\"", .unique true), ("_check\"", .check true), ("_fkey\"", .references true)]

/-- The ends of the names of constraints that are dropped. -/
def dropped : List (String × FieldChange) :=
  [("_pkey\"", .primary false), ("_key\"", .unique false), ("_check\"", .check false),
    ("_fkey\"", .references false)]

/-- What a statement on a column changes, as its text tells. The names of all constraints of the
column begin with `stem`. -/
def read (table column : String) (stem : List Char) (sql : String) : Option FieldChange := do
  let body ← sql.toList.dropPrefix? ("ALTER TABLE " ++ table).toList
  match body.dropPrefix? (" ALTER COLUMN " ++ column).toList with
  | some clause => ofPrefix clauses clause
  | none =>
    match body.dropPrefix? (" ADD CONSTRAINT ".toList ++ stem) with
    | some rest => ofPrefix added rest
    | none =>
      -- the primary key has another stem, so that only the end of a dropped name is looked at
      match body.dropPrefix? " DROP CONSTRAINT ".toList with
      | some constraint => ofSuffix dropped constraint
      | none => some (.primary true)

theorem dropPrefix?_append_self (before text : List Char) :
    (before ++ text).dropPrefix? before = some text :=
  List.dropPrefix?_append_of_beq text (by simp)

theorem dropPrefix?_eq_none {before text : List Char} (h : ¬ before <+: text) :
    text.dropPrefix? before = none := by
  refine Option.eq_none_iff_forall_ne_some.2 fun rest hrest => h ?_
  obtain ⟨before', rfl, heq⟩ := List.dropPrefix?_eq_some_iff.1 hrest
  rw [eq_of_beq heq]
  exact List.prefix_append _ _

variable {stem : List Char}

theorem find?_eq_some_of_unique {words : List (String × FieldChange)}
    {p : String × FieldChange → Bool} {entry : String × FieldChange} (h : entry ∈ words)
    (hp : p entry) (hunique : ∀ e ∈ words, p e → e = entry) : words.find? p = some entry := by
  cases hfind : words.find? p with
  | none => exact absurd hp (List.find?_eq_none.1 hfind entry h)
  | some e => rw [hunique e (List.mem_of_find?_eq_some hfind) (List.find?_some hfind)]

variable {word : String} {change : FieldChange}

/-- Where no word begins with another one, the word that a text begins with is known. -/
theorem ofPrefix_append {words : List (String × FieldChange)}
    (hcode : ∀ e ∈ words, ∀ e' ∈ words, e.1.toList <+: e'.1.toList → e = e')
    (h : (word, change) ∈ words) (rest : List Char) :
    ofPrefix words (word.toList ++ rest) = some change := by
  have hword : word.toList <+: word.toList ++ rest := List.prefix_append _ _
  rw [ofPrefix, find?_eq_some_of_unique h (List.isPrefixOf_iff_prefix.2 hword)
    fun e he hprefix => ?_, Option.map_some]
  rcases List.prefix_or_prefix_of_prefix (List.isPrefixOf_iff_prefix.1 hprefix) hword with hle | hle
  · exact hcode _ he _ h hle
  · exact (hcode _ h _ he hle).symm

/-- Where no word ends with another one, the word that a text ends with is known. -/
theorem ofSuffix_append {words : List (String × FieldChange)}
    (hcode : ∀ e ∈ words, ∀ e' ∈ words, e.1.toList <:+ e'.1.toList → e = e')
    (h : (word, change) ∈ words) (before : List Char) :
    ofSuffix words (before ++ word.toList) = some change := by
  have hword : word.toList <:+ before ++ word.toList := List.suffix_append _ _
  rw [ofSuffix, find?_eq_some_of_unique h (List.isSuffixOf_iff_suffix.2 hword)
    fun e he hsuffix => ?_, Option.map_some]
  rcases List.suffix_or_suffix_of_suffix (List.isSuffixOf_iff_suffix.1 hsuffix) hword with hle | hle
  · exact hcode _ he _ h hle
  · exact (hcode _ h _ he hle).symm

variable {constraint : String}

theorem read_alterColumnSql (h : (word, change) ∈ clauses) {clause rest : String}
    (hclause : clause = word ++ rest) :
    read table column stem (alterColumnSql table column clause) = some change := by
  have htext : (alterColumnSql table column clause).toList = ("ALTER TABLE " ++ table).toList ++
      ((" ALTER COLUMN " ++ column).toList ++ (word.toList ++ rest.toList)) := by
    simp [alterColumnSql, hclause]
  rw [read, htext, dropPrefix?_append_self, Option.bind_eq_bind, Option.bind_some,
    dropPrefix?_append_self]
  exact ofPrefix_append (by decide) h _

theorem read_addConstraintSql (h : (word, change) ∈ added)
    (hconstraint : constraint.toList = stem ++ word.toList) (body : String) :
    read table column stem (addConstraintSql table constraint body) = some change := by
  have htext : (addConstraintSql table constraint body).toList =
      ("ALTER TABLE " ++ table).toList ++
        (" ADD CONSTRAINT ".toList ++ stem ++ (word.toList ++ body.toList)) := by
    simp [addConstraintSql, hconstraint]
  have hcolumn : ¬ (" ALTER COLUMN " ++ column).toList <+:
      " ADD CONSTRAINT ".toList ++ stem ++ (word.toList ++ body.toList) := by
    simp
  rw [read, htext, dropPrefix?_append_self, Option.bind_eq_bind, Option.bind_some,
    dropPrefix?_eq_none hcolumn]
  simp only
  rw [dropPrefix?_append_self]
  exact ofPrefix_append (by decide) h _

theorem read_dropConstraintSql (h : (word, change) ∈ dropped) {before : List Char}
    (hconstraint : constraint.toList = before ++ word.toList) :
    read table column stem (dropConstraintSql table constraint) = some change := by
  have htext : (dropConstraintSql table constraint).toList =
      ("ALTER TABLE " ++ table).toList ++ (" DROP CONSTRAINT ".toList ++ constraint.toList) := by
    simp [dropConstraintSql]
  have hcolumn : ¬ (" ALTER COLUMN " ++ column).toList <+:
      " DROP CONSTRAINT ".toList ++ constraint.toList := by
    simp
  have hadd : ¬ " ADD CONSTRAINT ".toList ++ stem <+:
      " DROP CONSTRAINT ".toList ++ constraint.toList := by
    simp
  rw [read, htext, dropPrefix?_append_self, Option.bind_eq_bind, Option.bind_some,
    dropPrefix?_eq_none hcolumn]
  simp only
  rw [dropPrefix?_eq_none hadd]
  simp only
  rw [dropPrefix?_append_self, hconstraint]
  exact ofSuffix_append (by decide) h _

theorem read_addPrimaryKey : read table column stem
    (String.join ["ALTER TABLE ", table, " ADD PRIMARY KEY (", column, ")"]) =
      some (.primary true) := by
  let rest := " ADD PRIMARY KEY (".toList ++ (column.toList ++ [')'])
  have htext : (String.join ["ALTER TABLE ", table, " ADD PRIMARY KEY (", column, ")"]).toList =
      ("ALTER TABLE " ++ table).toList ++ rest := by
    simp [rest]
  have hcolumn : ¬ (" ALTER COLUMN " ++ column).toList <+: rest := by simp [rest]
  have hadd : ¬ " ADD CONSTRAINT ".toList ++ stem <+: rest := by simp [rest]
  have hdrop : ¬ " DROP CONSTRAINT ".toList <+: rest := by simp [rest]
  rw [read, htext, dropPrefix?_append_self, Option.bind_eq_bind, Option.bind_some,
    dropPrefix?_eq_none hcolumn]
  simp only
  rw [dropPrefix?_eq_none hadd]
  simp only
  rw [dropPrefix?_eq_none hdrop]

end FieldChange

/-- The quoted names of the constraints of a column have the same characters in front of their
suffixes. -/
def HasStem (d : TableDraft) (name : String) (stem : List Char) : Prop :=
  ∀ suffix ∈ ["key", "check", "fkey"], ∀ constraint,
    quoteIdentifier (d.constraintName name suffix) = .ok constraint →
    constraint.toList = stem ++ ("_" ++ suffix ++ "\"").toList

theorem exists_hasStem (d : TableDraft) (name : String) : ∃ stem, HasStem d name stem := by
  obtain ⟨stem, hstem⟩ := exists_quoteIdentifier_append (lastSegment d.name ++ "_" ++ name)
  refine ⟨stem, fun suffix hsuffix constraint hconstraint => ?_⟩
  have hname : d.constraintName name suffix =
      lastSegment d.name ++ "_" ++ name ++ ("_" ++ suffix) := by
    simp [TableDraft.constraintName, String.append_assoc]
  have hplain : ∀ suffix ∈ ["key", "check", "fkey"], '.' ∉ suffix.toList ∧ '"' ∉ suffix.toList := by
    decide
  obtain ⟨hdot, hquote⟩ := hplain suffix hsuffix
  rw [hname] at hconstraint
  rw [hstem ("_" ++ suffix) constraint (by simp) (by simp [hdot]) (by simp [hquote]) hconstraint]
  simp

/-- The quoted name of the primary key ends with its suffix. -/
theorem exists_append_pkey {constraint : String}
    (h : quoteIdentifier d.primaryKeyName = .ok constraint) :
    ∃ before, constraint.toList = before ++ "_pkey\"".toList := by
  obtain ⟨before, hbefore⟩ := exists_quoteIdentifier_append (lastSegment d.name)
  refine ⟨before, ?_⟩
  rw [hbefore "_pkey" constraint (by decide) (by decide) (by decide) h]
  rfl

/-- The text of a statement tells what it changes. -/
theorem ColumnAction.read_of_writes {stem : List Char} (hstem : HasStem d name stem) {c : Column}
    {action : ColumnAction} {sql : String} (h : action.Writes d table name column c sql) :
    FieldChange.read table column stem sql = some action.change := by
  cases action with
  | type new collation? =>
    obtain ⟨clause, hclause, rfl⟩ := h
    obtain ⟨collation, -, hclause⟩ := bind_eq_ok_iff.1 hclause
    obtain rfl := pure_eq_ok_iff.1 hclause
    exact FieldChange.read_alterColumnSql (by simp [FieldChange.clauses, change]) String.join_cons
  | nullable isSet =>
    obtain rfl := h
    cases isSet with
    | true =>
      exact FieldChange.read_alterColumnSql (by simp [FieldChange.clauses, change])
        String.append_empty.symm
    | false =>
      exact FieldChange.read_alterColumnSql (by simp [FieldChange.clauses, change])
        String.append_empty.symm
  | default value? =>
    cases value? with
    | none =>
      obtain rfl := h
      exact FieldChange.read_alterColumnSql (by simp [FieldChange.clauses, change])
        String.append_empty.symm
    | some value =>
      obtain ⟨text, -, rfl⟩ := h
      exact FieldChange.read_alterColumnSql (by simp [FieldChange.clauses, change]) rfl
  | primary isSet =>
    cases isSet with
    | true =>
      obtain rfl := h
      exact FieldChange.read_addPrimaryKey
    | false =>
      obtain ⟨constraint, hconstraint, rfl⟩ := h
      obtain ⟨before, hbefore⟩ := exists_append_pkey hconstraint
      exact FieldChange.read_dropConstraintSql (by simp [FieldChange.dropped, change]) hbefore
  | unique isSet =>
    obtain ⟨constraint, hconstraint, rfl⟩ := h
    have hquoted := hstem "key" (by decide) constraint hconstraint
    cases isSet with
    | true =>
      exact FieldChange.read_addConstraintSql (by simp [FieldChange.added, change]) hquoted _
    | false =>
      exact FieldChange.read_dropConstraintSql (by simp [FieldChange.dropped, change]) hquoted
  | check condition? =>
    obtain ⟨constraint, hconstraint, rfl⟩ := h
    have hquoted := hstem "check" (by decide) constraint hconstraint
    cases condition? with
    | some condition =>
      exact FieldChange.read_addConstraintSql (by simp [FieldChange.added, change]) hquoted _
    | none =>
      exact FieldChange.read_dropConstraintSql (by simp [FieldChange.dropped, change]) hquoted
  | references fk? =>
    cases fk? with
    | some fk =>
      obtain ⟨constraint, target, hconstraint, -, rfl⟩ := h
      have hquoted := hstem "fkey" (by decide) constraint hconstraint
      exact FieldChange.read_addConstraintSql (by simp [FieldChange.added, change]) hquoted _
    | none =>
      obtain ⟨constraint, hconstraint, rfl⟩ := h
      have hquoted := hstem "fkey" (by decide) constraint hconstraint
      exact FieldChange.read_dropConstraintSql (by simp [FieldChange.dropped, change]) hquoted

/-- Two readings of one statement change the same part. -/
theorem ColumnAction.change_eq_of_writes {c c' : Column} {action other : ColumnAction}
    {sql : String} (h : action.Writes d table name column c sql)
    (h' : other.Writes d table name column c' sql) : action.change = other.change := by
  obtain ⟨stem, hstem⟩ := exists_hasStem d name
  exact Option.some.inj ((read_of_writes hstem h).symm.trans (read_of_writes hstem h'))

/-! ### Readings of the same statements -/

/-- Defaults that are equal, or have a text in common. -/
def Value.SpelledAlike (value other : Value) : Prop :=
  value = other ∨ ∃ type type' text, value.Spells type text ∧ other.Spells type' text

/-- Types with their collations that are equal, or that were set by clauses with the same text. A
clause without a collation leaves the collation as it was. -/
inductive ColumnType.SetAlike (column : String) :
    ColumnType → Option String → ColumnType → Option String → Prop where
  | refl (type : ColumnType) (collation? : Option String) :
    SetAlike column type collation? type collation?
  | set {old old' new new' : ColumnType} {was? was?' collation? collation?' : Option String}
    {text : String} : SetAlike column old was? old' was?' →
    new.clause column collation? = .ok text → new'.clause column collation?' = .ok text →
    SetAlike column new (collation?.or was?) new' (collation?'.or was?')

/-- Definitions with the same conditions, and with types, collations, defaults and references that
are written in the same way. -/
structure Column.Agrees (column : String) (c c' : Column) : Prop where
  type : ColumnType.SetAlike column c.type c.collation? c'.type c'.collation?
  nullable : c.nullable = c'.nullable
  default : Option.Rel Value.SpelledAlike c.default? c'.default?
  primary : c.primary = c'.primary
  unique : c.unique = c'.unique
  check : c.check? = c'.check?
  references : c.references?.map ForeignKey.toSql = c'.references?.map ForeignKey.toSql

theorem Column.Agrees.refl (column : String) (c : Column) : Agrees column c c := by
  refine ⟨.refl _ _, rfl, ?_, rfl, rfl, rfl, rfl⟩
  cases c.default? with
  | none => exact .none
  | some value => exact .some (.inl rfl)

/-- Two readings of one statement have effects that agree: they change the same part, and the text
of the statement has what they change it to. -/
theorem Column.Agrees.effect {c c' : Column} (hc : Agrees column c c')
    {action other : ColumnAction} {sql : String} (h : action.Writes d table name column c sql)
    (h' : other.Writes d table name column c' sql) :
    Agrees column (action.effect c) (other.effect c') := by
  have hchange := ColumnAction.change_eq_of_writes h h'
  cases action with
  | type new collation? =>
    cases other with
    | type new' collation?' =>
      obtain ⟨clause, hclause, rfl⟩ := h
      obtain ⟨clause', hclause', hsql⟩ := h'
      obtain rfl : clause = clause' := by simpa [alterColumnSql] using hsql
      exact { hc with type := .set hc.type hclause hclause' }
    | _ => cases hchange
  | nullable isSet =>
    cases other with
    | nullable isSet' => exact { hc with nullable := FieldChange.nullable.inj hchange }
    | _ => cases hchange
  | primary isSet =>
    cases other with
    | primary isSet' => exact { hc with primary := FieldChange.primary.inj hchange }
    | _ => cases hchange
  | unique isSet =>
    cases other with
    | unique isSet' => exact { hc with unique := FieldChange.unique.inj hchange }
    | _ => cases hchange
  | default value? =>
    cases other with
    | default value?' =>
      have hisSome := FieldChange.default.inj hchange
      refine { hc with default := ?_ }
      cases value? <;> cases value?'
      · exact .none
      · cases hisSome
      · cases hisSome
      · obtain ⟨text, htext, rfl⟩ := h
        obtain ⟨text', htext', hsql⟩ := h'
        obtain rfl : text = text' := by simpa [alterColumnSql] using hsql
        exact .some (.inr ⟨_, _, text, htext, htext'⟩)
    | _ => cases hchange
  | check condition? =>
    cases other with
    | check condition?' =>
      have hisSome := FieldChange.check.inj hchange
      refine { hc with check := ?_ }
      obtain ⟨constraint, hconstraint, rfl⟩ := h
      obtain ⟨constraint', hconstraint', hsql⟩ := h'
      obtain rfl := Except.ok.inj (hconstraint.symm.trans hconstraint')
      cases condition? <;> cases condition?'
      · rfl
      · cases hisSome
      · cases hisSome
      · exact congrArg some (by simpa [addConstraintSql] using hsql)
    | _ => cases hchange
  | references fk? =>
    cases other with
    | references fk?' =>
      have hisSome := FieldChange.references.inj hchange
      refine { hc with references := ?_ }
      cases fk? <;> cases fk?'
      · rfl
      · cases hisSome
      · cases hisSome
      · obtain ⟨constraint, target, hconstraint, htarget, rfl⟩ := h
        obtain ⟨constraint', target', hconstraint', htarget', hsql⟩ := h'
        obtain rfl := Except.ok.inj (hconstraint.symm.trans hconstraint')
        obtain rfl : target = target' := by simpa [addConstraintSql] using hsql
        exact congrArg some (htarget.trans htarget'.symm)
    | _ => cases hchange

end PgToolkit
