import Mathlib
import PgToolkit.Proofs.Migration.Operation

/-!
# The history at all times

A connection starts with an empty history. Then any operations follow, each of them with a migrator
that declares what was declared before, and possibly more. Whatever fails on the way, the history is
legal in between and while an operation runs.
-/

namespace PgToolkit

open Session History

variable {σ : Type}

/-- A migrator that may be used when the names `declared` were declared before. -/
structure Admitted (conn : Executor σ) (rows : σ → History) (declared : List String)
    (m : Migrator) : Prop where
  grown : declared <+: m.names
  distinct : m.names.Nodup
  /-- This name would be written as a call. -/
  plain : Value.nowText ∉ m.names
  keeps : KeepsHistory conn rows m

/-- The states after any operations, and the names that were declared last. -/
inductive Reachable (conn : Executor σ) (rows : σ → History) :
    List String → SessionState σ → Prop where
  | start {s : SessionState σ} : rows s.remote = [] → Reachable conn rows [] s
  | operate {declared : List String} {s : SessionState σ} {m : Migrator} (op : Operation) :
      Reachable conn rows declared s → Admitted conn rows declared m →
      Reachable conn rows m.names ((op.run m conn).runFrom s).2

namespace Reachable

variable {conn : Executor σ} {rows : σ → History} {declared : List String} {s : SessionState σ}

theorem ensures_next {m : Migrator} (op : Operation) (hlegal : Legal declared (rows s.remote))
    (hm : Admitted conn rows declared m) :
    (op.run m (conn.watched rows)).Ensures s.unseen (op.Ends conn rows m s.unseen) :=
  op.ensures_run hm.keeps hm.distinct hm.plain (hlegal.mono hm.grown)

theorem legal (hreach : Reachable conn rows declared s) : Legal declared (rows s.remote) := by
  induction hreach with
  | start hempty =>
    rw [hempty]
    exact .nil []
  | @operate declared s m op _ hm ih =>
    have hlegal : Legal m.names (rows s.remote) := ih.mono hm.grown
    rcases hrun : (op.run m (conn.watched rows)).runFrom s.unseen with ⟨r, t⟩
    obtain ⟨htrail, -⟩ := (ensures_next op ih hm).of_runFrom_eq hrun
    have hforget := (op.forgets_run m conn rows).runFrom_eq hrun
    rw [SessionState.forget_unseen] at hforget
    rw [hforget]
    exact htrail.legal hlegal

/-- The history in a reachable state is legal. When an operation follows, the histories that are
seen after its calls are legal and steps of this operation apart, up to the one that it leaves;
watching them makes no difference to it; and what it leaves is told by its result. A migration that
fails stops it, and what the migrations before it did is kept. -/
theorem history_legal (hreach : Reachable conn rows declared s) :
    Legal declared (rows s.remote) ∧
    ∀ (op : Operation) (m : Migrator), Admitted conn rows declared m →
      ∃ r t seen, (op.run m conn).runFrom s = (r, t) ∧
        (op.run m (conn.watched rows)).runFrom s.unseen =
          (r, { t with remote := ⟨t.remote, seen⟩ }) ∧
        Path m.names op (rows s.remote) seen (rows t.remote) ∧
        Operation.Outcome conn rows m s seen op r t := by
  refine ⟨hreach.legal, fun op m hm => ?_⟩
  rcases hrun : (op.run m (conn.watched rows)).runFrom s.unseen with ⟨r, t⟩
  obtain ⟨⟨seen, hseen, hpath⟩, houtcome⟩ := (ensures_next op hreach.legal hm).of_runFrom_eq hrun
  have hforget := (op.forgets_run m conn rows).runFrom_eq hrun
  rw [SessionState.seen_unseen, List.nil_append] at hseen
  rw [hseen, SessionState.seen_unseen, List.length_nil, List.drop_zero] at houtcome
  refine ⟨r, t.forget, seen, hforget, ?_, hpath, houtcome⟩
  rw [← hseen]
  rfl

end Reachable

/-! ### A table in memory -/

/-- The rows of a table, and the key of the next one. -/
structure Ledger where
  rows : History := []
  next : Int64 := 1

namespace Ledger

/-- The name of the table in its statements. -/
def table : String := "\"pgfluent_migrations\""

/-- The rows that the table takes, by name and batch. Others are refused. -/
def accepted : List (String × Int64) := [("001_users", 1), ("002_posts", 2)]

/-- Runs a batch that is one statement, by its first letter. -/
def transact (l : Ledger) (sql : String) : Option Ledger :=
  match sql.toList.head? with
  | some 'C' => some l
  | some 'I' => accepted.findSome? fun (name, batch) =>
    if sql = batchText [HistoryTable.insertion table name batch] ∧ l.rows.all (·.id < l.next) = true
    then some ⟨l.rows ++ [⟨l.next, name, batch, none⟩], l.next + 1⟩
    else none
  | some 'D' => accepted.findSome? fun (name, _) =>
    if sql = batchText [HistoryTable.deletion table name]
    then some { l with rows := l.rows.filter (·.name ≠ name) }
    else none
  | _ => none

/-- A statement that is refused. -/
def refusal : Error := .query .unsendable

/-- An executor over the table. -/
def conn : Executor Ledger where
  query sql _ := ExceptT.mk fun s =>
    (if sql = HistoryTable.selection table then .ok (s.remote.rows.map (·.toRecord))
      else .error refusal, s)
  execute _ _ := throw refusal
  batch _ := throw refusal
  batchTransaction sql := ExceptT.mk fun s =>
    match s.remote.transact sql with
    | some l => (.ok (), { s with remote := l })
    | none => (.error refusal, s)

/-- Two migrations without changes. -/
def migrator : Migrator where
  migrations := [⟨"001_users", .ok, .ok⟩, ⟨"002_posts", .ok, .ok⟩]

/-- The text of an insertion tells the name and the batch. -/
theorem eq_of_insertion_eq {name : String} {batch : Int64} {entry : String × Int64}
    (hname : name ∈ migrator.names) (hentry : entry ∈ accepted)
    (h : HistoryTable.insertion table name batch =
      HistoryTable.insertion table entry.1 entry.2) : name = entry.1 ∧ batch = entry.2 := by
  have hlength : ∀ name ∈ migrator.names, ∀ entry ∈ accepted,
      (Sql.literal name).toList.length = (Sql.literal entry.1).toList.length := by
    decide +kernel
  have hliteral : ∀ name ∈ migrator.names, ∀ entry ∈ accepted,
      (Sql.literal name).toList = (Sql.literal entry.1).toList → name = entry.1 := by
    decide +kernel
  have hlist := congrArg String.toList h
  simp only [HistoryTable.toList_insertion, List.append_assoc, List.append_cancel_left_eq] at hlist
  obtain ⟨hfirst, hrest⟩ := List.append_inj hlist (hlength name hname entry hentry)
  simp only [List.append_cancel_left_eq, List.append_cancel_right_eq] at hrest
  exact ⟨hliteral name hname entry hentry hfirst,
    Int64.toInt_inj.1 (Int.repr_injective (String.toList_injective hrest))⟩

theorem eq_of_deletion_eq : ∀ name ∈ migrator.names, ∀ entry ∈ accepted,
    HistoryTable.deletion table name = HistoryTable.deletion table entry.1 → name = entry.1 := by
  decide +kernel

theorem eq_of_batchText_eq {sql sql' : String} (h : batchText [sql] = batchText [sql']) :
    sql = sql' := by
  have hlist := congrArg String.toList h
  simp only [batchText, String.intercalate_singleton, String.toList_append,
    List.append_cancel_right_eq] at hlist
  exact String.toList_injective hlist

theorem transact_insertion {l l' : Ledger} {name : String} {batch : Int64}
    (h : l.transact (batchText [HistoryTable.insertion table name batch]) = some l') :
    ∃ entry ∈ accepted, HistoryTable.insertion table name batch =
        HistoryTable.insertion table entry.1 entry.2 ∧
      (∀ row ∈ l.rows, row.id < l.next) ∧
      l' = ⟨l.rows ++ [⟨l.next, entry.1, entry.2, none⟩], l.next + 1⟩ := by
  have hhead : (batchText [HistoryTable.insertion table name batch]).toList.head? = some 'I' := by
    simp [batchText, HistoryTable.toList_insertion]
  rw [transact, hhead] at h
  obtain ⟨entry, hentry, hsome⟩ := List.exists_of_findSome?_eq_some h
  dsimp only at hsome
  split at hsome
  · rename_i hif
    cases hsome
    exact ⟨entry, hentry, eq_of_batchText_eq hif.1, by simpa using hif.2, rfl⟩
  · cases hsome

theorem transact_deletion {l l' : Ledger} {name : String}
    (h : l.transact (batchText [HistoryTable.deletion table name]) = some l') :
    ∃ entry ∈ accepted, HistoryTable.deletion table name =
        HistoryTable.deletion table entry.1 ∧
      l' = { l with rows := l.rows.filter (·.name ≠ entry.1) } := by
  have hhead : (batchText [HistoryTable.deletion table name]).toList.head? = some 'D' := by
    simp [batchText, HistoryTable.deletion]
  rw [transact, hhead] at h
  obtain ⟨entry, hentry, hsome⟩ := List.exists_of_findSome?_eq_some h
  dsimp only at hsome
  split at hsome
  · rename_i hif
    cases hsome
    exact ⟨entry, hentry, eq_of_batchText_eq hif, rfl⟩
  · cases hsome

theorem transact_cases {sql : String} {s t : SessionState Ledger} {r : Except Error Unit}
    (h : (conn.batchTransaction sql).runFrom s = (r, t)) :
    (r = .ok () ∧ s.remote.transact sql = some t.remote) ∨ (r = .error refusal ∧ t = s) := by
  simp only [conn, runFrom, ExceptT.run_mk, StateT.run] at h
  split at h
  · rename_i l hl
    cases h
    exact Or.inl ⟨rfl, hl⟩
  · cases h
    exact Or.inr ⟨rfl, rfl⟩

theorem transact_of_ok {sql : String} {s t : SessionState Ledger}
    (h : (conn.batchTransaction sql).runFrom s = (.ok (), t)) :
    s.remote.transact sql = some t.remote := by
  obtain ⟨-, hsome⟩ | ⟨he, -⟩ := transact_cases h
  · exact hsome
  · cases he

theorem quoteIdentifier_table {quoted : String}
    (h : Sql.quoteIdentifier migrator.table = .ok quoted) : quoted = table := by
  have htable : Sql.quoteIdentifier migrator.table = .ok table := by decide +kernel
  rw [htable] at h
  cases h
  rfl

theorem changes_eq_nil {change : Migration → SchemaQueue → Except Error SchemaQueue}
    {migration : Migration} {own : SchemaQueue} {changes : List String}
    (hchange : ∀ migration ∈ migrator.migrations, change migration = .ok)
    (hmem : migration ∈ migrator.migrations)
    (hown : change migration migrator.openingQueue = .ok own)
    (hsql : own.toSql = .ok changes) : changes = [] := by
  rw [hchange migration hmem] at hown
  cases hown
  cases hsql
  rfl

theorem keepsHistory : KeepsHistory conn Ledger.rows migrator where
  failed sql s e t hrun := by
    obtain ⟨he, -⟩ | ⟨-, rfl⟩ := transact_cases hrun
    · cases he
    · rfl
  created quoted hquoted s t hrun := by
    obtain rfl := quoteIdentifier_table hquoted
    have hsome := transact_of_ok hrun
    have hhead : (batchText [HistoryTable.creation table]).toList.head? = some 'C' := by
      decide +kernel
    rw [transact, hhead] at hsome
    exact congrArg rows (Option.some.inj hsome).symm
  selected quoted hquoted s := by
    obtain rfl := quoteIdentifier_table hquoted
    refine ⟨rfl, ?_, ?_⟩
    · intro records hrecords
      cases hrecords
      rfl
    · intro e he
      cases he
  inserted quoted hquoted migration hmem own changes hup hchanges batch s t hrun := by
    obtain rfl := quoteIdentifier_table hquoted
    rw [changes_eq_nil (by simp [migrator]) hmem hup hchanges, List.nil_append] at hrun
    obtain ⟨entry, hentry, hsame, hkeys, hnew⟩ := transact_insertion (transact_of_ok hrun)
    have heq : migration.name = entry.1 ∧ batch = entry.2 :=
      eq_of_insertion_eq (List.mem_map_of_mem hmem) hentry hsame
    have hsmall : entry.2.toInt ≤ Int32.maxValue.toInt := by
      rcases List.mem_pair.1 hentry with rfl | rfl <;> decide
    rw [hnew]
    exact ⟨_, rfl, heq.1.symm, heq.2.symm, hsmall, hkeys⟩
  deleted quoted hquoted migration hmem own changes hdown hchanges s t hrun := by
    obtain rfl := quoteIdentifier_table hquoted
    rw [changes_eq_nil (by simp [migrator]) hmem hdown hchanges, List.nil_append] at hrun
    obtain ⟨entry, hentry, hsame, hnew⟩ := transact_deletion (transact_of_ok hrun)
    have heq : migration.name = entry.1 :=
      eq_of_deletion_eq _ (List.mem_map_of_mem hmem) entry hentry hsame
    rw [hnew, heq]

/-- A connection to an empty table. -/
def fresh : SessionState Ledger := { remote := {} }

/-- The table after one run, in which the second migration fails. -/
def afterOneRun : SessionState Ledger := ((Operation.latest.run migrator conn).runFrom fresh).2

/-- The table after one run more. -/
def afterTwoRuns : SessionState Ledger :=
  ((Operation.latest.run migrator conn).runFrom afterOneRun).2

theorem rows_afterOneRun :
    ((Operation.latest.run migrator conn).runFrom fresh).1 = .error (.ddl
      (batchText [HistoryTable.insertion table "002_posts" 1]) refusal) ∧
      afterOneRun.remote.rows.map (fun row => (row.name, row.batch)) = [("001_users", 1)] := by
  decide +kernel

theorem rows_afterTwoRuns :
    afterTwoRuns.remote.rows.map (fun row => (row.name, row.batch)) = accepted ∧
      ((Operation.rollback.run migrator conn).runFrom afterTwoRuns).1 = .ok ["002_posts"] := by
  decide +kernel

theorem admitted {declared : List String} (hgrown : declared <+: migrator.names) :
    Admitted conn Ledger.rows declared migrator where
  grown := hgrown
  distinct := by decide +kernel
  plain := by decide +kernel
  keeps := keepsHistory

theorem reachable_fresh : Reachable conn Ledger.rows [] fresh := .start rfl

theorem reachable_afterOneRun : Reachable conn Ledger.rows migrator.names afterOneRun := by
  -- with an equation, so that nothing is run to compare the two
  rw [afterOneRun]
  exact .operate .latest reachable_fresh (admitted List.nil_prefix)

theorem reachable_afterTwoRuns : Reachable conn Ledger.rows migrator.names afterTwoRuns := by
  rw [afterTwoRuns]
  exact .operate .latest reachable_afterOneRun (admitted List.prefix_rfl)

end Ledger

namespace Reachable

open Ledger in
/-- A run whose second migration fails keeps the first one. After a run that applies the second one,
the two are in batches of their own, and the second one is undone. -/
theorem history_legal_ledger :
    (Reachable conn Ledger.rows [] fresh ∧
      ∃ t seen, (Operation.latest.run migrator conn).runFrom fresh =
          (.error (.ddl (batchText [HistoryTable.insertion table "002_posts" 1]) refusal), t) ∧
        t.remote.rows.map (fun row => (row.name, row.batch)) = [("001_users", 1)] ∧
        Path migrator.names .latest fresh.remote.rows seen t.remote.rows ∧
        Operation.Outcome conn Ledger.rows migrator fresh seen .latest
          (.error (.ddl (batchText [HistoryTable.insertion table "002_posts" 1]) refusal)) t) ∧
    Reachable conn Ledger.rows migrator.names afterTwoRuns ∧
    Admitted conn Ledger.rows migrator.names migrator ∧
    afterTwoRuns.remote.rows.map (fun row => (row.name, row.batch)) =
      [("001_users", 1), ("002_posts", 2)] ∧
    Legal migrator.names afterTwoRuns.remote.rows ∧
    ∃ t seen, (Operation.rollback.run migrator conn).runFrom afterTwoRuns =
        (.ok ["002_posts"], t) ∧
      Path migrator.names .rollback afterTwoRuns.remote.rows seen t.remote.rows ∧
      Operation.Outcome conn Ledger.rows migrator afterTwoRuns seen .rollback
        (.ok ["002_posts"]) t := by
  refine ⟨⟨reachable_fresh, ?_⟩, reachable_afterTwoRuns, admitted List.prefix_rfl, ?_⟩
  · -- the run that is stopped
    obtain ⟨r, t, seen, hrun, -, hpath, houtcome⟩ :=
      (history_legal reachable_fresh).2 .latest migrator (admitted List.nil_prefix)
    obtain ⟨hresult, hrows⟩ := rows_afterOneRun
    rw [afterOneRun, hrun] at hrows
    rw [hrun] at hresult
    dsimp only at hresult hrows
    subst hresult
    exact ⟨t, seen, hrun, hrows, hpath, houtcome⟩
  · obtain ⟨hlegal, hnext⟩ := history_legal reachable_afterTwoRuns
    obtain ⟨r, t, seen, hrun, -, hpath, houtcome⟩ :=
      hnext .rollback migrator (admitted List.prefix_rfl)
    obtain ⟨hrows, hresult⟩ := rows_afterTwoRuns
    rw [hrun] at hresult
    dsimp only at hresult
    subst hresult
    exact ⟨hrows, hlegal, t, seen, hrun, hpath, houtcome⟩

end Reachable

end PgToolkit
