import PgToolkit.Proofs.Migration.Interleaved
import PgToolkit.Proofs.Migration.Reachable

/-!
# Concurrent runs

Several runners apply what is pending at the same time. They declare the same migrations and share a
history whose names are distinct. What a runner has read may be old by the time it is used. The
transaction that applies a migration then repeats a name, fails, and ends the run of that runner.
-/

namespace PgToolkit

open Session History

variable {σ ι : Type}

/-- Runners that declare the same migrations keep one history, and its names are distinct. -/
structure SharesHistory (m : ι → Migrator) (conn : ι → Executor σ) (rows : σ → History)
    (declared : List String) : Prop where
  names : ∀ i, (m i).names = declared
  distinct : declared.Nodup
  /-- This name would be written as a call. -/
  plain : Value.nowText ∉ declared
  keeps : ∀ i, KeepsHistory (conn i) rows (m i)
  /-- The column of the names is unique: a transaction that repeats one is refused. -/
  unique : ∀ i sql s t, ((conn i).batchTransaction sql).runFrom s = (.ok (), t) →
    (rows t.remote).names.Nodup

/-- A runner added a row in one of its turns. -/
def Added (turns : List (Turn ι)) (i : ι) (row : AppliedMigration) : Prop :=
  ∃ turn ∈ turns, turn.runner = i ∧ row ∈ turn.added

theorem added_concat {turns : List (Turn ι)} {turn : Turn ι} {i : ι} {row : AppliedMigration} :
    Added (turns ++ [turn]) i row ↔ Added turns i row ∨ turn.runner = i ∧ row ∈ turn.added := by
  simp [Added, or_and_right, exists_or]

theorem Added.mem_flatMap {turns : List (Turn ι)} {i : ι} {row : AppliedMigration}
    (h : Added turns i row) : row ∈ turns.flatMap Turn.added := by
  obtain ⟨turn, hturn, -, hrow⟩ := h
  exact List.mem_flatMap.2 ⟨turn, hturn, hrow⟩

/-! ### Views -/

/-- What a runner knows that applies migrations: the history starts with the rows `read` that it has
read and the rows `mine` that it has added. Others may have added rows behind them. -/
structure View (m : Migrator) (own : AppliedMigration → Prop) (h : History) (table : String)
    (batch : Int64) (left : List String) (read mine : History) : Prop where
  begins : read ++ mine <+: h
  table : Sql.quoteIdentifier m.table = .ok table
  number : batch.toInt = read.lastNumber + 1
  own : ∀ row ∈ mine, row.number = batch.toInt ∧ own row
  left : left = m.names.drop (read ++ mine).length

namespace View

variable {m : Migrator} {own own' : AppliedMigration → Prop} {h h' read mine : History}
  {table name : String} {batch : Int64} {left : List String} {row : AppliedMigration}

theorem mono (hv : View m own h table batch left read mine) (hgrown : h <+: h')
    (hown : ∀ row ∈ h, own row → own' row) : View m own' h' table batch left read mine where
  begins := hv.begins.trans hgrown
  table := hv.table
  number := hv.number
  own row hrow := by
    have hmem : row ∈ h := hv.begins.subset (List.mem_append_right read hrow)
    exact ⟨(hv.own row hrow).1, hown row hmem (hv.own row hrow).2⟩
  left := hv.left

theorem getElem?_names (hv : View m own h table batch (name :: left) read mine) :
    m.names[(read ++ mine).length]? = some name := by
  rw [← List.head?_drop, ← hv.left]
  rfl

/-- Whoever can still apply a migration has an up-to-date view: when others had added a row behind
it, that row would have the name of the migration. -/
theorem eq_of_not_mem (hv : View m own h table batch (name :: left) read mine)
    (hnames : h.names <+: m.names) (hnew : name ∉ h.names) : h = read ++ mine := by
  obtain ⟨rest, rfl⟩ := hv.begins
  cases rest with
  | nil => exact List.append_nil _
  | cons other rest =>
    -- the row behind the runner's rows has the name that the runner would add
    exfalso
    obtain ⟨more, hmore⟩ := hnames
    have hnext := hv.getElem?_names
    rw [← hmore, names_append (read ++ mine), names_cons, List.append_assoc,
      ← length_names (read ++ mine), List.getElem?_append_right (Nat.le_refl _)] at hnext
    have hname : other.name = name := by simpa using hnext
    exact hnew (by simp [← hname])

/-- The batch of a runner is numbered behind everything that it has read. -/
theorem number_lt (hv : View m own (read ++ mine) table batch left read mine)
    (hsorted : (read ++ mine).Sorted) (hrow : row ∈ read) : row.number < batch.toInt := by
  have hle := hsorted.of_append.number_le_lastNumber hrow
  have hbatch := hv.number
  omega

theorem mem_mine_of_number (hv : View m own (read ++ mine) table batch left read mine)
    (hsorted : (read ++ mine).Sorted) (hrow : row ∈ read ++ mine)
    (hnumber : row.number = batch.toInt) : row ∈ mine := by
  rcases List.mem_append.1 hrow with hread | hmine
  · have hlt := hv.number_lt hsorted hread
    omega
  · exact hmine

theorem number_le (hv : View m own (read ++ mine) table batch left read mine)
    (hsorted : (read ++ mine).Sorted) (hrow : row ∈ read ++ mine) : row.number ≤ batch.toInt := by
  rcases List.mem_append.1 hrow with hread | hmine
  · exact Int.le_of_lt (hv.number_lt hsorted hread)
  · exact Int.le_of_eq (hv.own row hmine).1

theorem add (hv : View m own (read ++ mine) table batch (name :: left) read mine)
    (hrow : row.batch = batch) (hown : own row) :
    View m own (read ++ mine ++ [row]) table batch left read (mine ++ [row]) where
  begins := by
    rw [← List.append_assoc]
  table := hv.table
  number := hv.number
  own := by
    intro other hother
    rcases List.mem_append.1 hother with hmine | hnew
    · exact hv.own other hmine
    · rw [List.mem_singleton.1 hnew]
      exact ⟨congrArg Int64.toInt hrow, hown⟩
  left := by
    have hdrop := congrArg List.tail hv.left
    rw [List.tail_cons, List.tail_drop] at hdrop
    have hlength : (read ++ (mine ++ [row])).length = (read ++ mine).length + 1 := by
      rw [← List.append_assoc]
      exact List.length_append
    rw [hdrop, hlength]

end View

/-- What a runner knows in a phase. -/
def Phase.Knows (m : Migrator) (own : AppliedMigration → Prop) (h : History) : Phase → Prop
  | .applying table batch _ left => ∃ read mine, View m own h table batch left read mine
  | _ => True

theorem Phase.Knows.mono {m : Migrator} {own own' : AppliedMigration → Prop} {h h' : History}
    {phase : Phase} (hknows : phase.Knows m own h) (hgrown : h <+: h')
    (hown : ∀ row ∈ h, own row → own' row) : phase.Knows m own' h' := by
  cases phase with
  | applying table batch pending left =>
    obtain ⟨read, mine, hv⟩ := hknows
    exact ⟨read, mine, hv.mono hgrown hown⟩
  | _ => trivial

/-- A runner that knows where its run is can go on. -/
theorem Phase.Knows.ready {m : Migrator} {own : AppliedMigration → Prop} {h : History}
    {phase : Phase} (hknows : phase.Knows m own h) (hplain : Value.nowText ∉ m.names) :
    phase.Ready m := by
  cases phase with
  | applying table batch pending left =>
    obtain ⟨read, mine, hv⟩ := hknows
    refine ⟨hv.table, fun hnow => hplain ?_⟩
    rw [hv.left] at hnow
    exact List.mem_of_mem_drop hnow
  | _ => trivial

/-! ### What turns preserve -/

/-- A row that no other runner has added. -/
def Owned (turns : List (Turn ι)) (i : ι) (row : AppliedMigration) : Prop :=
  ∀ j, Added turns j row → j = i

/-- What is true of a history, of the turns that led from `old` to it, and of the runners. -/
structure Consistent (m : ι → Migrator) (declared : List String) (old : History)
    (turns : List (Turn ι)) (h : History) (phases : ι → Phase) : Prop where
  names : h.names <+: declared
  sorted : h.Sorted
  rows : h = old ++ turns.flatMap Turn.added
  applied : History.names (turns.flatMap Turn.added) = turns.filterMap Turn.applied?
  /-- A batch is added by one runner. -/
  owner : ∀ i j row row', Added turns i row → Added turns j row' → row.number = row'.number → i = j
  knows : ∀ i, (phases i).Knows (m i) (Owned turns i) h

namespace Consistent

variable {m : ι → Migrator} {conn : ι → Executor σ} {rows : σ → History}
  {declared : List String} {old h h' : History} {turns : List (Turn ι)} {phases : ι → Phase}
  {i : ι} {before after : Phase}

theorem start (m : ι → Migrator) (hnames : h.names <+: declared) (hsorted : h.Sorted) :
    Consistent m declared h [] h fun _ => .opening where
  names := hnames
  sorted := hsorted
  rows := (List.append_nil h).symm
  applied := rfl
  owner := by simp [Added]
  knows _ := trivial

theorem mem_of_added (hc : Consistent m declared old turns h phases) {row : AppliedMigration}
    (hadded : Added turns i row) : row ∈ h := by
  rw [hc.rows]
  exact List.mem_append_right old hadded.mem_flatMap

variable [DecidableEq ι]

theorem same (hc : Consistent m declared old turns h phases) {turn : Turn ι}
    (hnothing : turn.added = []) (hnone : turn.applied? = none)
    (hknows : after.Knows (m i) (Owned turns i) h) :
    Consistent m declared old (turns ++ [turn]) h (Function.update phases i after) := by
  have hadded : ∀ j row, Added (turns ++ [turn]) j row ↔ Added turns j row := by
    intro j row
    simp [added_concat, hnothing]
  have howned : ∀ j, Owned (turns ++ [turn]) j = Owned turns j := by
    intro j
    funext row
    simp [Owned, hadded]
  refine ⟨hc.names, hc.sorted, ?_, ?_, ?_, ?_⟩
  · simpa [hnothing] using hc.rows
  · simpa [hnothing, hnone] using hc.applied
  · intro j k row row' hrow hrow'
    exact hc.owner j k row row' ((hadded j row).1 hrow) ((hadded k row').1 hrow')
  · rw [Function.forall_update_iff phases fun j phase =>
      phase.Knows (m j) (Owned (turns ++ [turn]) j) h]
    simp only [howned]
    exact ⟨hknows, fun j _ => hc.knows j⟩

/-- A turn in which a migration is applied. Its name is new, so the runner has seen everything. -/
theorem append_row (hshares : SharesHistory m conn rows declared)
    (hc : Consistent m declared old turns h phases) {table name : String} {batch : Int64}
    {pending left : List String} {row : AppliedMigration} {turn : Turn ι}
    (hphase : phases i = .applying table batch pending (name :: left))
    (hrow : Inserted h name batch row) (hnodup : (History.names (h ++ [row])).Nodup)
    (hrunner : turn.runner = i) (hone : turn.added = [row]) (hname : turn.applied? = some name) :
    Consistent m declared old (turns ++ [turn]) (h ++ [row])
      (Function.update phases i (.applying table batch pending left)) := by
  have hknows := hc.knows i
  rw [hphase] at hknows
  obtain ⟨read, mine, hv⟩ := hknows
  -- nothing was added behind the view of the runner, or its name would be repeated
  have hnew : name ∉ h.names := by
    rw [names_append, List.nodup_append] at hnodup
    intro hmem
    exact hnodup.2.2 name hmem row.name (by simp) hrow.name.symm
  obtain rfl := hv.eq_of_not_mem (hshares.names i ▸ hc.names) hnew
  have hnumber : row.number = batch.toInt := congrArg Int64.toInt hrow.batch
  have hnewRow : row ∉ read ++ mine := fun hmem => hnew (hrow.name ▸ List.mem_map_of_mem hmem)
  have hadded : ∀ j other, Added (turns ++ [turn]) j other ↔
      Added turns j other ∨ i = j ∧ other = row := by
    intro j other
    rw [added_concat, hrunner, hone, List.mem_singleton]
  -- the rows with the number of this batch are those of the runner
  have hbatch : ∀ j other, Added turns j other → other.number = row.number → j = i := by
    intro j other hother heq
    have hmine := hv.mem_mine_of_number hc.sorted (hc.mem_of_added hother) (heq.trans hnumber)
    exact (hv.own other hmine).2 j hother
  -- the new row is none of those that a runner calls its own
  have howned : ∀ j, ∀ other ∈ read ++ mine, Owned turns j other →
      Owned (turns ++ [turn]) j other := by
    intro j other hmem hown k hother
    rcases (hadded k other).1 hother with hother | ⟨-, rfl⟩
    · exact hown k hother
    · exact absurd hmem hnewRow
  constructor
  case names =>
    refine names_append_row hc.names ?_
    rw [hrow.name, ← hshares.names i]
    exact hv.getElem?_names
  case sorted =>
    refine hc.sorted.append_row ?_ hrow.fits
    intro other hother
    rw [hnumber]
    exact hv.number_le hc.sorted hother
  case rows =>
    rw [List.flatMap_append, List.flatMap_singleton, hone, ← List.append_assoc, ← hc.rows]
  case applied =>
    rw [List.flatMap_append, List.flatMap_singleton, hone, names_append, hc.applied,
      List.filterMap_append, List.filterMap_cons_some hname, ← hrow.name]
    rfl
  case owner =>
    intro j k other other' hother hother' heq
    rcases (hadded j other).1 hother with hother | ⟨rfl, rfl⟩
    · rcases (hadded k other').1 hother' with hother' | ⟨rfl, rfl⟩
      · exact hc.owner j k other other' hother hother' heq
      · exact hbatch j other hother heq
    · rcases (hadded k other').1 hother' with hother' | ⟨rfl, rfl⟩
      · exact (hbatch k other' hother' heq.symm).symm
      · rfl
  case knows =>
    rw [Function.forall_update_iff phases fun j phase =>
      phase.Knows (m j) (Owned (turns ++ [turn]) j) (read ++ mine ++ [row])]
    constructor
    · refine ⟨read, mine ++ [row], (hv.mono List.prefix_rfl (howned i)).add hrow.batch ?_⟩
      intro k hother
      rcases (hadded k row).1 hother with hother | ⟨rfl, -⟩
      · exact absurd (hc.mem_of_added hother) hnewRow
      · rfl
    · intro j _
      exact (hc.knows j).mono (List.prefix_append ..) (howned j)

/-- What one turn preserves. -/
theorem turn (hshares : SharesHistory m conn rows declared)
    (hc : Consistent m declared old turns h phases)
    (hadvanced : Advanced (m i) (conn i) rows h (phases i) after h') :
    Consistent m declared old (turns ++ [⟨i, phases i, after, h, h'⟩]) h'
      (Function.update phases i after) := by
  generalize hphase : phases i = before at hadvanced
  cases hadvanced with
  | opened => exact hc.same (by simp) rfl trivial
  | ended => exact hc.same (by simp) rfl trivial
  | @read table pending htable hpending =>
    refine hc.same (by simp) rfl ⟨h, [], ?_, htable, ?_, by simp, ?_⟩
    · rw [List.append_nil]
    · exact hc.sorted.toInt_lastBatch_add_one pending
    · rw [List.append_nil]
      exact hpending
  | @applied table name batch pending left row sql s t hrow hrun hrows =>
    have hnodup := hshares.unique i sql s t hrun
    rw [hrows] at hnodup
    exact hc.append_row hshares hphase hrow hnodup rfl (by simp) rfl

end Consistent

/-! ### Any turns -/

section

variable [DecidableEq ι] {m : ι → Migrator} {conn : ι → Executor σ} {rows : σ → History}
  {declared : List String} {start remote : σ} {turns : List (Turn ι)} {phases : ι → Phase}

/-- What all turns preserve. -/
theorem Interleaved.consistent (hshares : SharesHistory m conn rows declared)
    (hnames : (rows start).names <+: declared) (hsorted : (rows start).Sorted)
    (hreach : Interleaved m conn rows start turns remote phases) :
    Consistent m declared (rows start) turns (rows remote) phases := by
  induction hreach with
  | start => exact .start m hnames hsorted
  | @turn turns phases s t r i _ hrun ih =>
    have hplain : Value.nowText ∉ (m i).names := hshares.names i ▸ hshares.plain
    have hready := (ih.knows i).ready hplain
    exact ih.turn hshares ((Migrator.advanced_advance (hshares.keeps i) hready).of_runFrom_eq hrun)

/-- Runners that share a history apply every migration at most once and in order, whichever turns
they take. At all times the names of the history are distinct and the first declared ones, the
numbers of its batches do not decrease, and it is the history of the beginning and the rows of the
migrations that were applied, in that order. The rows of one batch were added by one runner.

The phases of a runner are those of `Migrator.latest`: the pieces of a run put together are the run
(`Migrator.finish_eq_advance`), each of them makes at most one call (`Migrator.oneCall_advance`),
and a runner that nobody interrupts ends as the run does (`Interleaved.exists_alone`). -/
theorem Interleaved.applied_once (hshares : SharesHistory m conn rows declared)
    (hnames : (rows start).names <+: declared) (hsorted : (rows start).Sorted)
    (hreach : Interleaved m conn rows start turns remote phases) :
    (rows remote).names <+: declared ∧ (rows remote).Sorted ∧ (rows remote).names.Nodup ∧
    rows remote = rows start ++ turns.flatMap Turn.added ∧
    (rows remote).names = (rows start).names ++ turns.filterMap Turn.applied? ∧
    (∀ name, (turns.filterMap Turn.applied?).count name ≤ (rows remote).names.count name) ∧
    ∀ turn ∈ turns, ∀ turn' ∈ turns, ∀ row ∈ turn.added, ∀ row' ∈ turn'.added,
      row.batch = row'.batch → turn.runner = turn'.runner := by
  have hc := hreach.consistent hshares hnames hsorted
  have happlied : (rows remote).names = (rows start).names ++ turns.filterMap Turn.applied? := by
    rw [hc.rows, names_append, hc.applied]
  refine ⟨hc.names, hc.sorted, hshares.distinct.sublist hc.names.sublist, hc.rows, happlied, ?_, ?_⟩
  · intro name
    rw [happlied, List.count_append]
    omega
  · intro turn hturn turn' hturn' row hrow row' hrow' hbatch
    exact hc.owner turn.runner turn'.runner row row' ⟨turn, hturn, rfl, hrow⟩
      ⟨turn', hturn', rfl, hrow'⟩ (congrArg Int64.toInt hbatch)

end

/-! ### Three runners and a table in memory -/

namespace Ledger

/-- The executor over the table when its names are unique: a transaction that repeats one is
refused. -/
def uniqueConn : Executor Ledger where
  query := conn.query
  execute := conn.execute
  batch := conn.batch
  batchTransaction sql := ExceptT.mk fun s =>
    let (r, t) := (conn.batchTransaction sql).runFrom s
    if t.remote.rows.names.Nodup then (r, t) else (.error refusal, s)

theorem uniqueConn_cases {sql : String} {s t : SessionState Ledger} {r : Except Error Unit}
    (h : (uniqueConn.batchTransaction sql).runFrom s = (r, t)) :
    ((conn.batchTransaction sql).runFrom s = (r, t) ∧ t.remote.rows.names.Nodup) ∨
      (r = .error refusal ∧ t = s) := by
  rcases hrun : (conn.batchTransaction sql).runFrom s with ⟨r', u⟩
  have hunique : (uniqueConn.batchTransaction sql).runFrom s =
      if u.remote.rows.names.Nodup then (r', u) else (.error refusal, s) := by
    show (if ((conn.batchTransaction sql).runFrom s).2.remote.rows.names.Nodup then
      (conn.batchTransaction sql).runFrom s else (.error refusal, s)) = _
    rw [hrun]
  rw [hunique] at h
  by_cases hnodup : u.remote.rows.names.Nodup
  · rw [if_pos hnodup] at h
    cases h
    exact Or.inl ⟨rfl, hnodup⟩
  · rw [if_neg hnodup] at h
    cases h
    exact Or.inr ⟨rfl, rfl⟩

theorem transact_of_uniqueConn {sql : String} {s t : SessionState Ledger}
    (h : (uniqueConn.batchTransaction sql).runFrom s = (.ok (), t)) :
    (conn.batchTransaction sql).runFrom s = (.ok (), t) ∧ t.remote.rows.names.Nodup := by
  obtain hrun | ⟨he, -⟩ := uniqueConn_cases h
  · exact hrun
  · cases he

theorem keepsHistory_uniqueConn : KeepsHistory uniqueConn Ledger.rows migrator where
  failed sql s e t hrun := by
    obtain ⟨hrun, -⟩ | ⟨-, rfl⟩ := uniqueConn_cases hrun
    · exact keepsHistory.failed sql s e t hrun
    · rfl
  created table htable s t hrun :=
    keepsHistory.created table htable s t (transact_of_uniqueConn hrun).1
  selected := keepsHistory.selected
  inserted table htable migration hmem own changes hup hchanges batch s t hrun :=
    keepsHistory.inserted table htable migration hmem own changes hup hchanges batch s t
      (transact_of_uniqueConn hrun).1
  deleted table htable migration hmem own changes hdown hchanges s t hrun :=
    keepsHistory.deleted table htable migration hmem own changes hdown hchanges s t
      (transact_of_uniqueConn hrun).1

theorem sharesHistory (ι : Type) : SharesHistory (fun _ : ι => migrator) (fun _ => uniqueConn)
    Ledger.rows migrator.names where
  names _ := rfl
  distinct := by decide +kernel
  plain := by decide +kernel
  keeps _ := keepsHistory_uniqueConn
  unique _ _ _ _ hrun := (transact_of_uniqueConn hrun).2

/-- Turns of three runners. Two of them read the empty history, and the second one comes late. The
third one overtakes the first one. -/
def played : List (Turn (Fin 3)) × Ledger × (Fin 3 → Phase) :=
  Interleaved.play (fun _ => migrator) (fun _ => uniqueConn) Ledger.rows {}
    [0, 0, 1, 1, 0, 1, 2, 2, 2]

theorem map_played : played.1.map (fun turn => (turn.runner, turn.applied?)) =
    [(0, none), (0, none), (1, none), (1, none), (0, some "001_users"), (1, none), (2, none),
      (2, none), (2, some "002_posts")] := by
  decide +kernel

theorem applied_played : played.1.filterMap Turn.applied? = ["001_users", "002_posts"] := by
  have hmap : played.1.filterMap Turn.applied? =
      (played.1.map fun turn => (turn.runner, turn.applied?)).filterMap (·.2) := by
    rw [List.filterMap_map]
    rfl
  rw [hmap, map_played]
  rfl

end Ledger

open Ledger in
theorem Interleaved.applied_once_played :
    SharesHistory (fun _ : Fin 3 => migrator) (fun _ => uniqueConn) Ledger.rows migrator.names ∧
    played.1.map (fun turn => (turn.runner, turn.applied?)) =
      [(0, none), (0, none), (1, none), (1, none), (0, some "001_users"), (1, none), (2, none),
        (2, none), (2, some "002_posts")] ∧
    played.2.1.rows.names = ["001_users", "002_posts"] ∧ played.2.1.rows.Sorted ∧
    ∀ turn ∈ played.1, ∀ turn' ∈ played.1, ∀ row ∈ turn.added, ∀ row' ∈ turn'.added,
      row.batch = row'.batch → turn.runner = turn'.runner := by
  have hreach : Interleaved (fun _ => migrator) (fun _ => uniqueConn) Ledger.rows {} played.1
      played.2.1 played.2.2 := interleaved_play _
  have hnames : names (rows {}) <+: migrator.names := List.nil_prefix
  have hsorted : Sorted (rows {}) := ⟨.nil, by simp⟩
  obtain ⟨-, hrows, -, -, happlied, -, hrunner⟩ :=
    applied_once (sharesHistory (Fin 3)) hnames hsorted hreach
  refine ⟨sharesHistory (Fin 3), map_played, ?_, hrows, hrunner⟩
  have hnone : names (rows {}) = [] := rfl
  rw [happlied, hnone, List.nil_append, applied_played]

end PgToolkit
