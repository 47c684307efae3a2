import Mathlib.Data.List.Chain
import Mathlib.Order.Defs.Unbundled
import PgToolkit.Migration.Run

/-!
# Legal histories

The history of migrations is legal when its names are a prefix of the declared ones and its batches
are numbered without gaps from one. The last batch of a legal history is its end, although nothing
but the names is ever checked.
-/

namespace PgToolkit

/-- What a migrator is asked to do: to apply what is pending, to undo the last batch, or to tell
what is left to do. -/
inductive Operation where
  | latest | rollback | status
  deriving DecidableEq, Repr

/-- The rows of the table of the history, in the order of their keys. -/
abbrev History := List AppliedMigration

/-- The number of the batch of a row. -/
def AppliedMigration.number (row : AppliedMigration) : Int := row.batch.toInt

theorem MigrationStatus.isUpToDate_iff {status : MigrationStatus} :
    status.isUpToDate = true ↔ status.pending = [] := List.isEmpty_iff

namespace History

/-- The names of a history. -/
def names (h : History) : List String := h.map (·.name)

/-- The number of the last batch; zero for the empty history. -/
def lastNumber (h : History) : Int := (h.getLast?.map AppliedMigration.number).getD 0

/-- What is true of a history at all times. -/
structure Legal (declared : List String) (h : History) : Prop where
  names : h.names <+: declared
  keys : h.Pairwise fun a b => a.id < b.id
  first : ∀ row ∈ h.head?, row.number = 1
  /-- From row to row the number stays or grows by one. -/
  follows : h.IsChain fun a b => b.number = a.number ∨ b.number = a.number + 1
  /-- The column of the numbers holds words of 32 bits. -/
  fits : ∀ row ∈ h, row.number ≤ Int32.maxValue.toInt

/-- Rows whose batches are not numbered downwards. Numbers may be left out. -/
structure Sorted (h : History) : Prop where
  numbers : h.Pairwise fun a b => a.number ≤ b.number
  /-- The column of the numbers holds words of 32 bits. -/
  fits : ∀ row ∈ h, row.number ≤ Int32.maxValue.toInt

/-- What an operation may do to a history at once. Only applying adds a row, that of the next
declared migration, and only undoing takes the last row away. -/
inductive Step (declared : List String) : Operation → History → History → Prop where
  | same {op : Operation} (h : History) : Step declared op h h
  | apply (h : History) (row : AppliedMigration) : declared[h.length]? = some row.name →
      Step declared .latest h (h ++ [row])
  | revert (h : History) (row : AppliedMigration) : Step declared .rollback (h ++ [row]) h

/-- Histories one after the other, each of them legal and one step of an operation away from the one
before. -/
inductive Path (declared : List String) (op : Operation) :
    History → List History → History → Prop where
  | refl (h : History) : Path declared op h [] h
  | cons {h next last : History} {seen : List History} : Step declared op h next →
      Legal declared next → Path declared op next seen last →
      Path declared op h (next :: seen) last

/-- A history after migrations were applied to it as one new batch. -/
def Applied (old : History) (done : List String) (h : History) : Prop :=
  ∃ added : History, h = old ++ added ∧ added.names = done ∧
    ∀ row ∈ added, row.number = old.lastNumber + 1

/-- A history after migrations of its last batch were undone, newest first. -/
def Reverted (old : History) (undone : List String) (h : History) : Prop :=
  ∃ removed : History, old = h ++ removed ∧ removed.names.reverse = undone ∧
    ∀ row ∈ removed, row.number = old.lastNumber

variable {declared : List String} {op : Operation} {h kept : History} {row : AppliedMigration}

@[simp] theorem names_append (h k : History) : names (h ++ k) = h.names ++ k.names :=
  List.map_append

@[simp] theorem names_cons (row : AppliedMigration) (h : History) :
    names (row :: h) = row.name :: h.names := rfl

@[simp] theorem names_nil : names [] = [] := rfl

@[simp] theorem length_names (h : History) : h.names.length = h.length := List.length_map ..

@[simp] theorem lastNumber_nil : lastNumber [] = 0 := rfl

@[simp] theorem lastNumber_append_row (h : History) (row : AppliedMigration) :
    lastNumber (h ++ [row]) = row.number := by
  simp [lastNumber]

theorem lastNumber_append {added : History} {n : Int} (hne : added ≠ [])
    (hadded : ∀ row ∈ added, row.number = n) : lastNumber (h ++ added) = n := by
  obtain ⟨rest, last, rfl⟩ := (List.eq_nil_or_concat' added).resolve_left hne
  rw [← List.append_assoc, lastNumber_append_row]
  exact hadded last (List.mem_append_right rest (List.mem_singleton.2 rfl))

theorem names_append_row (hnames : h.names <+: declared)
    (hname : declared[h.length]? = some row.name) : names (h ++ [row]) <+: declared := by
  -- the names are the first declared ones, and this one is the next
  obtain ⟨hlt, hget⟩ := List.getElem?_eq_some_iff.1 hname
  have htake : h.names = declared.take h.length := by
    rw [← length_names, ← List.prefix_iff_eq_take]
    exact hnames
  have hsucc : declared.take (h.length + 1) = h.names ++ [row.name] := by
    rw [htake, List.take_succ_eq_append_getElem hlt, hget]
  rw [names_append]
  exact hsucc ▸ List.take_prefix ..

/-- Asking what is left to do leaves a history alone. -/
theorem Step.eq_of_status {next : History} (hstep : Step declared .status h next) : next = h := by
  cases hstep with
  | same => rfl

namespace Path

variable {g k : History} {seen seen' : List History}

theorem append (hgh : Path declared op g seen h) (hhk : Path declared op h seen' k) :
    Path declared op g (seen ++ seen') k := by
  induction hgh with
  | refl _ => exact hhk
  | cons hstep hlegal _ ih => exact .cons hstep hlegal (ih hhk)

theorem legal (hpath : Path declared op g seen h) (hl : Legal declared g) : Legal declared h := by
  induction hpath with
  | refl _ => exact hl
  | cons _ hnext _ ih => exact ih hnext

/-- The histories of an operation that leaves them alone are all the first one. -/
theorem eq_of_status (hpath : Path declared .status g seen h) : ∀ k ∈ seen, k = g := by
  induction hpath with
  | refl _ => simp
  | @cons g next last seen hstep _ _ ih =>
    obtain rfl := hstep.eq_of_status
    intro k hk
    rcases List.mem_cons.1 hk with hk | hk
    · exact hk
    · exact ih k hk

/-- Any operation may leave a history alone. -/
theorem of_status (hpath : Path declared .status g seen h) : Path declared op g seen h := by
  induction hpath with
  | refl _ => exact .refl _
  | @cons g next last seen hstep hlegal _ ih =>
    obtain rfl := hstep.eq_of_status
    exact .cons (.same _) hlegal ih

end Path

/-! ### Steps between legal histories -/

namespace Legal

theorem nil (declared : List String) : Legal declared [] where
  names := List.nil_prefix
  keys := .nil
  first := by simp
  follows := .nil
  fits := by simp

theorem mono {longer : List String} (hl : Legal declared h) (hbegins : declared <+: longer) :
    Legal longer h where
  names := List.IsPrefix.trans hl.names hbegins
  keys := hl.keys
  first := hl.first
  follows := hl.follows
  fits := hl.fits

theorem of_append {rest : History} (hl : Legal declared (h ++ rest)) : Legal declared h where
  names := List.IsPrefix.trans (names_append h rest ▸ List.prefix_append ..) hl.names
  keys := (List.pairwise_append.1 hl.keys).1
  first := by
    intro row hrow
    cases h with
    | nil => simp at hrow
    | cons first others => exact hl.first row hrow
  follows := hl.follows.left_of_append
  fits row hrow := hl.fits row (List.mem_append_left rest hrow)

/-- The next declared migration is applied, in the last batch or in the one after it. -/
theorem append_row (hl : Legal declared h) (hname : declared[h.length]? = some row.name)
    (hkey : ∀ old ∈ h, old.id < row.id)
    (hnumber : h ≠ [] ∧ row.number = h.lastNumber ∨ row.number = h.lastNumber + 1)
    (hfits : row.number ≤ Int32.maxValue.toInt) : Legal declared (h ++ [row]) where
  names := names_append_row hl.names hname
  keys := List.pairwise_append.2 ⟨hl.keys, List.pairwise_singleton .., by simpa using hkey⟩
  first := by
    intro first hfirst
    cases h with
    | nil =>
      rw [List.nil_append, List.head?_cons, Option.mem_some] at hfirst
      subst hfirst
      simpa using hnumber
    | cons first' others => exact hl.first first hfirst
  follows := by
    refine hl.follows.append (List.isChain_singleton row) ?_
    intro old hold new hnew
    rw [List.head?_cons, Option.mem_some] at hnew
    subst hnew
    have hlast : h.lastNumber = old.number := by simp [lastNumber, Option.mem_def.1 hold]
    rw [hlast] at hnumber
    exact hnumber.imp_left (·.2)
  fits := List.forall_mem_append.2 ⟨hl.fits, List.forall_mem_singleton.2 hfits⟩

end Legal

/-! ### Numbers of batches -/

namespace Sorted

theorem of_append {rest : History} (hs : Sorted (h ++ rest)) : Sorted h where
  numbers := (List.pairwise_append.1 hs.numbers).1
  fits row hrow := hs.fits row (List.mem_append_left rest hrow)

theorem number_le_lastNumber (hs : Sorted h) (hrow : row ∈ h) : row.number ≤ h.lastNumber := by
  rcases h.eq_nil_or_concat' with rfl | ⟨rest, last, rfl⟩
  · cases hrow
  · rw [lastNumber_append_row]
    rcases List.mem_append.1 hrow with hrow | hrow
    · exact (List.pairwise_append.1 hs.numbers).2.2 row hrow last (List.mem_singleton.2 rfl)
    · exact Int.le_of_eq (congrArg AppliedMigration.number (List.mem_singleton.1 hrow))

theorem lastNumber_le_maxValue (hs : Sorted h) : h.lastNumber ≤ Int32.maxValue.toInt := by
  rcases h.eq_nil_or_concat' with rfl | ⟨rest, last, rfl⟩
  · decide
  · rw [lastNumber_append_row]
    exact hs.fits last (List.mem_append_right rest (List.mem_singleton.2 rfl))

/-- A row whose number is not below the last one. -/
theorem append_row (hs : Sorted h) (hle : ∀ old ∈ h, old.number ≤ row.number)
    (hfits : row.number ≤ Int32.maxValue.toInt) : Sorted (h ++ [row]) where
  numbers := List.pairwise_append.2 ⟨hs.numbers, List.pairwise_singleton .., by simpa using hle⟩
  fits := List.forall_mem_append.2 ⟨hs.fits, List.forall_mem_singleton.2 hfits⟩

/-- The greatest number of a batch is that of the last row. -/
theorem toInt_lastBatch (hs : Sorted h) (pending : List String) :
    (MigrationStatus.mk h pending).lastBatch.toInt = h.lastNumber := by
  cases h with
  | nil => rfl
  | cons first others =>
    have hpairs := hs.numbers
    have hfold : (MigrationStatus.mk (first :: others) pending).lastBatch =
        others.foldl (fun batch row => max batch row.batch) first.batch := by
      change (others.map AppliedMigration.batch).foldl max first.batch = _
      rw [List.foldl_map]
    rw [hfold]
    clear hs hfold
    -- row by row the greatest number so far is that of the row
    induction others generalizing first with
    | nil => rfl
    | cons second others ih =>
      obtain ⟨hfirst, hrest⟩ := List.pairwise_cons.1 hpairs
      have hle : first.batch ≤ second.batch :=
        Int64.le_iff_toInt_le.2 (hfirst second List.mem_cons_self)
      have hmax : max first.batch second.batch = second.batch := if_pos hle
      rw [List.foldl_cons, hmax, ih second hrest]
      simp [lastNumber, List.getLast?_cons_cons]

/-- The number after the last one is no smaller: numbers of 32 bits do not overflow one of 64. -/
theorem toInt_lastBatch_add_one (hs : Sorted h) (pending : List String) :
    ((MigrationStatus.mk h pending).lastBatch + 1).toInt = h.lastNumber + 1 := by
  have hlast := hs.toInt_lastBatch pending
  have hle := hs.lastNumber_le_maxValue
  have hmax : Int32.maxValue.toInt = 2147483647 := rfl
  have hge := (MigrationStatus.mk h pending).lastBatch.le_toInt
  rw [hlast] at hge
  rw [Int64.toInt_add, hlast]
  change Int.bmod (h.lastNumber + 1) (2 ^ 64) = h.lastNumber + 1
  exact Int.bmod_eq_of_le (by omega) (by omega)

end Sorted

namespace Legal

theorem sorted (hl : Legal declared h) : Sorted h where
  numbers := by
    have hchain : h.IsChain fun a b => a.number ≤ b.number :=
      hl.follows.imp fun a b hab => by omega
    have : IsTrans AppliedMigration fun a b => a.number ≤ b.number :=
      ⟨fun a b c hab hbc => Int.le_trans hab hbc⟩
    exact List.isChain_iff_pairwise.1 hchain
  fits := hl.fits

theorem one_le_number (hl : Legal declared h) (hrow : row ∈ h) : 1 ≤ row.number := by
  cases h with
  | nil => cases hrow
  | cons first others =>
    have hfirst := hl.first first rfl
    rcases List.mem_cons.1 hrow with rfl | hrow
    · omega
    · have hle := (List.pairwise_cons.1 hl.sorted.numbers).1 row hrow
      omega

theorem lastNumber_eq_zero_iff (hl : Legal declared h) : h.lastNumber = 0 ↔ h = [] := by
  constructor
  · intro hzero
    cases h with
    | nil => rfl
    | cons first others =>
      have hle := hl.sorted.number_le_lastNumber (List.mem_cons_self (l := others) (a := first))
      have hone := hl.one_le_number (List.mem_cons_self (l := others) (a := first))
      omega
  · rintro rfl
    rfl

theorem lastBatch_eq_zero_iff (hl : Legal declared h) (pending : List String) :
    (MigrationStatus.mk h pending).lastBatch = 0 ↔ h = [] := by
  rw [← Int64.toInt_inj, hl.sorted.toInt_lastBatch, ← hl.lastNumber_eq_zero_iff]
  rfl

end Legal

/-- Rows whose numbers do not decrease: those below a number come first. -/
theorem eq_append_of_pairwise (hpairs : h.Pairwise fun a b => a.number ≤ b.number) (n : Int) :
    h = h.filter (·.number < n) ++ h.filter (n ≤ ·.number) := by
  induction h with
  | nil => rfl
  | cons first others ih =>
    obtain ⟨hfirst, hrest⟩ := List.pairwise_cons.1 hpairs
    by_cases hlt : first.number < n
    · rw [List.filter_cons_of_pos (by simpa using hlt),
        List.filter_cons_of_neg (by simpa using hlt), List.cons_append, ← ih hrest]
    · -- no row behind this one is below the number either
      have hall : ∀ row ∈ first :: others, n ≤ row.number := by
        intro row hrow
        rcases List.mem_cons.1 hrow with rfl | hrow
        · omega
        · have := hfirst row hrow
          omega
      have hnone : (first :: others).filter (·.number < n) = [] := by
        rw [List.filter_eq_nil_iff]
        intro row hrow
        simpa using hall row hrow
      have hsame : (first :: others).filter (n ≤ ·.number) = first :: others := by
        rw [List.filter_eq_self]
        intro row hrow
        simpa using hall row hrow
      rw [hnone, hsame, List.nil_append]

/-- The rows of the last batch are the end of a sorted history. -/
theorem Sorted.exists_lastBatch (hs : Sorted h) :
    ∃ kept removed, h = kept ++ removed ∧ (∀ row ∈ removed, row.number = h.lastNumber) ∧
      ∀ row ∈ kept, row.number < h.lastNumber := by
  refine ⟨h.filter (·.number < h.lastNumber), h.filter (h.lastNumber ≤ ·.number),
    eq_append_of_pairwise hs.numbers _, ?_, ?_⟩
  · intro row hrow
    obtain ⟨hmem, hle⟩ := List.mem_filter.1 hrow
    have hge := hs.number_le_lastNumber hmem
    have hle : h.lastNumber ≤ row.number := by simpa using hle
    omega
  · intro row hrow
    simpa using (List.mem_filter.1 hrow).2

/-- The names of the last batch, when its rows are the end of the history. -/
theorem batchNames_eq {removed : History} {pending : List String} {batch : Int64}
    (hsplit : h = kept ++ removed) (hremoved : ∀ row ∈ removed, row.number = batch.toInt)
    (hkept : ∀ row ∈ kept, row.number < batch.toInt) :
    Migrator.batchNames ⟨h, pending⟩ batch = removed.names.reverse := by
  have hnone : kept.filter (·.batch = batch) = [] := by
    rw [List.filter_eq_nil_iff]
    intro row hrow heq
    have hlt := hkept row hrow
    have hbatch : row.batch = batch := by simpa using heq
    rw [AppliedMigration.number, hbatch] at hlt
    omega
  have hall : removed.filter (·.batch = batch) = removed := by
    rw [List.filter_eq_self]
    intro row hrow
    simpa using Int64.toInt_inj.1 (hremoved row hrow)
  subst hsplit
  rw [Migrator.batchNames, List.filter_reverse, List.filter_append, hnone, hall, List.nil_append,
    List.map_reverse]
  rfl

/-- Of distinct names, each stands in one row only. -/
theorem filter_name_ne_of_nodup {back : History} (hnodup : (names (kept ++ row :: back)).Nodup) :
    (kept ++ row :: back).filter (·.name ≠ row.name) = kept ++ back := by
  rw [names_append, names_cons, List.nodup_append, List.nodup_cons] at hnodup
  obtain ⟨-, ⟨hback, -⟩, hkept⟩ := hnodup
  have hfront : kept.filter (·.name ≠ row.name) = kept := by
    rw [List.filter_eq_self]
    intro old hold
    simpa using hkept old.name (List.mem_map_of_mem hold) row.name List.mem_cons_self
  have hbehind : back.filter (·.name ≠ row.name) = back := by
    rw [List.filter_eq_self]
    intro old hold
    have hne : old.name ≠ row.name := fun heq => hback (heq ▸ List.mem_map_of_mem hold)
    simpa using hne
  rw [List.filter_append, List.filter_cons_of_neg (by simp), hfront, hbehind]

end History

/-! ### What is left to do -/

theorem firstRepeated?_eq_none {seen names : List String} (hnodup : names.Nodup)
    (hseen : ∀ name ∈ names, name ∉ seen) : firstRepeated? seen names = none := by
  induction names generalizing seen with
  | nil => rfl
  | cons name rest ih =>
    obtain ⟨hname, hrest⟩ := List.nodup_cons.1 hnodup
    have hnew : name ∉ seen := hseen name List.mem_cons_self
    rw [firstRepeated?, if_neg (by simpa using hnew)]
    refine ih hrest ?_
    intro other hother hmem
    rcases List.mem_cons.1 hmem with rfl | hmem
    · exact hname hother
    · exact hseen other (List.mem_cons_of_mem _ hother) hmem

theorem compareNames_eq_ok {position : Nat} {applied declared : List String}
    (hbegins : applied <+: declared) : compareNames position applied declared = .ok () := by
  induction applied generalizing position declared with
  | nil => rw [compareNames]
  | cons name history ih =>
    obtain ⟨rest, rfl⟩ := hbegins
    rw [List.cons_append, compareNames, if_pos rfl]
    exact ih (List.prefix_append ..)

/-- A legal history is never refused. -/
theorem Migrator.statusOf_of_legal {m : Migrator} {h : History} (hl : h.Legal m.names)
    (hdistinct : m.names.Nodup) : m.statusOf h = .ok ⟨h, m.names.drop h.length⟩ := by
  have hvalid : m.validate h = .ok () := by
    rw [validate, firstRepeated?_eq_none hdistinct (by simp)]
    change (compareNames 1 h.names m.names).mapError Error.migration = .ok ()
    rw [compareNames_eq_ok hl.names]
    rfl
  rw [statusOf, hvalid]
  rfl

end PgToolkit
