import Mathlib.Data.List.Induction
import Mathlib.Data.Nat.Find
import PgToolkit.Proofs.Record.Row

/-!
# Records after calls

What a record holds is told by the calls that made it. A column has the value of the last call on
it, and the columns stand in the order in which they came, where a column that was removed and set
again comes anew. Names never repeat in such a record, so all ways to look at it tell the same.
-/

namespace PgToolkit.Record

/-- A call that changes a record. -/
inductive Call where
  /-- Sets a column and returns the value that it had. -/
  | insert (column : String) (value : Value)
  /-- Sets a column of a record that is passed on. -/
  | set (column : String) (value : Value)
  /-- Removes a column and returns the value that it had. -/
  | remove (column : String)

namespace Call

/-- The column that a call is about. -/
def column : Call → String
  | .insert column _ => column
  | .set column _ => column
  | .remove column => column

/-- What a call leaves in its column. -/
def value? : Call → Option Value
  | .insert _ value => some value
  | .set _ value => some value
  | .remove _ => none

/-- What a call returns, and the record after it. -/
def run (r : Record) : Call → Option Value × Record
  | .insert column value => r.getThenInsert? column value
  | .set column value => (none, r.insert column value)
  | .remove column => r.getThenErase? column

end Call

/-- The record after calls on the record without columns. -/
def after (calls : List Call) : Record :=
  calls.foldl (fun r call => (call.run r).2) empty

/-- The value that was last set for a column since it was last removed: the last call on the column
tells. -/
def lastSet? (calls : List Call) (column : String) : Option Value :=
  (calls.reverse.find? (·.column = column)).bind Call.value?

/-- How many calls there were before a column came to where it stands: the last time at which it was
not there. -/
def arrival (calls : List Call) (column : String) : Nat :=
  Nat.findGreatest (fun n => (lastSet? (calls.take n) column).isNone) calls.length

/-- A record is the map of the values that calls set, in the order in which the columns came. -/
structure Ordered (calls : List Call) (r : Record) : Prop where
  distinct : r.columns.Nodup
  value : ∀ column, r.get? column = lastSet? calls column
  order : r.columns.Pairwise fun a b => arrival calls a < arrival calls b

/-- All ways to look at a record tell of one sequence of columns, each with its value. -/
structure Coherent (r : Record) : Prop where
  distinct : r.columns.Nodup
  entries : r.entries = r.columns.zip r.values
  values : r.values.map some = r.columns.map r.get?
  contains : ∀ column, r.contains column = true ↔ column ∈ r.columns
  size : r.size = r.columns.length
  isEmpty : r.isEmpty = r.columns.isEmpty
  firstValue : r.firstValue? = r.columns.head?.bind r.get?
  /-- Collecting the entries makes the same record. -/
  collected : ofEntries r.entries = r
  intoJson : r.intoJson = r.toJson
  /-- The document has the columns of the record, each with the document of its value. -/
  toJson : ∃ fields, r.toJson = .object fields ∧ (fields.map (·.1)).Perm r.columns ∧
    ∀ column, Json.field? column fields = (r.get? column).map Value.toJson

variable {calls : List Call} {r : Record} {column : String}

theorem mem_columns_iff : column ∈ r.columns ↔ (r.get? column).isSome :=
  OrderedMap.contains_iff.symm

/-! ### One call -/

theorem getThenInsert?_eq (r : Record) (column : String) (value : Value) :
    r.getThenInsert? column value = (r.get? column, r.insert column value) := by
  rw [getThenInsert?, OrderedMap.getThenInsert?_eq]
  rfl

theorem getThenErase?_eq (r : Record) (column : String) :
    r.getThenErase? column = (r.get? column, r.erase column) := by
  rw [getThenErase?, OrderedMap.getThenErase?_eq]
  rfl

namespace Call

/-- A call only sets or removes its own column. -/
theorem run_snd (call : Call) (r : Record) :
    (call.run r).2 = call.value?.elim (r.erase call.column) (r.insert call.column) := by
  cases call with
  | insert column value => exact congrArg Prod.snd (r.getThenInsert?_eq column value)
  | set column value => rfl
  | remove column => exact congrArg Prod.snd (r.getThenErase?_eq column)

theorem get?_run (call : Call) (h : r.columns.Nodup) (column : String) :
    (call.run r).2.get? column = if call.column = column then call.value? else r.get? column := by
  rw [run_snd]
  cases call.value? with
  | none =>
    have herase := OrderedMap.get?_erase h call.column column
    rw [Option.elim_none, get?, erase, herase]
    simp only [eq_comm]
    rfl
  | some value =>
    rw [Option.elim_some, get?, Record.insert, OrderedMap.get?_insert]
    simp only [eq_comm]
    rfl

/-- The columns after a call are those before it, or one came behind them. -/
theorem columns_run (call : Call) (h : r.columns.Nodup) :
    (call.run r).2.columns.Sublist r.columns ∨
      r.get? call.column = none ∧ (call.run r).2.columns = r.columns ++ [call.column] := by
  rw [run_snd]
  cases call.value? with
  | none =>
    left
    have hcolumns : (r.erase call.column).columns = r.columns.filter (· ≠ call.column) :=
      OrderedMap.keys_erase h call.column
    rw [Option.elim_none, hcolumns]
    exact List.filter_sublist
  | some value =>
    rw [Option.elim_some]
    by_cases hmem : call.column ∈ r.columns
    · left
      have hcolumns : (r.insert call.column value).columns = r.columns :=
        OrderedMap.keys_insert_of_mem hmem
      rw [hcolumns]
    · right
      refine ⟨OrderedMap.get?_eq_none hmem, ?_⟩
      exact OrderedMap.keys_insert_of_not_mem hmem

theorem nodup_columns_run (call : Call) (h : r.columns.Nodup) :
    (call.run r).2.columns.Nodup := by
  rcases call.columns_run h with hsublist | ⟨hnone, hcolumns⟩
  · exact hsublist.nodup h
  · have hnot : call.column ∉ r.columns := by
      rw [mem_columns_iff, hnone]
      decide
    rw [hcolumns]
    exact List.nodup_append_comm.1 (List.nodup_cons.2 ⟨hnot, h⟩)

end Call

/-! ### What calls tell -/

theorem lastSet?_concat (calls : List Call) (call : Call) (column : String) :
    lastSet? (calls ++ [call]) column =
      if call.column = column then call.value? else lastSet? calls column := by
  rw [lastSet?, List.reverse_append, List.reverse_singleton, List.singleton_append]
  by_cases h : call.column = column
  · rw [List.find?_cons_of_pos (by simpa using h), if_pos h, Option.bind_some]
  · rw [List.find?_cons_of_neg (by simpa using h), if_neg h, lastSet?]

/-- A column that is not there has come at the end at the earliest. -/
theorem arrival_of_isNone (h : (lastSet? calls column).isNone) :
    arrival calls column = calls.length := by
  rw [arrival, Nat.findGreatest_eq]
  rwa [List.take_length]

theorem arrival_lt (h : (lastSet? calls column).isSome) : arrival calls column < calls.length := by
  refine lt_of_le_of_ne (Nat.findGreatest_le _) fun heq => ?_
  have habsent : (lastSet? (calls.take (arrival calls column)) column).isNone :=
    Nat.findGreatest_spec (P := fun n => (lastSet? (calls.take n) column).isNone)
      (Nat.zero_le _) rfl
  rw [heq, List.take_length, Option.isNone_iff_eq_none] at habsent
  rw [habsent] at h
  exact absurd h (by decide)

/-- A column that is there after a call came by that call or before it. -/
theorem arrival_concat {call : Call} (h : (lastSet? (calls ++ [call]) column).isSome) :
    arrival (calls ++ [call]) column = arrival calls column := by
  have hlast : ¬ (lastSet? ((calls ++ [call]).take (calls.length + 1)) column).isNone := by
    rw [← List.length_concat (a := call), List.concat_eq_append, List.take_length,
      Option.isNone_iff_eq_none]
    exact Option.isSome_iff_ne_none.1 h
  obtain ⟨hle, hthere, hafter⟩ := Nat.findGreatest_eq_iff.1 (rfl : _ = arrival calls column)
  rw [arrival, List.length_append, List.length_singleton, Nat.findGreatest_of_not hlast,
    Nat.findGreatest_eq_iff]
  -- the calls before this one are the same
  refine ⟨hle, fun hne => ?_, fun n hlt hn => ?_⟩
  · rw [List.take_append_of_le_length hle]
    exact hthere hne
  · rw [List.take_append_of_le_length hn]
    exact hafter hlt hn

/-! ### All calls -/

namespace Ordered

theorem empty : Ordered [] Record.empty where
  distinct := .nil
  value _ := rfl
  order := .nil

/-- One call more. -/
theorem concat (h : Ordered calls r) (call : Call) : Ordered (calls ++ [call]) (call.run r).2 := by
  have hvalue (column : String) :
      (call.run r).2.get? column = lastSet? (calls ++ [call]) column := by
    rw [call.get?_run h.distinct, lastSet?_concat, h.value]
  have harrival : ∀ column ∈ (call.run r).2.columns,
      arrival (calls ++ [call]) column = arrival calls column := by
    intro column hcolumn
    rw [mem_columns_iff, hvalue] at hcolumn
    exact arrival_concat hcolumn
  have hbefore : (call.run r).2.columns.Pairwise fun a b => arrival calls a < arrival calls b := by
    rcases call.columns_run h.distinct with hsublist | ⟨hnone, hcolumns⟩
    · exact h.order.sublist hsublist
    · -- the column that came has all others before it
      rw [hcolumns, List.pairwise_append]
      refine ⟨h.order, List.pairwise_singleton _ _, fun column hcolumn new hnew => ?_⟩
      obtain rfl := List.mem_singleton.1 hnew
      rw [mem_columns_iff, h.value] at hcolumn
      have habsent : (lastSet? calls call.column).isNone := by
        rw [← h.value, hnone]
        rfl
      rw [arrival_of_isNone habsent]
      exact arrival_lt hcolumn
  refine ⟨call.nodup_columns_run h.distinct, hvalue, ?_⟩
  refine hbefore.imp_of_mem fun ha hb hlt => ?_
  rwa [harrival _ ha, harrival _ hb]

end Ordered

theorem ordered_after (calls : List Call) : Ordered calls (after calls) := by
  induction calls using List.reverseRecOn with
  | nil => exact .empty
  | append_singleton calls call ih =>
    have hafter : after (calls ++ [call]) = (call.run (after calls)).2 := by
      rw [after, List.foldl_append, List.foldl_cons, List.foldl_nil, ← after]
    rw [hafter]
    exact ih.concat call

/-! ### Ways to look at a record -/

theorem intoJson_eq (r : Record) : r.intoJson = r.toJson := by
  rw [intoJson, toJson, Json.ofFields, List.foldl_map]

/-- Of distinct names each stands once in the document, with the document of its value. -/
theorem exists_toJson_of_nodup (h : r.columns.Nodup) : ∃ fields, r.toJson = .object fields ∧
    (fields.map (·.1)).Perm r.columns ∧
      ∀ column, Json.field? column fields = (r.get? column).map Value.toJson := by
  obtain ⟨fields, hobject, hsorted, hfields⟩ :=
    Json.field?_ofFields (r.entries.map fun entry => (entry.1, entry.2.toJson))
  have hfound (column : String) :
      Json.field? column fields = (r.get? column).map Value.toJson := by
    rw [hfields, ← List.map_reverse, OrderedMap.get?_map, OrderedMap.get?_reverse h]
    rfl
  refine ⟨fields, hobject, ?_, hfound⟩
  refine (List.perm_ext_iff_of_nodup (Json.nodup_names hsorted) h).2 fun column => ?_
  rw [mem_columns_iff, ← Option.isSome_map (f := Value.toJson), ← hfound, Option.isSome_iff_exists]
  simp only [Json.field?_eq_some_iff hsorted, List.mem_map, Prod.exists, exists_and_right,
    exists_eq_right]

theorem firstValue?_eq (r : Record) : r.firstValue? = r.columns.head?.bind r.get? := by
  obtain ⟨entries⟩ := r
  cases entries with
  | nil => rfl
  | cons entry rest => exact (if_pos rfl : OrderedMap.get? entry.1 (entry :: rest) = _).symm

/-- Names that are distinct are all it takes. -/
theorem coherent_of_nodup (h : r.columns.Nodup) : r.Coherent where
  distinct := h
  entries := List.zip_of_prod rfl rfl
  values := by
    rw [values, List.map_map]
    exact (OrderedMap.map_get?_keys h).symm
  contains column := OrderedMap.contains_iff
  size := (List.length_map _).symm
  isEmpty := List.isEmpty_map.symm
  firstValue := r.firstValue?_eq
  collected := r.ofEntries_entries_iff.2 h
  intoJson := r.intoJson_eq
  toJson := exists_toJson_of_nodup h

/-! ### Maps in the order of insertion -/

/-- Collecting pairs sets one after the other. -/
theorem ofEntries_eq_after (pairs : List (String × Value)) :
    ofEntries pairs = after (pairs.map fun pair => .insert pair.1 pair.2) := by
  have hrun : ∀ (r : Record) (pair : String × Value),
      r.insert pair.1 pair.2 = ((Call.insert pair.1 pair.2).run r).2 := fun r pair =>
    ((Call.insert pair.1 pair.2).run_snd r).symm
  rw [ofEntries, after, List.foldl_map]
  exact List.foldl_ext _ _ _ fun r pair _ => hrun r pair

theorem entries_insert (h : r.columns.Nodup) (column : String) (value : Value) :
    (r.insert column value).entries =
      if column ∈ r.columns then
        r.entries.map fun entry => if entry.1 = column then (column, value) else entry
      else r.entries ++ [(column, value)] := by
  split
  · next hmem => exact OrderedMap.insert_of_mem h hmem value
  · next hmem => exact OrderedMap.insert_of_not_mem hmem value

/-- Records are maps in the order of insertion. After any calls on the record without columns the
names are distinct, every column has the value that was last set since it was last removed, and
the columns stand in the order in which they came; all ways to look at the record tell the same.
Setting a column returns the value that it replaces, keeps the place of a column that is there and
adds a new one at the end. Removing a column returns its value and keeps the order of the others.
Records that are collected from pairs or made of an object come from setting one column after the
other. -/
theorem after_insertionOrdered :
    (∀ calls, Ordered calls (after calls) ∧ (after calls).Coherent) ∧
    (∀ calls column value,
      ((after calls).getThenInsert? column value).1 = lastSet? calls column ∧
      ((after calls).getThenInsert? column value).2 = (after calls).insert column value ∧
      ((after calls).insert column value).entries =
        if column ∈ (after calls).columns then
          (after calls).entries.map fun entry =>
            if entry.1 = column then (column, value) else entry
        else (after calls).entries ++ [(column, value)]) ∧
    (∀ calls column,
      ((after calls).getThenErase? column).1 = lastSet? calls column ∧
      ((after calls).getThenErase? column).2.entries =
        (after calls).entries.filter (·.1 ≠ column)) ∧
    (∀ pairs, ofEntries pairs = after (pairs.map fun pair => .insert pair.1 pair.2)) ∧
    (∀ fields, ofJson (.object fields) =
      .ok (after (fields.map fun field => .insert field.1 (Value.ofJson field.2)))) := by
  refine ⟨fun calls => ?_, fun calls column value => ?_, fun calls column => ?_,
    ofEntries_eq_after, fun fields => ?_⟩
  · have hordered := ordered_after calls
    exact ⟨hordered, coherent_of_nodup hordered.distinct⟩
  · have hordered := ordered_after calls
    rw [getThenInsert?_eq]
    exact ⟨hordered.value column, rfl, entries_insert hordered.distinct column value⟩
  · have hordered := ordered_after calls
    rw [getThenErase?_eq]
    exact ⟨hordered.value column, OrderedMap.erase_eq_filter hordered.distinct column⟩
  · rw [ofJson, ofEntries_eq_after, List.map_map]
    rfl

/-- A column that is set again keeps its place, but not after it was removed. -/
example : (after [.set "id" .null, .set "name" .null, .set "id" (.bool true)]).columns =
      ["id", "name"] ∧
    (after [.set "id" .null, .set "name" .null, .remove "id", .set "id" .null]).columns =
      ["name", "id"] := ⟨rfl, rfl⟩

end PgToolkit.Record
