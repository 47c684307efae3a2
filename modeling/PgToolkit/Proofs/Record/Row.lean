import PgToolkit.Proofs.Json.Parsed
import PgToolkit.Proofs.OrderedMap
import PgToolkit.Proofs.Outcome
import PgToolkit.Record.Shape
import PgToolkit.Session.Server

/-!
# Records of rows

The record of a row keeps one entry for each of its columns, also when several of them have one
name. Typed access then reads the first column of a name, and the document of the record shows the
last one. They tell the same, and the record is one map, as long as the names are distinct.
-/

namespace PgToolkit

/-! ### Fields of an object -/

namespace Json

variable {name : String}

theorem field?_cons (field : String × Json) (rest : List (String × Json)) :
    field? name (field :: rest) = if field.1 = name then some field.2 else field? name rest := by
  by_cases h : field.1 = name
  · simp [field?, h]
  · simp [field?, h]

theorem field?_insertField (other : String) (value : Json) (fields : List (String × Json)) :
    field? name (insertField other value fields) =
      if other = name then some value else field? name fields := by
  induction fields with
  | nil => rw [insertField, field?_cons]
  | cons field rest ih =>
    obtain ⟨first, old⟩ := field
    rw [insertField]
    split
    · next heq =>
      subst heq
      rw [field?_cons, field?_cons]
      by_cases h : other = name
      · rw [if_pos h, if_pos h]
      · rw [if_neg h, if_neg h, if_neg h]
    split
    · rw [field?_cons]
    · next hne _ =>
      rw [field?_cons, field?_cons, ih]
      by_cases h : first = name
      · rw [if_pos h, if_pos h, if_neg fun heq => hne (heq.trans h.symm)]
      · rw [if_neg h, if_neg h]

/-- The fields of an object stand in the order of their names, and each has the last value that was
given for its name. -/
theorem field?_ofFields (fields : List (String × Json)) : ∃ sorted,
    ofFields fields = .object sorted ∧ sorted.Pairwise (·.1 < ·.1) ∧
      ∀ name, field? name sorted = OrderedMap.get? name fields.reverse := by
  have hfold : ∀ (fields sorted : List (String × Json)), sorted.Pairwise (·.1 < ·.1) →
      let all := fields.foldl (fun sorted field => insertField field.1 field.2 sorted) sorted
      all.Pairwise (·.1 < ·.1) ∧ ∀ name, field? name all =
        (OrderedMap.get? name fields.reverse).or (field? name sorted) := by
    intro fields
    induction fields with
    | nil => exact fun sorted hsorted => ⟨hsorted, fun _ => rfl⟩
    | cons field fields ih =>
      intro sorted hsorted
      obtain ⟨hall, hfields⟩ := ih _ (pairwise_insertField hsorted field.1 field.2)
      refine ⟨hall, fun name => ?_⟩
      rw [List.foldl_cons, hfields, field?_insertField, List.reverse_cons, OrderedMap.get?_append,
        OrderedMap.get?_cons, Option.or_assoc]
      split
      · rfl
      · rfl
  obtain ⟨hsorted, hfields⟩ := hfold fields [] .nil
  refine ⟨_, rfl, hsorted, fun name => ?_⟩
  rw [hfields, field?, List.find?_nil, Option.map_none, Option.or_none]

/-- Fields in the order of their names are found by their names. -/
theorem field?_eq_some_iff {fields : List (String × Json)} (h : fields.Pairwise (·.1 < ·.1))
    {value : Json} : field? name fields = some value ↔ (name, value) ∈ fields := by
  induction fields with
  | nil => simp [field?]
  | cons field rest ih =>
    obtain ⟨hfirst, hrest⟩ := List.pairwise_cons.1 h
    rw [field?_cons, List.mem_cons, ← ih hrest]
    by_cases heq : field.1 = name
    · have hnot : field? name rest ≠ some value := by
        intro hfound
        exact String.lt_irrefl _ (heq ▸ hfirst _ ((ih hrest).1 hfound))
      rw [if_pos heq, or_iff_left hnot, ← heq, Option.some.injEq]
      constructor
      · rintro rfl
        rfl
      · intro hsame
        rw [← hsame]
    · have hne : (name, value) ≠ field := by
        rintro rfl
        exact heq rfl
      rw [if_neg heq, or_iff_right hne]

/-- Names in order stand once each. -/
theorem nodup_names {fields : List (String × Json)} (h : fields.Pairwise (·.1 < ·.1)) :
    (fields.map (·.1)).Nodup := by
  refine List.pairwise_map.2 (h.imp ?_)
  intro field other hless heq
  exact String.lt_irrefl _ (heq ▸ hless)

/-- An object is known by the last value that was given for each name. -/
theorem ofFields_congr {fields others : List (String × Json)}
    (h : ∀ name, OrderedMap.get? name fields.reverse = OrderedMap.get? name others.reverse) :
    ofFields fields = ofFields others := by
  obtain ⟨sorted, hobject, hsorted, hfields⟩ := field?_ofFields fields
  obtain ⟨sorted', hobject', hsorted', hfields'⟩ := field?_ofFields others
  have hmem : ∀ field, field ∈ sorted ↔ field ∈ sorted' := by
    rintro ⟨name, value⟩
    rw [← field?_eq_some_iff hsorted, ← field?_eq_some_iff hsorted', hfields, hfields', h]
  have hnodup {fields : List (String × Json)} (hfields : fields.Pairwise (·.1 < ·.1)) :
      fields.Nodup := by
    refine List.Pairwise.imp ?_ hfields
    rintro field _ hless rfl
    exact String.lt_irrefl _ hless
  have hperm : sorted.Perm sorted' :=
    (List.perm_ext_iff_of_nodup (hnodup hsorted) (hnodup hsorted')).2 hmem
  rw [hobject, hobject', hperm.eq_of_pairwise
    (fun _ _ _ _ hless hgreater => absurd hless (String.lt_asymm hgreater)) hsorted hsorted']

end Json

/-! ### Records -/

namespace Record

theorem entries_ofEntries (pairs : List (String × Value)) :
    (ofEntries pairs).entries = OrderedMap.insertAll [] pairs := by
  have hfold : ∀ (pairs : List (String × Value)) (r : Record),
      (pairs.foldl (fun r pair => r.insert pair.1 pair.2) r).entries =
        OrderedMap.insertAll r.entries pairs := by
    intro pairs
    induction pairs with
    | nil => exact fun _ => rfl
    | cons pair pairs ih => exact fun r => ih _
  exact hfold pairs empty

/-- After the entries of a record were collected the last value of a column is found. -/
theorem get?_ofEntries (pairs : List (String × Value)) (column : String) :
    (ofEntries pairs).get? column = OrderedMap.get? column pairs.reverse := by
  rw [get?, entries_ofEntries, OrderedMap.get?_insertAll, OrderedMap.get?, Option.or_none]

/-- Collecting the entries of a record changes nothing exactly if the names are distinct. -/
theorem ofEntries_entries_iff (r : Record) : ofEntries r.entries = r ↔ r.columns.Nodup := by
  rw [columns, ← OrderedMap.length_insertAll_eq_iff, ← entries_ofEntries]
  constructor
  · intro h
    rw [h]
  · intro h
    have hnodup := OrderedMap.length_insertAll_eq_iff.1 (entries_ofEntries r.entries ▸ h)
    have hentries : (ofEntries r.entries).entries = r.entries := by
      rw [entries_ofEntries, OrderedMap.insertAll_of_nodup (by simpa using hnodup),
        List.nil_append]
    exact congrArg Record.mk hentries

/-- The document of a record shows the last value of every column. -/
theorem field?_toJson (r : Record) : ∃ fields, r.toJson = .object fields ∧ ∀ column,
    Json.field? column fields = (OrderedMap.get? column r.entries.reverse).map Value.toJson := by
  obtain ⟨fields, hobject, -, hfields⟩ :=
    Json.field?_ofFields (r.entries.map fun entry => (entry.1, entry.2.toJson))
  refine ⟨fields, hobject, fun column => ?_⟩
  rw [hfields, ← List.map_reverse, OrderedMap.get?_map]

/-- The last values are not lost when the entries are collected, so the document stays the same. -/
theorem toJson_ofEntries (r : Record) : (ofEntries r.entries).toJson = r.toJson := by
  refine Json.ofFields_congr fun column => ?_
  have hnodup : (OrderedMap.keys (ofEntries r.entries).entries).Nodup := by
    rw [entries_ofEntries]
    exact OrderedMap.nodup_keys_insertAll (by simp [OrderedMap.keys]) _
  have hlast : OrderedMap.get? column (ofEntries r.entries).entries.reverse =
      OrderedMap.get? column r.entries.reverse := by
    rw [OrderedMap.get?_reverse hnodup]
    exact get?_ofEntries r.entries column
  rw [← List.map_reverse, ← List.map_reverse, OrderedMap.get?_map, OrderedMap.get?_map, hlast]

theorem decode_ofEntries (r : Record) (shape : List Field) :
    (ofEntries r.entries).decode shape = r.decode shape := by
  rw [decode, decode, toJson_ofEntries]

end Record

/-! ### Rows -/

namespace Server

variable {columns : List (String × Wire.PgType)} {cells : List (Option (List UInt8))}

/-- The entries of a row are its columns with the values of their cells, in order. -/
theorem forall₂_of_readCells {index : Nat} {entries : List (String × Value)}
    (h : readCells index columns cells = .ok entries) :
    List.Forall₂ (fun source entry => entry.1 = source.1.1 ∧
      Value.ofCell source.1.2 source.2 = .ok entry.2) (columns.zip cells) entries := by
  fun_induction readCells index columns cells generalizing entries with
  | case1 index column type columns cell cells v hcell ih =>
    simp only [bind_eq_ok_iff, pure_eq_ok_iff] at h
    obtain ⟨rest, hrest, rfl⟩ := h
    exact .cons ⟨rfl, hcell⟩ (ih hrest)
  | case2 => cases h
  | case3 columns index cells hshort =>
    obtain rfl := Except.ok.inj h
    cases columns with
    | nil => exact .nil
    | cons column columns =>
      cases cells with
      | nil => exact .nil
      | cons cell cells => exact (hshort _ _ _ _ _ rfl rfl).elim

/-- The record of a row has one entry for each cell. Of the columns with one name typed access
reads the first; the document of the record shows the last, which is also what a shape is read from
and what is found after the entries were collected. The record stays the same then exactly if the
names of its columns are distinct, and in that case access and document agree on all of them. -/
theorem readRow_access {r : Record} (h : readRow columns cells = .ok r) :
    List.Forall₂ (fun source entry => entry.1 = source.1.1 ∧
      Value.ofCell source.1.2 source.2 = .ok entry.2) (columns.zip cells) r.entries ∧
    (∃ fields, r.toJson = .object fields ∧
      (∀ column, Json.field? column fields =
        (OrderedMap.get? column r.entries.reverse).map Value.toJson) ∧
      (r.columns.Nodup → ∀ column, Json.field? column fields =
        (r.get? column).map Value.toJson)) ∧
    (∀ shape, (Record.ofEntries r.entries).decode shape = r.decode shape) ∧
    (∀ column, (Record.ofEntries r.entries).get? column =
      OrderedMap.get? column r.entries.reverse) ∧
    (Record.ofEntries r.entries = r ↔ r.columns.Nodup) := by
  refine ⟨?_, ?_, r.decode_ofEntries, Record.get?_ofEntries r.entries, r.ofEntries_entries_iff⟩
  · rw [readRow, map_eq_ok_iff] at h
    obtain ⟨entries, hentries, rfl⟩ := h
    exact forall₂_of_readCells hentries
  · obtain ⟨fields, hobject, hfields⟩ := r.field?_toJson
    refine ⟨fields, hobject, hfields, fun hnodup column => ?_⟩
    rw [hfields, OrderedMap.get?_reverse hnodup]
    rfl

/-- A row whose columns have distinct names, with a cell that is NULL. -/
theorem readRow_access_distinct :
    readRow [("name", .scalar .text), ("active", .scalar .bool)] [none, some [1]] =
      .ok ⟨[("name", .null), ("active", .bool true)]⟩ ∧
    Record.ofEntries [("name", .null), ("active", .bool true)] =
      ⟨[("name", .null), ("active", .bool true)]⟩ := by
  have hrow : readRow [("name", .scalar .text), ("active", .scalar .bool)] [none, some [1]] =
      .ok ⟨[("name", .null), ("active", .bool true)]⟩ := rfl
  exact ⟨hrow, (readRow_access hrow).2.2.2.2.2 (by decide)⟩

/-- Two columns of one name, as in a join: access reads the first, the document shows the second,
and the first one is lost when the entries are collected. -/
theorem readRow_repeated :
    ∃ r, readRow [("active", .scalar .bool), ("active", .scalar .bool)] [some [1], some [0]] =
        .ok r ∧
      r.get? "active" = some (.bool true) ∧
      r.toJson = .object [("active", .bool false)] ∧
      Record.ofEntries r.entries = ⟨[("active", .bool false)]⟩ ∧
      Record.ofEntries r.entries ≠ r := by
  refine ⟨⟨[("active", .bool true), ("active", .bool false)]⟩, rfl, rfl, rfl, rfl, fun h => ?_⟩
  have hlength := congrArg (fun r : Record => r.entries.length) h
  revert hlength
  decide

end Server

end PgToolkit
