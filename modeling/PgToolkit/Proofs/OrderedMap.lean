import Mathlib.Data.List.Dedup
import Mathlib.Data.List.Nodup
import Mathlib.Tactic.Tauto
import PgToolkit.OrderedMap

/-!
# Names and values of ordered maps

An ordered map whose names are distinct is known by its names in order and by the value of each of
them. Every operation is given by what it does to the two.
-/

namespace PgToolkit.OrderedMap

variable {α : Type} {name other : String} {map : List (String × α)}

theorem keys_cons (entry : String × α) (rest : List (String × α)) :
    keys (entry :: rest) = entry.1 :: keys rest := rfl

theorem get?_cons (entry : String × α) (rest : List (String × α)) :
    get? name (entry :: rest) = if entry.1 = name then some entry.2 else get? name rest := rfl

theorem get?_append (map others : List (String × α)) :
    get? name (map ++ others) = (get? name map).or (get? name others) := by
  induction map with
  | nil => rfl
  | cons entry rest ih =>
    rw [List.cons_append, get?_cons, get?_cons, ih]
    split
    · rfl
    · rfl

theorem get?_map {β : Type} (f : α → β) (map : List (String × α)) :
    get? name (map.map fun entry => (entry.1, f entry.2)) = (get? name map).map f := by
  induction map with
  | nil => rfl
  | cons entry rest ih =>
    rw [List.map_cons, get?_cons, get?_cons, ih, apply_ite (Option.map f)]
    rfl

theorem get?_eq_none (h : name ∉ keys map) : get? name map = none := by
  have hcontains : ¬ contains name map = true := fun hmem => h (contains_iff.1 hmem)
  simpa [contains] using hcontains

/-- A map with distinct names is its names with their values. -/
theorem eq_filterMap_keys (h : (keys map).Nodup) :
    map = (keys map).filterMap fun name => (get? name map).map (name, ·) := by
  induction map with
  | nil => rfl
  | cons entry rest ih =>
    rw [keys_cons, List.nodup_cons] at h
    have hrest : (keys rest).filterMap (fun name => (get? name (entry :: rest)).map (name, ·)) =
        (keys rest).filterMap fun name => (get? name rest).map (name, ·) := by
      refine List.filterMap_congr fun name hname => ?_
      have hne : entry.1 ≠ name := by
        rintro rfl
        exact h.1 hname
      rw [get?_cons, if_neg hne]
    rw [keys_cons, List.filterMap_cons_some, hrest, ← ih h.2]
    simp [get?_cons]

/-- Every entry of a map with distinct names is found by its name. -/
theorem get?_eq_some_iff (h : (keys map).Nodup) {value : α} :
    get? name map = some value ↔ (name, value) ∈ map := by
  refine ⟨mem_of_get?, fun hmem => ?_⟩
  induction map with
  | nil => simp at hmem
  | cons entry rest ih =>
    rw [keys_cons, List.nodup_cons] at h
    rcases List.mem_cons.1 hmem with rfl | hmem
    · rw [get?_cons, if_pos rfl]
    · have hne : entry.1 ≠ name := by
        intro heq
        exact h.1 (heq ▸ List.mem_map_of_mem hmem)
      rw [get?_cons, if_neg hne, ih h.2 hmem]

/-- Of distinct names each has the value that stands beside it. -/
theorem map_get?_keys (h : (keys map).Nodup) :
    (keys map).map (get? · map) = map.map fun entry => some entry.2 := by
  rw [keys, List.map_map]
  refine List.map_congr_left fun entry hentry => ?_
  exact (get?_eq_some_iff h).2 hentry

/-- The order of the entries does not matter for what is found. -/
theorem get?_perm {other : List (String × α)} (hperm : map.Perm other) (h : (keys map).Nodup)
    (name : String) : get? name map = get? name other := by
  have hother : (keys other).Nodup := (hperm.map _).nodup_iff.1 h
  refine Option.ext fun value => ?_
  rw [get?_eq_some_iff h, get?_eq_some_iff hother, hperm.mem_iff]

/-- Of distinct names the last value is the first one. -/
theorem get?_reverse (h : (keys map).Nodup) (name : String) :
    get? name map.reverse = get? name map :=
  (get?_perm map.reverse_perm.symm h name).symm

theorem nodup_keys_insert (h : (keys map).Nodup) (value : α) :
    (keys (insert name value map)).Nodup := by
  by_cases hmem : name ∈ keys map
  · rwa [keys_insert_of_mem hmem]
  · rw [keys_insert_of_not_mem hmem]
    exact List.nodup_append_comm.1 (List.nodup_cons.2 ⟨hmem, h⟩)

theorem insert_of_not_mem (h : name ∉ keys map) (value : α) :
    insert name value map = map ++ [(name, value)] := by
  induction map with
  | nil => rfl
  | cons entry rest ih =>
    have hne : entry.1 ≠ name := fun hn => h (by simp [keys_cons, hn])
    have hrest : name ∉ keys rest := fun hmem => h (List.mem_cons_of_mem _ hmem)
    rw [insert, if_neg hne, ih hrest, List.cons_append]

/-- A name that is there keeps its place, and the entries of the others stay. -/
theorem insert_of_mem (h : (keys map).Nodup) (hmem : name ∈ keys map) (value : α) :
    insert name value map =
      map.map fun entry => if entry.1 = name then (name, value) else entry := by
  induction map with
  | nil => simp [keys] at hmem
  | cons entry rest ih =>
    obtain ⟨first, old⟩ := entry
    rw [keys_cons, List.nodup_cons] at h
    by_cases hn : first = name
    · subst hn
      have hother : ∀ entry ∈ rest,
          (if entry.1 = first then (first, value) else entry) = entry := by
        intro entry hentry
        have hne : entry.1 ≠ first := by
          rintro rfl
          exact h.1 (List.mem_map.2 ⟨entry, hentry, rfl⟩)
        exact if_neg hne
      rw [insert, if_pos rfl, List.map_cons, if_pos rfl, List.map_congr_left hother, List.map_id']
    · have hrest : name ∈ keys rest := (List.mem_cons.1 hmem).resolve_left (Ne.symm hn)
      rw [insert, if_neg hn, ih h.2 hrest, List.map_cons, if_neg hn]

theorem getThenInsert?_eq (name : String) (value : α) (map : List (String × α)) :
    getThenInsert? name value map = (get? name map, insert name value map) := by
  induction map with
  | nil => rfl
  | cons entry rest ih =>
    rw [getThenInsert?, insert, get?_cons, ih]
    split
    · rfl
    · rfl

theorem mem_keys_insert {key : String} {value : α} :
    key ∈ keys (insert name value map) ↔ key = name ∨ key ∈ keys map := by
  by_cases hmem : name ∈ keys map
  · rw [keys_insert_of_mem hmem]
    exact ⟨Or.inr, fun hkey => hkey.elim (fun heq => heq ▸ hmem) id⟩
  · rw [keys_insert_of_not_mem hmem, List.mem_append, List.mem_singleton, or_comm]

/-- The entries after a value was set are the new one and those of the other names. -/
theorem mem_insert {entry : String × α} {value : α} (h : entry ∈ insert name value map) :
    entry = (name, value) ∨ entry ∈ map := by
  induction map with
  | nil => exact .inl (by simpa [insert] using h)
  | cons first rest ih =>
    rw [insert] at h
    split at h
    · next heq =>
      rcases List.mem_cons.1 h with rfl | h
      · exact .inl (by rw [heq])
      · exact .inr (List.mem_cons_of_mem _ h)
    · rcases List.mem_cons.1 h with rfl | h
      · exact .inr List.mem_cons_self
      · exact (ih h).imp_right (List.mem_cons_of_mem _)

/-! ### Inserting many values -/

/-- The map after entries were set one after the other. -/
def insertAll (map entries : List (String × α)) : List (String × α) :=
  entries.foldl (fun map entry => insert entry.1 entry.2 map) map

theorem nodup_keys_insertAll (h : (keys map).Nodup) (entries : List (String × α)) :
    (keys (insertAll map entries)).Nodup := by
  induction entries generalizing map with
  | nil => exact h
  | cons entry entries ih => exact ih (nodup_keys_insert h _)

theorem mem_keys_insertAll {entries : List (String × α)} :
    name ∈ keys (insertAll map entries) ↔ name ∈ keys map ∨ name ∈ keys entries := by
  induction entries generalizing map with
  | nil => simp [insertAll, keys]
  | cons entry entries ih =>
    rw [insertAll, List.foldl_cons, ← insertAll, ih, mem_keys_insert, keys_cons, List.mem_cons]
    tauto

/-- After entries were set one after the other the last one of a name is found. -/
theorem get?_insertAll (map entries : List (String × α)) :
    get? name (insertAll map entries) = (get? name entries.reverse).or (get? name map) := by
  induction entries generalizing map with
  | nil => rfl
  | cons entry entries ih =>
    rw [insertAll, List.foldl_cons, ← insertAll, ih, get?_insert, List.reverse_cons, get?_append,
      get?_cons, Option.or_assoc]
    by_cases h : entry.1 = name
    · rw [if_pos h.symm, if_pos h, Option.some_or]
    · rw [if_neg (Ne.symm h), if_neg h]
      rfl

/-- Entries whose names are new and distinct are added behind the others. -/
theorem insertAll_of_nodup {entries : List (String × α)} (h : (keys (map ++ entries)).Nodup) :
    insertAll map entries = map ++ entries := by
  induction entries generalizing map with
  | nil => simp [insertAll]
  | cons entry entries ih =>
    have hnew : entry.1 ∉ keys map := by
      intro hmem
      rw [keys, List.map_append, List.nodup_append] at h
      exact h.2.2 _ hmem _ (by simp) rfl
    have hstep : map ++ entry :: entries = insert entry.1 entry.2 map ++ entries := by
      rw [insert_of_not_mem hnew, List.append_assoc, List.singleton_append]
    rw [hstep] at h ⊢
    exact ih h

/-- A map built from entries has as many of them exactly if their names are distinct. -/
theorem length_insertAll_eq_iff {entries : List (String × α)} :
    (insertAll [] entries).length = entries.length ↔ (keys entries).Nodup := by
  constructor
  · intro hlength
    have hperm : (keys (insertAll [] entries)).Perm (keys entries).dedup := by
      have hnodup : (keys (insertAll [] entries)).Nodup := nodup_keys_insertAll (by simp [keys]) _
      refine (List.perm_ext_iff_of_nodup hnodup (List.nodup_dedup _)).2 fun name => ?_
      rw [mem_keys_insertAll, List.mem_dedup]
      simp [keys]
    have hdedup : (keys entries).dedup.length = (keys entries).length := by
      rw [← hperm.length_eq, keys, List.length_map, hlength, keys, List.length_map]
    exact List.dedup_eq_self.1 ((List.dedup_sublist _).eq_of_length hdedup)
  · intro hnodup
    rw [insertAll_of_nodup (by simpa using hnodup), List.nil_append]

/-! ### Changing values -/

theorem keys_modify (name : String) (change : α → α) (map : List (String × α)) :
    keys (modify name change map) = keys map := by
  induction map with
  | nil => rfl
  | cons entry rest ih =>
    by_cases hn : entry.1 = name
    · simp [modify, keys, hn]
    · simpa [modify, keys, hn] using ih

theorem get?_modify (name other : String) (change : α → α) (map : List (String × α)) :
    get? other (modify name change map) =
      if other = name then (get? name map).map change else get? other map := by
  induction map with
  | nil => simp [modify, get?]
  | cons entry rest ih =>
    by_cases hn : entry.1 = name
    · by_cases ho : other = name
      · simp [modify, get?, hn, ho]
      · have ho' : name ≠ other := fun h => ho h.symm
        simp [modify, get?, hn, ho, ho']
    · by_cases ho : entry.1 = other
      · have ho' : other ≠ name := ho ▸ hn
        simp [modify, get?, ho, ho']
      · simp [modify, get?, hn, ho, ih]

/-- A value that was just set is changed. -/
theorem modify_insert (name : String) (value : α) (change : α → α) (map : List (String × α)) :
    modify name change (insert name value map) = insert name (change value) map := by
  induction map with
  | nil => simp [insert, modify]
  | cons entry rest ih =>
    by_cases hn : entry.1 = name
    · simp [insert, modify, hn]
    · simp [insert, modify, hn, ih]

/-! ### Removing a name -/

theorem keys_erase (h : (keys map).Nodup) (name : String) :
    keys (erase name map) = (keys map).filter (· ≠ name) := by
  induction map with
  | nil => rfl
  | cons entry rest ih =>
    rw [keys_cons, List.nodup_cons] at h
    by_cases hn : entry.1 = name
    · have hall : ∀ other ∈ keys rest, decide (other ≠ name) = true := by
        intro other hother
        simp only [decide_eq_true_eq]
        rintro rfl
        exact h.1 (hn ▸ hother)
      rw [erase, if_pos hn, keys_cons, List.filter_cons_of_neg (by simpa using hn),
        List.filter_eq_self.2 hall]
    · rw [erase, if_neg hn, keys_cons, keys_cons, List.filter_cons_of_pos (by simpa using hn),
        ih h.2]

theorem erase_of_not_mem (h : name ∉ keys map) : erase name map = map := by
  induction map with
  | nil => rfl
  | cons entry rest ih =>
    have hne : entry.1 ≠ name := fun hn => h (by simp [keys_cons, hn])
    have hrest : name ∉ keys rest := fun hmem => h (List.mem_cons_of_mem _ hmem)
    rw [erase, if_neg hne, ih hrest]

theorem getThenErase?_eq (name : String) (map : List (String × α)) :
    getThenErase? name map = (get? name map, erase name map) := by
  induction map with
  | nil => rfl
  | cons entry rest ih =>
    rw [getThenErase?, erase, get?_cons, ih]
    split
    · rfl
    · rfl

theorem mem_of_mem_erase {entry : String × α} (h : entry ∈ erase name map) : entry ∈ map := by
  induction map with
  | nil => simp [erase] at h
  | cons first rest ih =>
    rw [erase] at h
    split at h
    · exact List.mem_cons_of_mem _ h
    · rcases List.mem_cons.1 h with rfl | h
      · exact List.mem_cons_self
      · exact List.mem_cons_of_mem _ (ih h)

/-- The entries of all other names stay. -/
theorem erase_eq_filter (h : (keys map).Nodup) (name : String) :
    erase name map = map.filter (·.1 ≠ name) := by
  induction map with
  | nil => rfl
  | cons entry rest ih =>
    rw [keys_cons, List.nodup_cons] at h
    by_cases hn : entry.1 = name
    · have hnot : name ∉ keys rest := hn ▸ h.1
      have hfilter := ih h.2
      rw [erase_of_not_mem hnot] at hfilter
      rw [erase, if_pos hn, List.filter_cons_of_neg (by simpa using hn), ← hfilter]
    · rw [erase, if_neg hn, List.filter_cons_of_pos (by simpa using hn), ih h.2]

theorem get?_erase (h : (keys map).Nodup) (name other : String) :
    get? other (erase name map) = if other = name then none else get? other map := by
  induction map with
  | nil => simp [erase, get?]
  | cons entry rest ih =>
    rw [keys_cons, List.nodup_cons] at h
    by_cases hn : entry.1 = name
    · rw [erase, if_pos hn, get?_cons]
      by_cases ho : other = name
      · rw [if_pos ho]
        exact get?_eq_none (ho ▸ hn ▸ h.1)
      · rw [if_neg ho, if_neg fun heq => ho (heq.symm.trans hn)]
    · rw [erase, if_neg hn, get?_cons, get?_cons, ih h.2]
      by_cases ho : entry.1 = other
      · rw [if_pos ho, if_neg fun heq => hn (ho.trans heq), if_pos ho]
      · rw [if_neg ho, if_neg ho]

/-! ### Renaming -/

theorem keys_rename (h : (keys map).Nodup) (source target : String) :
    keys (rename source target map) =
      (keys map).map fun name => if name = source then target else name := by
  induction map with
  | nil => rfl
  | cons entry rest ih =>
    rw [keys_cons, List.nodup_cons] at h
    by_cases hn : entry.1 = source
    · have hall : ∀ name ∈ keys rest, (if name = source then target else name) = name := by
        intro name hname
        rw [if_neg]
        rintro rfl
        exact h.1 (hn ▸ hname)
      rw [rename, if_pos hn, keys_cons, keys_cons, List.map_cons, if_pos hn,
        List.map_congr_left hall, List.map_id']
    · rw [rename, if_neg hn, keys_cons, keys_cons, List.map_cons, if_neg hn, ih h.2]

theorem nodup_keys_rename {source target : String} (h : (keys map).Nodup)
    (hfree : target = source ∨ target ∉ keys map) : (keys (rename source target map)).Nodup := by
  rw [keys_rename h]
  refine List.Nodup.map_on (fun name hname other hother heq => ?_) h
  -- only the old name becomes the new one
  by_cases hn : name = source <;> by_cases ho : other = source
  · rw [hn, ho]
  · rw [if_pos hn, if_neg ho] at heq
    rcases hfree with hsame | hnot
    · exact hn.trans (hsame.symm.trans heq)
    · exact absurd (heq ▸ hother) hnot
  · rw [if_neg hn, if_pos ho] at heq
    rcases hfree with hsame | hnot
    · exact heq.trans (hsame.trans ho.symm)
    · exact absurd (heq ▸ hname) hnot
  · rwa [if_neg hn, if_neg ho] at heq

/-- The value goes along with the name, which is free or stays the same. -/
theorem get?_rename {source target : String} (h : (keys map).Nodup)
    (hfree : target = source ∨ target ∉ keys map) (other : String) :
    get? other (rename source target map) =
      if other = target then get? source map
      else if other = source then none else get? other map := by
  induction map with
  | nil => simp [rename, get?]
  | cons entry rest ih =>
    rw [keys_cons, List.nodup_cons] at h
    rw [keys_cons] at hfree
    have hfree' : target = source ∨ target ∉ keys rest :=
      hfree.imp_right fun hnot hmem => hnot (List.mem_cons_of_mem _ hmem)
    by_cases hn : entry.1 = source
    · rw [rename, if_pos hn, get?_cons, get?_cons, if_pos hn, get?_cons]
      by_cases ht : other = target
      · rw [if_pos ht, if_pos ht.symm]
      · rw [if_neg ht, if_neg (Ne.symm ht)]
        by_cases hs : other = source
        · rw [if_pos hs]
          exact get?_eq_none (hs ▸ hn ▸ h.1)
        · rw [if_neg hs, if_neg fun heq => hs (heq.symm.trans hn)]
    · have htarget : entry.1 ≠ target := by
        rintro rfl
        rcases hfree with heq | hnot
        · exact hn heq
        · exact hnot List.mem_cons_self
      rw [rename, if_neg hn, get?_cons, get?_cons, get?_cons, ih h.2 hfree', if_neg hn]
      by_cases ho : entry.1 = other
      · rw [if_pos ho, if_neg (ho ▸ htarget), if_neg (ho ▸ hn), if_pos ho]
      · rw [if_neg ho, if_neg ho]

end PgToolkit.OrderedMap
