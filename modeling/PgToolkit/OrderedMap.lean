/-!
# Ordered maps

Maps from names to values as lists of pairs that keep the order in which names were added. Records,
the columns of a table under construction and its indexes are such maps.
-/

namespace PgToolkit.OrderedMap

variable {α : Type}

/-- The names of a map, in order. -/
def keys (map : List (String × α)) : List String := map.map (·.1)

/-- Replaces the value of a name in place, or adds the name at the end. -/
def insert (name : String) (value : α) : List (String × α) → List (String × α)
  | [] => [(name, value)]
  | (other, old) :: rest =>
    if other = name then (other, value) :: rest else (other, old) :: insert name value rest

/-- The value of a name; of several entries with that name, the first. -/
def get? (name : String) : List (String × α) → Option α
  | [] => none
  | (other, value) :: rest => if other = name then some value else get? name rest

/-- Removes a name; the others keep their order. -/
def erase (name : String) : List (String × α) → List (String × α)
  | [] => []
  | (other, value) :: rest =>
    if other = name then rest else (other, value) :: erase name rest

/-- Sets a value as `insert` does, and returns the one that it replaces. -/
def getThenInsert? (name : String) (value : α) :
    List (String × α) → Option α × List (String × α)
  | [] => (none, [(name, value)])
  | (other, old) :: rest =>
    if other = name then (some old, (other, value) :: rest)
    else
      let (found?, rest) := getThenInsert? name value rest
      (found?, (other, old) :: rest)

/-- Removes a name as `erase` does, and returns the value that it had. -/
def getThenErase? (name : String) : List (String × α) → Option α × List (String × α)
  | [] => (none, [])
  | (other, value) :: rest =>
    if other = name then (some value, rest)
    else
      let (found?, rest) := getThenErase? name rest
      (found?, (other, value) :: rest)

/-- Changes the value of a name in place. -/
def modify (name : String) (change : α → α) : List (String × α) → List (String × α)
  | [] => []
  | (other, value) :: rest =>
    if other = name then (other, change value) :: rest
    else (other, value) :: modify name change rest

/-- Gives a value another name and keeps its place. -/
def rename (name new : String) : List (String × α) → List (String × α)
  | [] => []
  | (other, value) :: rest =>
    if other = name then (new, value) :: rest else (other, value) :: rename name new rest

def contains (name : String) (map : List (String × α)) : Bool := (get? name map).isSome

theorem contains_iff {name : String} {map : List (String × α)} :
    contains name map = true ↔ name ∈ keys map := by
  induction map with
  | nil => simp [contains, get?, keys]
  | cons entry rest ih =>
    obtain ⟨other, value⟩ := entry
    simp only [contains, keys] at ih
    by_cases h : other = name
    · simp [contains, get?, keys, h]
    · have h' : name ≠ other := fun hn => h hn.symm
      simp only [contains, get?, keys, h, if_false, ih, List.map_cons, List.mem_cons, h', false_or]

/-- A value that is found stands in an entry of its name. -/
theorem mem_of_get? {name : String} {value : α} {map : List (String × α)}
    (h : get? name map = some value) : (name, value) ∈ map := by
  induction map with
  | nil => simp [get?] at h
  | cons entry rest ih =>
    obtain ⟨other, first⟩ := entry
    simp only [get?] at h
    split at h
    · next heq => simp_all
    · exact List.mem_cons_of_mem _ (ih h)

/-- A name that is there keeps its place. -/
theorem keys_insert_of_mem {name : String} {value : α} {map : List (String × α)}
    (h : name ∈ keys map) : keys (insert name value map) = keys map := by
  induction map with
  | nil => simp [keys] at h
  | cons entry rest ih =>
    obtain ⟨other, old⟩ := entry
    by_cases hn : other = name
    · simp [insert, keys, hn]
    · have hmem : name ∈ keys rest := by
        rcases List.mem_cons.1 h with h | h
        · exact absurd h.symm hn
        · exact h
      simpa [insert, keys, hn] using ih hmem

/-- A new name goes to the end. -/
theorem keys_insert_of_not_mem {name : String} {value : α} {map : List (String × α)}
    (h : name ∉ keys map) : keys (insert name value map) = keys map ++ [name] := by
  induction map with
  | nil => rfl
  | cons entry rest ih =>
    obtain ⟨other, old⟩ := entry
    have hn : other ≠ name := fun hn => h (by simp [keys, hn])
    have hrest : name ∉ keys rest := fun hm => h (List.mem_cons_of_mem _ hm)
    simpa [insert, keys, hn] using ih hrest

/-- The value that was set is found; other names are not affected. -/
theorem get?_insert (name other : String) (value : α) (map : List (String × α)) :
    get? other (insert name value map) = if other = name then some value else get? other map := by
  induction map with
  | nil => simp [insert, get?, eq_comm]
  | cons entry rest ih =>
    obtain ⟨key, old⟩ := entry
    by_cases hk : key = name
    · subst hk
      by_cases ho : key = other
      · simp [insert, get?, ho]
      · have ho' : other ≠ key := fun h => ho h.symm
        simp [insert, get?, ho, ho']
    · by_cases ho : key = other
      · subst ho
        simp [insert, get?, hk]
      · simp [insert, get?, hk, ho, ih]

end PgToolkit.OrderedMap
