import PgToolkit.Proofs.Json.Document

/-!
# Documents that were read

What a reader accepts it gives in order: names stand once each, in their order, the nesting stays
within the levels, and negative integers are below zero. Such a document is read back from its own
text if only its numbers in double precision are.
-/

namespace PgToolkit

open Number

-- A power is the core library's, also where a general one is in scope.
attribute [local instance (high)] instPowNat

namespace JsonNumber

/-- A number that is not one of another kind: integers from zero on have no sign. -/
def Proper : JsonNumber → Prop
  | .negative i => i.toInt < 0
  | _ => True

end JsonNumber

namespace Json

/-! ### Numbers -/

theorem proper_ofSignificand (negative : Bool) (significand : Nat) :
    (ofSignificand negative significand).Proper := by
  unfold ofSignificand
  split
  · trivial
  · split
    · trivial
    · next hrange =>
      have hsize : Int64.size = 18446744073709551616 := rfl
      rw [JsonNumber.Proper, Int64.toInt_ofInt, hsize, Int.bmod_eq_of_le (by omega) (by omega)]
      omega

theorem proper_of_finishFloat {negative : Bool} {significand : Nat} {exponent : Int}
    {text rest : List Char} {n : JsonNumber}
    (h : finishFloat negative significand exponent text = some (n, rest)) : n.Proper := by
  rw [finishFloat_eq] at h
  obtain ⟨⟨written, tail⟩, -, h⟩ := Option.bind_eq_some_iff.1 h
  obtain ⟨number, hnumber, h⟩ := Option.map_eq_some_iff.1 h
  obtain ⟨rfl, rfl⟩ := Prod.mk.inj h
  simp only [floatOf] at hnumber
  split at hnumber
  · obtain ⟨x, -, hx⟩ := Option.bind_eq_some_iff.1 hnumber
    obtain rfl := Option.some.inj hx
    trivial
  · split at hnumber
    · cases hnumber
    · obtain rfl := Option.some.inj hnumber
      trivial

theorem proper_of_finishWhole {negative : Bool} {significand dropped : Nat} {text rest : List Char}
    {n : JsonNumber} (h : finishWhole negative significand dropped text = some (n, rest)) :
    n.Proper := by
  unfold finishWhole at h
  split at h
  · split at h
    · cases h
    · exact proper_of_finishFloat h
  · split at h
    · obtain ⟨rfl, -⟩ := Prod.mk.inj (Option.some.inj h)
      exact proper_ofSignificand negative significand
    · exact proper_of_finishFloat h

theorem proper_of_readNumber {text rest : List Char} {n : JsonNumber}
    (h : readNumber text = some (n, rest)) : n.Proper := by
  have hunsigned : ∀ negative text, readUnsigned negative text = some (n, rest) → n.Proper := by
    intro negative text h
    simp only [readUnsigned_eq] at h
    split at h
    · cases h
    · exact proper_of_finishWhole h
  unfold readNumber at h
  split at h
  · exact hunsigned _ _ h
  · exact hunsigned _ _ h

/-! ### Fields -/

theorem mem_of_mem_insertField {name : String} {value : Json} {sorted : List (String × Json)}
    {field : String × Json} (h : field ∈ insertField name value sorted) :
    field = (name, value) ∨ field ∈ sorted := by
  induction sorted with
  | nil => exact .inl (List.mem_singleton.1 h)
  | cons first rest ih =>
    obtain ⟨other, old⟩ := first
    rw [insertField] at h
    split at h
    · exact (List.mem_cons.1 h).imp_right (List.mem_cons_of_mem _)
    · split at h
      · exact List.mem_cons.1 h
      · rcases List.mem_cons.1 h with rfl | h
        · exact .inr List.mem_cons_self
        · exact (ih h).imp_right (List.mem_cons_of_mem _)

theorem pairwise_insertField {sorted : List (String × Json)} (h : sorted.Pairwise (·.1 < ·.1))
    (name : String) (value : Json) : (insertField name value sorted).Pairwise (·.1 < ·.1) := by
  induction sorted with
  | nil => exact List.pairwise_singleton _ _
  | cons first rest ih =>
    obtain ⟨other, old⟩ := first
    obtain ⟨hfirst, hrest⟩ := List.pairwise_cons.1 h
    rw [insertField]
    split
    · next heq =>
      subst heq
      exact List.pairwise_cons.2 ⟨hfirst, hrest⟩
    · next hne =>
      split
      · next hless =>
        refine List.pairwise_cons.2 ⟨fun field hfield => ?_, h⟩
        rcases List.mem_cons.1 hfield with rfl | hfield
        · exact hless
        · exact String.lt_trans hless (hfirst field hfield)
      · next hnless =>
        -- neither equal nor in front: the new name stands behind
        have hless : other < name := String.not_le.1 fun hle =>
          hnless (String.not_le.1 fun hge => hne (String.le_antisymm hle hge))
        refine List.pairwise_cons.2 ⟨fun field hfield => ?_, ih hrest⟩
        rcases mem_of_mem_insertField hfield with rfl | hfield
        · exact hless
        · exact hfirst field hfield

variable {kind : JsonNumber → Prop} {levels steps : Nat} {text rest : List Char}

theorem withinFields_iff {fields : List (String × Json)} :
    WithinFields kind levels fields ↔ ∀ field ∈ fields, Within kind levels field.2 := by
  induction fields with
  | nil => simp [WithinFields]
  | cons field rest ih =>
    obtain ⟨name, value⟩ := field
    rw [WithinFields, ih, List.forall_mem_cons]

theorem within_ofFields {fields : List (String × Json)} (hlevels : 1 < levels)
    (h : WithinFields kind (levels - 1) fields) : Within kind levels (ofFields fields) := by
  have hfold : ∀ rest sorted : List (String × Json), sorted.Pairwise (·.1 < ·.1) →
      (∀ field ∈ sorted ++ rest, Within kind (levels - 1) field.2) →
      let all := rest.foldl (fun sorted field => insertField field.1 field.2 sorted) sorted
      all.Pairwise (·.1 < ·.1) ∧ ∀ field ∈ all, Within kind (levels - 1) field.2 := by
    intro rest
    induction rest with
    | nil => intro sorted hsorted hall; exact ⟨hsorted, by simpa using hall⟩
    | cons field rest ih =>
      intro sorted hsorted hall
      obtain ⟨name, value⟩ := field
      refine ih _ (pairwise_insertField hsorted name value) fun field hfield => ?_
      rcases List.mem_append.1 hfield with hfield | hfield
      · rcases mem_of_mem_insertField hfield with rfl | hfield
        · exact hall _ (List.mem_append_right _ List.mem_cons_self)
        · exact hall _ (List.mem_append_left _ hfield)
      · exact hall _ (List.mem_append_right _ (List.mem_cons_of_mem _ hfield))
  obtain ⟨hsorted, hall⟩ := hfold fields [] List.Pairwise.nil (withinFields_iff.1 h)
  rw [ofFields, Within]
  exact ⟨hlevels, hsorted, withinFields_iff.2 hall⟩

/-! ### Documents -/

/-- Documents that are read with `steps` steps are within the levels. -/
def ValuesWithin (steps : Nat) : Prop :=
  ∀ (levels : Nat) (text rest : List Char) (j : Json),
    readValue steps levels text = some (j, rest) → Within JsonNumber.Proper levels j

def ItemsWithin (steps : Nat) : Prop :=
  ∀ (levels : Nat) (text rest : List Char) (items : List Json),
    readItems steps levels text = some (items, rest) → WithinItems JsonNumber.Proper levels items

def FieldsWithin (steps : Nat) : Prop :=
  ∀ (levels : Nat) (text rest : List Char) (fields : List (String × Json)),
    readFields steps levels text = some (fields, rest) →
      WithinFields JsonNumber.Proper levels fields

theorem valuesWithin_succ (hitems : ItemsWithin steps) (hfields : FieldsWithin steps) :
    ValuesWithin (steps + 1) := by
  intro levels text rest j h
  unfold readValue at h
  split at h
  case h_1 | h_2 | h_3 | h_4 =>
    obtain ⟨read, -, h⟩ := Option.map_eq_some_iff.1 h
    obtain ⟨rfl, -⟩ := Prod.mk.inj h
    rw [Within]
    trivial
  · split at h
    · cases h
    · next hlevels =>
      have hless := Nat.lt_of_not_le hlevels
      split at h
      · obtain ⟨rfl, -⟩ := Prod.mk.inj (Option.some.inj h)
        rw [Within, WithinItems]
        exact ⟨hless, trivial⟩
      · obtain ⟨⟨items, tail⟩, hread, h⟩ := Option.map_eq_some_iff.1 h
        obtain ⟨rfl, -⟩ := Prod.mk.inj h
        rw [Within]
        exact ⟨hless, hitems _ _ _ _ hread⟩
  · split at h
    · cases h
    · next hlevels =>
      have hless := Nat.lt_of_not_le hlevels
      split at h
      · obtain ⟨rfl, -⟩ := Prod.mk.inj (Option.some.inj h)
        rw [Within, WithinFields]
        exact ⟨hless, List.Pairwise.nil, trivial⟩
      · obtain ⟨⟨fields, tail⟩, hread, h⟩ := Option.map_eq_some_iff.1 h
        obtain ⟨rfl, -⟩ := Prod.mk.inj h
        exact within_ofFields hless (hfields _ _ _ _ hread)
  · obtain ⟨⟨n, tail⟩, hread, h⟩ := Option.map_eq_some_iff.1 h
    obtain ⟨rfl, -⟩ := Prod.mk.inj h
    rw [Within]
    exact proper_of_readNumber hread

theorem itemsWithin_succ (hvalues : ValuesWithin steps) (hitems : ItemsWithin steps) :
    ItemsWithin (steps + 1) := by
  intro levels text rest items h
  unfold readItems at h
  obtain ⟨⟨item, tail⟩, hitem, h⟩ := Option.bind_eq_some_iff.1 h
  have hfirst := hvalues _ _ _ _ hitem
  simp only at h
  split at h
  · obtain ⟨rfl, -⟩ := Prod.mk.inj (Option.some.inj h)
    simp only [WithinItems, hfirst, and_self]
  · obtain ⟨⟨others, tail'⟩, hothers, h⟩ := Option.bind_eq_some_iff.1 h
    obtain ⟨rfl, -⟩ := Prod.mk.inj (Option.some.inj h)
    rw [WithinItems]
    exact ⟨hfirst, hitems _ _ _ _ hothers⟩
  · cases h

theorem fieldsWithin_succ (hvalues : ValuesWithin steps) (hfields : FieldsWithin steps) :
    FieldsWithin (steps + 1) := by
  intro levels text rest fields h
  unfold readFields at h
  obtain ⟨⟨name, tail⟩, -, h⟩ := Option.bind_eq_some_iff.1 h
  simp only at h
  split at h
  · obtain ⟨⟨value, tail'⟩, hvalue, h⟩ := Option.bind_eq_some_iff.1 h
    have hfirst := hvalues _ _ _ _ hvalue
    simp only at h
    split at h
    · obtain ⟨rfl, -⟩ := Prod.mk.inj (Option.some.inj h)
      simp only [WithinFields, hfirst, and_self]
    · obtain ⟨⟨others, tail''⟩, hothers, h⟩ := Option.bind_eq_some_iff.1 h
      obtain ⟨rfl, -⟩ := Prod.mk.inj (Option.some.inj h)
      rw [WithinFields]
      exact ⟨hfirst, hfields _ _ _ _ hothers⟩
    · cases h
  · cases h

theorem allWithin (steps : Nat) :
    ValuesWithin steps ∧ ItemsWithin steps ∧ FieldsWithin steps := by
  induction steps with
  | zero =>
    refine ⟨fun _ _ _ _ h => ?_, fun _ _ _ _ h => ?_, fun _ _ _ _ h => ?_⟩ <;> cases h
  | succ steps ih =>
    obtain ⟨hvalues, hitems, hfields⟩ := ih
    exact ⟨valuesWithin_succ hitems hfields, itemsWithin_succ hvalues hitems,
      fieldsWithin_succ hvalues hfields⟩

/-- A document that was read is nested less than `maxDepth` deep, and its names are in order. -/
theorem within_of_parse? {text : String} {j : Json} (h : parse? text = some j) :
    j.Within JsonNumber.Proper maxDepth := by
  rw [parse?, parseChars?] at h
  obtain ⟨⟨document, rest⟩, hread, h⟩ := Option.bind_eq_some_iff.1 h
  obtain ⟨-, h⟩ := Option.ite_none_right_eq_some.1 h
  obtain rfl := Option.some.inj h
  exact (allWithin _).1 _ _ _ _ hread

/-! ### Numbers of a document -/

mutual

/-- The numbers of a document. -/
def numbers : Json → List JsonNumber
  | .number n => [n]
  | .array items => itemNumbers items
  | .object fields => fieldNumbers fields
  | _ => []

/-- The numbers of the items of an array. -/
def itemNumbers : List Json → List JsonNumber
  | [] => []
  | item :: rest => numbers item ++ itemNumbers rest

/-- The numbers of the fields of an object. -/
def fieldNumbers : List (String × Json) → List JsonNumber
  | [] => []
  | (_, value) :: rest => numbers value ++ fieldNumbers rest

end

/-- The numbers in double precision of a document are read back from their own texts. -/
def DoublesLegible (j : Json) : Prop :=
  ∀ x, .float x ∈ j.numbers → (JsonNumber.float x).Legible

mutual

theorem Within.mono {kind kind' : JsonNumber → Prop} {levels : Nat} {j : Json}
    (h : Within kind levels j) (himp : ∀ n ∈ j.numbers, kind n → kind' n) :
    Within kind' levels j := by
  match j, h, himp with
  | .null, _, _ | .bool _, _, _ | .string _, _, _ => rw [Within]; trivial
  | .number n, h, himp =>
    rw [Within] at h ⊢
    exact himp n (by rw [numbers]; exact List.mem_singleton_self n) h
  | .array items, h, himp =>
    rw [Within] at h ⊢
    rw [numbers] at himp
    exact ⟨h.1, WithinItems.mono h.2 himp⟩
  | .object fields, h, himp =>
    rw [Within] at h ⊢
    rw [numbers] at himp
    exact ⟨h.1, h.2.1, WithinFields.mono h.2.2 himp⟩

theorem WithinItems.mono {kind kind' : JsonNumber → Prop} {levels : Nat} {items : List Json}
    (h : WithinItems kind levels items) (himp : ∀ n ∈ itemNumbers items, kind n → kind' n) :
    WithinItems kind' levels items := by
  match items, h, himp with
  | [], _, _ => rw [WithinItems]; trivial
  | item :: rest, h, himp =>
    rw [WithinItems] at h ⊢
    rw [itemNumbers] at himp
    exact ⟨h.1.mono fun n hn => himp n (List.mem_append_left _ hn),
      WithinItems.mono h.2 fun n hn => himp n (List.mem_append_right _ hn)⟩

theorem WithinFields.mono {kind kind' : JsonNumber → Prop} {levels : Nat}
    {fields : List (String × Json)} (h : WithinFields kind levels fields)
    (himp : ∀ n ∈ fieldNumbers fields, kind n → kind' n) : WithinFields kind' levels fields := by
  match fields, h, himp with
  | [], _, _ => rw [WithinFields]; trivial
  | (name, value) :: rest, h, himp =>
    rw [WithinFields] at h ⊢
    rw [fieldNumbers] at himp
    exact ⟨h.1.mono fun n hn => himp n (List.mem_append_left _ hn),
      WithinFields.mono h.2 fun n hn => himp n (List.mem_append_right _ hn)⟩

end

/-- A document that was read is read back from its own text when its numbers in double precision
are. -/
theorem legible_of_parse? {text : String} {j : Json} (h : parse? text = some j)
    (hdoubles : DoublesLegible j) : j.Within JsonNumber.Legible maxDepth := by
  refine (within_of_parse? h).mono fun n hn hproper => ?_
  cases n with
  | natural n => trivial
  | negative i => exact hproper
  | float x => exact hdoubles x hn

end Json

end PgToolkit
