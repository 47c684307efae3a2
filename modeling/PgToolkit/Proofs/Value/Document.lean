import Mathlib.Tactic.TFAE
import PgToolkit.Proofs.Number.Rounding
import PgToolkit.Proofs.Record.Row

/-!
# Documents taken as values

A document that is taken as a value gives the same document back, with one exception: an integer
beyond the words with sign becomes the nearest number in double precision. Inside an object even
such an integer is kept, because objects stay documents. The record of an object takes the fields of
the object as values of their own, so in it the exception is one level closer.
-/

namespace PgToolkit

open Number

/-! ### Numbers -/

namespace JsonNumber

/-- A number that documents hold: words below zero have a sign and others do not, and a number in
double precision is finite. -/
def Genuine : JsonNumber → Prop
  | .natural _ => True
  | .negative i => i.toInt < 0
  | .float x => x.isFinite = true

/-- A number that values keep: all but the natural numbers that are no words with sign. -/
def FitsWord : JsonNumber → Prop
  | .natural n => n.toNat < 0x8000000000000000
  | _ => True

/-- What is left of a number that was taken as a value. -/
def rounded : JsonNumber → JsonNumber
  | .natural n =>
    if n.toNat < 0x8000000000000000 then .natural n else .float (Binary64.ofInt n.toNat)
  | n => n

variable {n : JsonNumber}

theorem rounded_of_fitsWord (h : n.FitsWord) : n.rounded = n := by
  cases n with
  | natural n => exact if_pos h
  | _ => rfl

/-- A number that was rounded is of another kind than before. -/
theorem fitsWord_of_same (h : n.rounded.same n = true) : n.FitsWord := by
  cases n with
  | natural n =>
    by_contra hlarge
    have hrounded : (natural n).rounded = .float (Binary64.ofInt n.toNat) := if_neg hlarge
    rw [hrounded] at h
    exact Bool.false_ne_true h
  | _ => trivial

theorem same_self (h : n.Genuine) : n.same n = true := by
  cases n with
  | natural n => exact beq_self_eq_true n
  | negative i => exact beq_self_eq_true i
  | float x =>
    rw [Genuine] at h
    simp [same, Binary64.eq, Binary64.isNaN, h]

theorem ofInt64_ofNat {n : UInt64} (h : n.toNat < 0x8000000000000000) :
    ofInt64 (Int64.ofNat n.toNat) = .natural n := by
  have hword : (Int64.ofNat n.toNat).toInt = n.toNat := Int64.toInt_ofNat_of_lt h
  rw [ofInt64, hword, if_neg (by omega), Int.toNat_natCast, UInt64.ofNat_toNat]

end JsonNumber

/-! ### Documents -/

namespace Json

/-- A document that programs hold, nested to any depth: the names of every object stand once each
and in order. -/
def Genuine (j : Json) : Prop := ∃ levels, j.Within JsonNumber.Genuine levels

mutual

/-- The numbers of a document that stand in none of its objects. -/
def bareNumbers : Json → List JsonNumber
  | .number n => [n]
  | .array items => itemBareNumbers items
  | _ => []

/-- The numbers of the items of an array that stand in no object. -/
def itemBareNumbers : List Json → List JsonNumber
  | [] => []
  | item :: rest => bareNumbers item ++ itemBareNumbers rest

end

/-- The numbers that stand in no object are kept. -/
def FitsWords (j : Json) : Prop := ∀ n ∈ j.bareNumbers, n.FitsWord

mutual

/-- What is left of a document that was taken as a value. -/
def rounded : Json → Json
  | .number n => .number n.rounded
  | .array items => .array (itemsRounded items)
  | j => j

/-- What is left of the items of an array. -/
def itemsRounded : List Json → List Json
  | [] => []
  | item :: rest => rounded item :: itemsRounded rest

end

/-- What is left of the fields of an object that was taken as a record. -/
def fieldsRounded (fields : List (String × Json)) : List (String × Json) :=
  fields.map fun field => (field.1, field.2.rounded)

mutual

theorem rounded_of_fitsWords {j : Json} (h : j.FitsWords) : j.rounded = j := by
  match j, h with
  | .null, _ | .bool _, _ | .string _, _ | .object _, _ => rfl
  | .number n, h =>
    rw [FitsWords, bareNumbers, List.forall_mem_singleton] at h
    rw [rounded, JsonNumber.rounded_of_fitsWord h]
  | .array items, h =>
    rw [FitsWords, bareNumbers] at h
    rw [rounded, itemsRounded_of_fitsWords h]

theorem itemsRounded_of_fitsWords {items : List Json}
    (h : ∀ n ∈ itemBareNumbers items, n.FitsWord) : itemsRounded items = items := by
  match items, h with
  | [], _ => rw [itemsRounded]
  | item :: rest, h =>
    rw [itemBareNumbers, List.forall_mem_append] at h
    rw [itemsRounded, rounded_of_fitsWords h.1, itemsRounded_of_fitsWords h.2]

end

mutual

theorem fitsWords_of_same {j : Json} (h : j.rounded.same j = true) : j.FitsWords := by
  match j, h with
  | .null, _ | .bool _, _ | .string _, _ | .object _, _ => exact List.forall_mem_nil _
  | .number n, h =>
    rw [rounded, same] at h
    rw [FitsWords, bareNumbers, List.forall_mem_singleton]
    exact JsonNumber.fitsWord_of_same h
  | .array items, h =>
    rw [rounded, same] at h
    rw [FitsWords, bareNumbers]
    exact itemsFitWords_of_same h

theorem itemsFitWords_of_same {items : List Json}
    (h : sameItems (itemsRounded items) items = true) :
    ∀ n ∈ itemBareNumbers items, n.FitsWord := by
  match items, h with
  | [], _ => exact List.forall_mem_nil _
  | item :: rest, h =>
    rw [itemsRounded, sameItems, Bool.and_eq_true] at h
    rw [itemBareNumbers, List.forall_mem_append]
    exact ⟨fitsWords_of_same h.1, itemsFitWords_of_same h.2⟩

end

theorem fieldsRounded_of_fitsWords {fields : List (String × Json)}
    (h : ∀ field ∈ fields, field.2.FitsWords) : fieldsRounded fields = fields := by
  have hfields : ∀ field ∈ fields, (field.1, field.2.rounded) = field := fun field hfield =>
    congrArg (Prod.mk field.1) (rounded_of_fitsWords (h field hfield))
  rw [fieldsRounded, List.map_congr_left hfields, List.map_id']

theorem fieldsFitWords_of_same {fields : List (String × Json)}
    (h : sameFields (fieldsRounded fields) fields = true) :
    ∀ field ∈ fields, field.2.FitsWords := by
  induction fields with
  | nil => exact List.forall_mem_nil _
  | cons field rest ih =>
    obtain ⟨name, value⟩ := field
    rw [fieldsRounded, List.map_cons, sameFields, beq_self_eq_true, Bool.true_and,
      Bool.and_eq_true] at h
    exact List.forall_mem_cons.2 ⟨fitsWords_of_same h.1, ih h.2⟩

mutual

theorem same_self {levels : Nat} {j : Json} (h : j.Within JsonNumber.Genuine levels) :
    j.same j = true := by
  match j, h with
  | .null, _ => rw [same]
  | .bool b, _ => rw [same, beq_self_eq_true]
  | .string s, _ => rw [same, beq_self_eq_true]
  | .number n, h =>
    rw [Within] at h
    rw [same, JsonNumber.same_self h]
  | .array items, h =>
    rw [Within] at h
    rw [same, sameItems_self h.2]
  | .object fields, h =>
    rw [Within] at h
    rw [same, sameFields_self h.2.2]

theorem sameItems_self {levels : Nat} {items : List Json}
    (h : WithinItems JsonNumber.Genuine levels items) : sameItems items items = true := by
  match items, h with
  | [], _ => rw [sameItems]
  | item :: rest, h =>
    rw [WithinItems] at h
    rw [sameItems, same_self h.1, sameItems_self h.2, Bool.and_self]

theorem sameFields_self {levels : Nat} {fields : List (String × Json)}
    (h : WithinFields JsonNumber.Genuine levels fields) : sameFields fields fields = true := by
  match fields, h with
  | [], _ => rw [sameFields]
  | (name, value) :: rest, h =>
    rw [WithinFields] at h
    rw [sameFields, beq_self_eq_true, same_self h.1, sameFields_self h.2, Bool.and_self,
      Bool.and_self]

end

end Json

/-! ### Values -/

namespace Value

open Json

theorem toJson_ofJson_number {n : JsonNumber} (h : n.Genuine) :
    (ofJson (.number n)).toJson = .number n.rounded := by
  cases n with
  | natural n =>
    by_cases hword : n.toNat < 0x8000000000000000
    · have hread : (JsonNumber.natural n).toInt64? = some (Int64.ofNat n.toNat) := if_pos hword
      rw [ofJson, hread, toJson, JsonNumber.ofInt64_ofNat hword, JsonNumber.rounded, if_pos hword]
    · have hread : (JsonNumber.natural n).toInt64? = none := if_neg hword
      have hlog : n.toNat.log2 = 63 :=
        (Nat.log2_eq_iff (by omega)).2 ⟨Nat.not_lt.1 hword, n.toNat_lt⟩
      have hfinite := Binary64.isFinite_ofInt hlog
      rw [ofJson, hread, toJson, JsonNumber.rounded, if_neg hword]
      exact if_pos hfinite
  | negative i =>
    rw [JsonNumber.Genuine] at h
    rw [ofJson, JsonNumber.toInt64?, toJson, JsonNumber.ofInt64, if_pos h]
    rfl
  | float x => exact if_pos h

mutual

/-- A value of a document has that document, up to the numbers that are rounded. -/
theorem toJson_ofJson {levels : Nat} {j : Json} (h : j.Within JsonNumber.Genuine levels) :
    (ofJson j).toJson = j.rounded := by
  match j, h with
  | .null, _ | .bool _, _ | .string _, _ | .object _, _ => rfl
  | .number n, h =>
    rw [Within] at h
    exact toJson_ofJson_number h
  | .array items, h =>
    rw [Within] at h
    rw [ofJson, toJson, itemsToJson_itemsOfJson h.2, rounded]

theorem itemsToJson_itemsOfJson {levels : Nat} {items : List Json}
    (h : WithinItems JsonNumber.Genuine levels items) :
    itemsToJson (itemsOfJson items) = itemsRounded items := by
  match items, h with
  | [], _ => rfl
  | item :: rest, h =>
    rw [WithinItems] at h
    rw [itemsOfJson, itemsToJson, toJson_ofJson h.1, itemsToJson_itemsOfJson h.2, itemsRounded]

end

/-- A document survives as a value exactly if its numbers fit, compared in either way. -/
theorem toJson_ofJson_tfae {levels : Nat} {j : Json} (h : j.Within JsonNumber.Genuine levels) :
    [j.FitsWords, (ofJson j).toJson = j, (ofJson j).toJson.same j = true].TFAE := by
  rw [toJson_ofJson h]
  tfae_have 1 → 2 := rounded_of_fitsWords
  tfae_have 2 → 3 := by
    intro heq
    rw [heq, same_self h]
  tfae_have 3 → 1 := fitsWords_of_same
  tfae_finish

end Value

/-! ### Records -/

namespace Record

open Json

variable {levels : Nat} {fields : List (String × Json)}

/-- The record of an object has its fields as columns, in order. -/
theorem ofJson_object (h : fields.Pairwise (·.1 < ·.1)) :
    ofJson (.object fields) =
      .ok ⟨fields.map fun field => (field.1, Value.ofJson field.2)⟩ := by
  have hkeys : OrderedMap.keys (fields.map fun field => (field.1, Value.ofJson field.2)) =
      OrderedMap.keys fields := by
    rw [OrderedMap.keys, OrderedMap.keys, List.map_map]
    rfl
  have hnodup : (OrderedMap.keys fields).Nodup := nodup_names h
  have hentries : (ofEntries (fields.map fun field => (field.1, Value.ofJson field.2))).entries =
      fields.map fun field => (field.1, Value.ofJson field.2) := by
    rw [entries_ofEntries, OrderedMap.insertAll_of_nodup (by rwa [List.nil_append, hkeys]),
      List.nil_append]
  exact congrArg Except.ok (congrArg Record.mk hentries)

/-- The document of the record of an object has the fields of the object, each up to the numbers
that are rounded. -/
theorem toJson_of_ofJson (h : (Json.object fields).Within JsonNumber.Genuine levels) :
    toJson ⟨fields.map fun field => (field.1, Value.ofJson field.2)⟩ =
      .object (fieldsRounded fields) := by
  rw [Within] at h
  obtain ⟨-, hsorted, hfields⟩ := h
  have hvalues : (fields.map fun field => (field.1, Value.ofJson field.2)).map
      (fun entry => (entry.1, entry.2.toJson)) = fieldsRounded fields := by
    rw [List.map_map]
    refine List.map_congr_left fun field hfield => ?_
    exact congrArg (Prod.mk field.1) (Value.toJson_ofJson (withinFields_iff.1 hfields field hfield))
  have hrounded : (fieldsRounded fields).Pairwise (·.1 < ·.1) := List.pairwise_map.2 hsorted
  rw [toJson, hvalues, ofFields_of_pairwise hrounded]

/-- An object survives as a record exactly if the numbers of its fields fit, compared in either
way. -/
theorem toJson_of_ofJson_tfae {levels : Nat} {fields : List (String × Json)}
    (h : (Json.object fields).Within JsonNumber.Genuine levels) {r : Record}
    (hr : r.toJson = .object (fieldsRounded fields)) :
    [∀ field ∈ fields, field.2.FitsWords, r.toJson = .object fields,
      r.toJson.same (.object fields) = true].TFAE := by
  rw [hr]
  tfae_have 1 → 2 := by
    intro hfits
    rw [fieldsRounded_of_fitsWords hfits]
  tfae_have 2 → 3 := by
    intro heq
    rw [heq, same_self h]
  tfae_have 3 → 1 := by
    intro hsame
    rw [same] at hsame
    exact fieldsFitWords_of_same hsame
  tfae_finish

end Record

/-! ### Survival -/

namespace Value

/-- A document that is taken as a value gives back the same document, exactly or as programs
compare documents, if and only if every natural number outside its objects is a word with sign;
larger ones become the nearest numbers in double precision, and nothing else changes. An object is
always taken as a record, whose document is the same object if and only if this holds for each of
its fields. -/
theorem ofJson_survives (j : Json) (h : j.Genuine) :
    ((ofJson j).toJson = j.rounded ∧
      [j.FitsWords, (ofJson j).toJson = j, (ofJson j).toJson.same j = true].TFAE) ∧
    ∀ fields, j = .object fields →
      ∃ r, Record.ofJson j = .ok r ∧
        r.toJson = .object (Json.fieldsRounded fields) ∧
        [∀ field ∈ fields, field.2.FitsWords, r.toJson = j, r.toJson.same j = true].TFAE := by
  obtain ⟨levels, hwithin⟩ := h
  refine ⟨⟨toJson_ofJson hwithin, toJson_ofJson_tfae hwithin⟩, ?_⟩
  rintro fields rfl
  have hsorted : fields.Pairwise (·.1 < ·.1) := by
    rw [Json.Within] at hwithin
    exact hwithin.2.1
  have hdocument := Record.toJson_of_ofJson hwithin
  exact ⟨_, Record.ofJson_object hsorted, hdocument,
    Record.toJson_of_ofJson_tfae hwithin hdocument⟩

/-- The largest and the smallest word with sign, and within an object the largest word without. -/
def limits : Json :=
  .array [.number (.natural 9223372036854775807), .number (.negative (-9223372036854775808)),
    .object [("id", .number (.natural 18446744073709551615))]]

theorem ofJson_survives_limits :
    (limits.Genuine ∧ (ofJson limits).toJson = limits) ∧
    (Json.object [("limits", limits)]).Genuine ∧
      ∃ r, Record.ofJson (.object [("limits", limits)]) = .ok r ∧
        r.toJson = .object [("limits", limits)] := by
  have hlimits : limits.Genuine := ⟨3, by
    simp [limits, Json.Within, Json.WithinItems, Json.WithinFields, JsonNumber.Genuine]⟩
  have hobject : (Json.object [("limits", limits)]).Genuine := ⟨4, by
    simp [limits, Json.Within, Json.WithinItems, Json.WithinFields, JsonNumber.Genuine]⟩
  have hfits : limits.FitsWords := by
    simp [limits, Json.FitsWords, Json.bareNumbers, Json.itemBareNumbers, JsonNumber.FitsWord]
  obtain ⟨⟨-, hvalue⟩, -⟩ := ofJson_survives limits hlimits
  obtain ⟨r, hr, -, hrecord⟩ :=
    (ofJson_survives (.object [("limits", limits)]) hobject).2 _ rfl
  have hfields : ∀ field ∈ [("limits", limits)], field.2.FitsWords := by
    simpa using hfits
  exact ⟨⟨hlimits, (hvalue.out 0 1).1 hfits⟩, hobject, r, hr, (hrecord.out 0 1).1 hfields⟩

/-- The largest word without sign is rounded up to a power of two, as a value and in a record. -/
theorem ofJson_rounds_largest :
    (Json.number (.natural 18446744073709551615)).Genuine ∧
      (ofJson (.number (.natural 18446744073709551615))).toJson =
        .number (.float ⟨0x43f0000000000000⟩) ∧
      (ofJson (.number (.natural 18446744073709551615))).toJson.same
        (.number (.natural 18446744073709551615)) = false ∧
      (Record.ofJson (.object [("id", .number (.natural 18446744073709551615))])).map
          Record.toJson =
        .ok (.object [("id", .number (.float ⟨0x43f0000000000000⟩))]) := by
  have hnumber : (JsonNumber.natural 18446744073709551615).Genuine := trivial
  have hobject : (Json.object [("id", .number (.natural 18446744073709551615))]).Within
      JsonNumber.Genuine 2 := by
    simp [Json.Within, Json.WithinFields, JsonNumber.Genuine]
  have hrounded : (Json.number (.natural 18446744073709551615)).rounded =
      .number (.float ⟨0x43f0000000000000⟩) := by
    rw [Json.rounded, Json.number.injEq]
    decide +kernel
  have hvalue : (ofJson (.number (.natural 18446744073709551615))).toJson =
      .number (.float ⟨0x43f0000000000000⟩) :=
    (toJson_ofJson_number hnumber).trans hrounded
  have hrecord : Record.toJson ⟨[("id", ofJson (.number (.natural 18446744073709551615)))]⟩ =
      .object [("id", (Json.number (.natural 18446744073709551615)).rounded)] :=
    Record.toJson_of_ofJson hobject
  rw [hrounded] at hrecord
  refine ⟨⟨1, hnumber⟩, hvalue, ?_, ?_⟩
  · rw [hvalue]
    rfl
  · rw [Record.ofJson_object (List.pairwise_singleton _ _)]
    exact congrArg Except.ok hrecord

end Value

end PgToolkit
