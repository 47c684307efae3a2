import PgToolkit.Proofs.Outcome
import PgToolkit.Record.Basic

/-!
# Values that are read back

What is written for a target is read back as it was, except where the target can write two things
alike: a document may hold a number that is rounded, and a missing optional value is written as the
NULL that the value itself may be. A value that cannot be read is refused with an error about the
column that it stands in.
-/

namespace PgToolkit.Target

open Number Time

/-- Whatever is written for a target is read back as it was. -/
def RoundTrips (t : Target) : Prop := ∀ x, t.extract (t.inject x) = .ok x

/-- Whether something is written as NULL for a target. -/
def admitsNull : Target → Bool
  | .value | .json | .optional _ => true
  | _ => false

/-- Whether a target holds no document, and nothing optional that is written as NULL when it is
not missing. -/
def isFaithful : Target → Bool
  | .json => false
  | .optional inner => !inner.admitsNull && inner.isFaithful
  | .list inner => inner.isFaithful
  | _ => true

variable {t inner : Target} {v : Value}

theorem inject_ne_null (h : t.admitsNull = false) (x : t.Carrier) : t.inject x ≠ .null := by
  cases t <;> simp [admitsNull, inject] at h ⊢

theorem exists_inject_eq_null (h : t.admitsNull = true) : ∃ x, t.inject x = .null := by
  cases t with
  | value => exact ⟨Value.null, rfl⟩
  | json => exact ⟨Json.null, rfl⟩
  | optional inner => exact ⟨(none : Option inner.Carrier), rfl⟩
  | _ => simp [admitsNull] at h

section Reading

variable {α : Type} {read : Value → Except Error α}

/-- What is not NULL is read as it is without the option. -/
theorem extractOptional_eq_ok_iff (h : v ≠ .null) {x : α} :
    extractOptional read v = .ok (some x) ↔ read v = .ok x := by
  have hread : extractOptional read v = some <$> read v := by
    cases v with
    | null => exact absurd rfl h
    | _ => rfl
  simp [hread, map_eq_ok_iff]

theorem extractList_eq_ok_iff {items : List Value} {xs : List α} :
    extractList read (.array items) = .ok xs ↔
      List.Forall₂ (fun item x => read item = .ok x) items xs :=
  mapM_eq_ok_iff

end Reading

/-- A word of 32 bits is read exactly from the word of 64 bits that is the same number; others are
refused, not truncated. -/
theorem extractInt32_eq_ok_iff {i : Int64} {x : Int32} :
    extractInt32 (.int i) = .ok x ↔ i.toInt = x.toInt := by
  have hlower := x.le_toInt
  have hupper := x.toInt_lt
  have hword : extractInt32 (.int i) =
      if i.toInt < -2 ^ 31 then fail .integerTooSmall
      else if 2 ^ 31 - 1 < i.toInt then fail .integerTooLarge
      else .ok (Int32.ofInt i.toInt) := rfl
  rw [hword]
  split_ifs with hsmall hlarge
  · simp only [fail, reduceCtorEq, false_iff]
    omega
  · simp only [fail, reduceCtorEq, false_iff]
    omega
  · rw [Except.ok.injEq, ← Int32.toInt_inj, Int32.toInt_ofInt_of_le (by omega) (by omega)]

theorem roundTrips_int32 : RoundTrips .int32 := by
  intro (x : Int32)
  have hlower := x.le_toInt
  have hupper := x.toInt_lt
  exact extractInt32_eq_ok_iff.2 (Int64.toInt_ofInt_of_le (by omega) (by omega))

/-- The first natural number that is no word with sign is read back as a double. -/
theorem not_roundTrips_json : ¬ RoundTrips .json := by
  intro h
  have hback : (Value.ofJson (.number (.natural 0x8000000000000000))).toJson =
      .number (.natural 0x8000000000000000) :=
    Except.ok.inj (h (Json.number (.natural 0x8000000000000000)))
  have hword : (JsonNumber.natural 0x8000000000000000).toInt64? = none := by decide
  rw [Value.ofJson, hword, Value.toJson, Json.ofBinary64] at hback
  split_ifs at hback
  all_goals simp at hback

theorem roundTrips_list_iff : RoundTrips (.list inner) ↔ RoundTrips inner := by
  constructor
  · intro h x
    have hlist : extractList inner.extract (.array [inner.inject x]) = .ok [x] := h [x]
    simpa [extractList_eq_ok_iff] using hlist
  · intro h (xs : List inner.Carrier)
    have hitems : List.Forall₂ (fun item x => inner.extract item = .ok x)
        (xs.map inner.inject) xs :=
      List.forall₂_map_left_iff.2 (List.forall₂_same.2 fun x _ => h x)
    exact extractList_eq_ok_iff.2 hitems

/-- An option over what is never NULL loses nothing; over anything else, NULL is read as missing. -/
theorem roundTrips_optional_iff :
    RoundTrips (.optional inner) ↔ inner.admitsNull = false ∧ RoundTrips inner := by
  constructor
  · intro h
    have hsome : ∀ x, extractOptional inner.extract (inner.inject x) = .ok (some x) :=
      fun x => h (some x)
    have hnull : inner.admitsNull = false := by
      rw [← Bool.not_eq_true]
      intro hadmits
      -- what is written as NULL is read as missing
      obtain ⟨x, hx⟩ := exists_inject_eq_null hadmits
      have hmissing := hsome x
      simp [hx, extractOptional] at hmissing
    exact ⟨hnull, fun x => (extractOptional_eq_ok_iff (inject_ne_null hnull x)).1 (hsome x)⟩
  · rintro ⟨hnull, h⟩ (_ | x)
    · rfl
    · exact (extractOptional_eq_ok_iff (inject_ne_null hnull x)).2 (h x)

/-- Nothing is lost exactly in faithful targets: the two ways to lose something are a document, and
an option over what can be NULL by itself. -/
theorem roundTrips_iff (t : Target) : t.RoundTrips ↔ t.isFaithful = true := by
  induction t with
  | json => simp [not_roundTrips_json, isFaithful]
  | int32 => simp [roundTrips_int32, isFaithful]
  | optional inner ih => simp [roundTrips_optional_iff, ih, isFaithful]
  | list inner ih => simp [roundTrips_list_iff, ih, isFaithful]
  | _ => exact iff_of_true (fun _ => rfl) rfl

/-- An outcome whose error is about a value in a column that is not known. -/
def Unplaced {α : Type} (outcome : Except Error α) : Prop :=
  ∀ e, outcome = .error e → ∃ fault, e = .decode "?" fault

section Unplaced

variable {α β : Type}

@[simp] theorem unplaced_ok (a : α) : Unplaced (.ok a) := by
  simp [Unplaced]

@[simp] theorem unplaced_fail (fault : DecodeFault) :
    Unplaced (fail fault : Except Error α) := by
  simp [Unplaced, fail]

theorem Unplaced.bind {outcome : Except Error α} {f : α → Except Error β}
    (h : Unplaced outcome) (hf : ∀ a, Unplaced (f a)) : Unplaced (outcome >>= f) := by
  cases outcome with
  | error e => exact fun e' he' => h e' (by simpa [Bind.bind, Except.bind] using he')
  | ok a => exact hf a

theorem Unplaced.map {outcome : Except Error α} (h : Unplaced outcome) (f : α → β) :
    Unplaced (f <$> outcome) := by
  rw [map_eq_pure_bind]
  exact h.bind fun a => unplaced_ok (f a)

theorem unplaced_mapM {f : α → Except Error β} (h : ∀ a, Unplaced (f a)) (items : List α) :
    Unplaced (items.mapM f) := by
  induction items with
  | nil => exact unplaced_ok []
  | cons item items ih =>
    rw [List.mapM_cons]
    exact (h item).bind fun first => ih.bind fun rest => unplaced_ok (first :: rest)

end Unplaced

theorem unplaced_extractBool (v : Value) : Unplaced (extractBool v) := by
  cases v <;> simp [extractBool]

theorem unplaced_extractInt64 (v : Value) : Unplaced (extractInt64 v) := by
  cases v <;> simp [extractInt64]

theorem unplaced_extractInt32 (v : Value) : Unplaced (extractInt32 v) := by
  refine (unplaced_extractInt64 v).bind fun i => ?_
  split_ifs
  · exact unplaced_fail _
  · exact unplaced_fail _
  · exact unplaced_ok _

theorem unplaced_extractFloat (v : Value) : Unplaced (extractFloat v) := by
  cases v <;> simp [extractFloat]

theorem unplaced_extractText (v : Value) : Unplaced (extractText v) := by
  cases v <;> simp [extractText]

theorem unplaced_extractDecimal (v : Value) : Unplaced (extractDecimal v) := by
  cases v with
  | text s =>
    rw [extractDecimal]
    cases Decimal.parse s <;> simp
  | _ => simp [extractDecimal]

theorem unplaced_extractTimestamp (v : Value) : Unplaced (extractTimestamp v) := by
  cases v with
  | text s =>
    rw [extractTimestamp]
    cases parseInstant s <;> simp
  | _ => simp [extractTimestamp]

/-- A value that cannot be read as a target is refused with an error about a column that is not
known, at whatever depth the fault is. -/
theorem unplaced_extract (t : Target) (v : Value) : Unplaced (t.extract v) := by
  induction t generalizing v with
  | value | json => exact unplaced_ok _
  | bool => exact unplaced_extractBool v
  | int64 => exact unplaced_extractInt64 v
  | int32 => exact unplaced_extractInt32 v
  | float => exact unplaced_extractFloat v
  | decimal => exact unplaced_extractDecimal v
  | text => exact unplaced_extractText v
  | timestamp => exact unplaced_extractTimestamp v
  | optional inner ih =>
    cases v with
    | null => exact unplaced_ok _
    | _ => exact (ih _).map some
  | list inner ih =>
    cases v with
    | array items => exact unplaced_mapM ih items
    | _ => exact unplaced_fail _

/-- Typed access is faithful. What is written for a target is read back as it was, at every depth,
exactly if no part of the target is a document or an option over what can be NULL by itself; words
of 32 bits are read from the same numbers and from no others. A value that cannot be read is refused
with a decoding error, and a record that holds the value refuses the column with the same fault
under the column's name. -/
theorem extract_faithful :
    (∀ t : Target, (∀ x, t.extract (t.inject x) = .ok x) ↔ t.isFaithful = true) ∧
    (∀ (i : Int64) (x : Int32), extractInt32 (.int i) = .ok x ↔ i.toInt = x.toInt) ∧
    ∀ (t : Target) (v : Value) (e : Error), t.extract v = .error e →
      ∃ fault, e = .decode "?" fault ∧
        ∀ (r : Record) (column : String), r.get? column = some v →
          r.getAs column t = .error (.decode column fault) := by
  refine ⟨roundTrips_iff, fun i x => extractInt32_eq_ok_iff, fun t v e h => ?_⟩
  obtain ⟨fault, rfl⟩ := unplaced_extract t v e h
  refine ⟨fault, rfl, fun r column hcolumn => ?_⟩
  rw [Record.getAs, hcolumn, Option.getD_some, h]
  rfl

/-- A list is read back as it was written, the missing amount included. With a text in the place of
an amount it is refused. -/
theorem extract_faithful_amounts :
    extract (.list (.optional .int32)) (.array [.int 1, .null, .int (-3)]) =
        .ok ([some 1, none, some (-3)] : List (Option Int32)) ∧
      extractInt32 (.int (-3)) = .ok (-3) ∧
      extract (.list (.optional .int32)) (.array [.int 1, .null, .text "three"]) =
        .error (.decode "?" (.mismatch "integer" .text)) ∧
      Record.getAs ⟨[("amounts", .array [.int 1, .null, .text "three"])]⟩ "amounts"
          (.list (.optional .int32)) =
        .error (.decode "amounts" (.mismatch "integer" .text)) := by
  obtain ⟨hfaithful, hint32, hrefused⟩ := extract_faithful
  obtain ⟨fault, hfault, hcolumn⟩ := hrefused (.list (.optional .int32))
    (.array [.int 1, .null, .text "three"]) _ rfl
  cases hfault
  have hread := (hfaithful (.list (.optional .int32))).2 rfl
    ([some 1, none, some (-3)] : List (Option Int32))
  exact ⟨hread, (hint32 (-3) (-3)).2 rfl, rfl, hcolumn _ _ rfl⟩

/-- Lists and options are nested to any depth, but an option directly in an option is not. -/
example : isFaithful (.optional (.list (.optional (.list .timestamp)))) = true ∧
    isFaithful (.list (.optional (.optional .text))) = false := ⟨rfl, rfl⟩

end PgToolkit.Target
