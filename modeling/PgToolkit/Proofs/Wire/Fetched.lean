import PgToolkit.Proofs.Json.Parsed
import PgToolkit.Proofs.Number.Rounding
import PgToolkit.Proofs.Wire.Canonical

/-!
# Values sent back to their column

A value that was read from a column is bound to the type of the column again, and what is bound is
read as the same value; only zero loses the fraction digits that it was shown with. Object
identifiers are the exception: they are read as integers, but no integer is bound to their type. The
types that are read and those that are bound stand in two tables, and each scalar type is one case
of the proof. An element of an array has a length in front, so what is sent back must not be longer
than what was read.
-/

namespace PgToolkit

open Number Time Wire

-- A power is the core library's, also where a general one is in scope.
attribute [local instance (high)] instPowNat

namespace Wire

/-- A type whose values are sent back to its columns: it holds no object identifiers. -/
def PgType.Resent : PgType → Prop
  | .scalar .oid => False
  | .array _ _ element => element.Resent
  | _ => True

/-- A type whose values may take more bytes than they came with when they are sent back: documents,
which are written anew, and arrays. -/
def PgType.Grows : PgType → Prop
  | .scalar .json | .scalar .jsonb => True
  | .array .. => True
  | _ => False

end Wire

namespace Value

mutual

/-- The value with every zero as it is kept, without sign and fraction digits. -/
def settled : Value → Value
  | .decimal d => .decimal d.plainZero
  | .array items => .array (settledItems items)
  | v => v

/-- The items of an array with every zero as it is kept. -/
def settledItems : List Value → List Value
  | [] => []
  | v :: rest => settled v :: settledItems rest

end

mutual

/-- The numbers in double precision of the documents of a value are read back from their texts. -/
def DoublesLegible : Value → Prop
  | .json document => document.DoublesLegible
  | .array items => ItemsDoublesLegible items
  | _ => True

/-- The same for the items of an array. -/
def ItemsDoublesLegible : List Value → Prop
  | [] => True
  | v :: rest => DoublesLegible v ∧ ItemsDoublesLegible rest

end

mutual

/-- No document and no array that is an element of an array takes more bytes than the length of an
element can say. -/
def Sendable : Value → PgType → Prop
  | .array items, .array _ _ element => ItemsSendable items element
  | _, _ => True

/-- The same for the items of an array. -/
def ItemsSendable : List Value → PgType → Prop
  | [], _ => True
  | v :: rest, type =>
    (type.Grows → ∀ bytes, v.bind type = .ok (some bytes) → bytes.length < 0x80000000) ∧
      Sendable v type ∧ ItemsSendable rest type

end

theorem itemsDoublesLegible_iff {items : List Value} :
    ItemsDoublesLegible items ↔ ∀ v ∈ items, v.DoublesLegible := by
  induction items with
  | nil => simp [ItemsDoublesLegible]
  | cons v rest ih => rw [ItemsDoublesLegible, ih, List.forall_mem_cons]

theorem itemsSendable_iff {items : List Value} {type : PgType} : ItemsSendable items type ↔
    ∀ v ∈ items,
      (type.Grows → ∀ bytes, v.bind type = .ok (some bytes) → bytes.length < 0x80000000) ∧
        v.Sendable type := by
  induction items with
  | nil => simp [ItemsSendable]
  | cons v rest ih => rw [ItemsSendable, ih, List.forall_mem_cons, and_assoc]

theorem orMalformed_eq_ok_iff {α : Type} {o : Option α} {a : α} :
    orMalformed o = .ok a ↔ o = some a := by
  cases o <;> simp [orMalformed]

/-! ### Integers -/

/-- The integer that was read has the range of its width. -/
theorem fits_of_readInteger {width : Nat} {bytes : List UInt8} {i : Int64} (hpos : 0 < width)
    (hwidth : width ≤ 8) (h : readInteger width bytes = some i) :
    -(256 ^ width : Nat) ≤ 2 * i.toInt ∧ 2 * i.toInt < (256 ^ width : Nat) := by
  rw [readInteger] at h
  obtain ⟨hlength, hread⟩ := Option.ite_none_right_eq_some.1 h
  subst hlength
  obtain rfl := Option.some.inj hread
  obtain ⟨half, hhalf⟩ : ∃ half, 256 ^ bytes.length = 2 * half :=
    ⟨128 * 256 ^ (bytes.length - 1), by
      rw [← Nat.mul_assoc, ← Nat.pow_succ', Nat.succ_eq_add_one, Nat.sub_add_cancel hpos]⟩
  have hle : 256 ^ bytes.length ≤ 256 ^ 8 := Nat.pow_le_pow_right (by decide) hwidth
  have hsize : (256 : Nat) ^ 8 = 18446744073709551616 := rfl
  have hword : Int64.size = 18446744073709551616 := rfl
  have hsome : 0 < 256 ^ bytes.length := Nat.pow_pos (by decide)
  have hlow := Int.le_bmod (x := unsignedOf bytes) hsome
  have hhigh := Int.bmod_lt (x := unsignedOf bytes) hsome
  have hsigned : (Int64.ofInt (signedOf bytes)).toInt = signedOf bytes := by
    rw [Int64.toInt_ofInt]
    exact Int.bmod_eq_of_le (by rw [signedOf]; omega) (by rw [signedOf]; omega)
  rw [hsigned, signedOf]
  omega

/-! ### One scalar type after the other -/

/-- A value is bound to a type, and what is bound is read as the value. -/
def Resends (v : Value) (type : PgType) : Prop :=
  ∃ bytes, v.bind type = .ok (some bytes) ∧ ofCell type (some bytes) = .ok v.settled

variable {type : PgType} {raw : List UInt8}

theorem resends_int {i : Int64} {bytes : List UInt8} (htype : type.Exact)
    (h : bindInt i type = .ok bytes) (hcanonical : canonicalInt i type = .int i) :
    (Value.int i).Resends type :=
  ⟨bytes, by rw [bind, h]; rfl, by rw [ofCell_bindInt htype h, hcanonical]; rfl⟩

theorem bind_text (htext : type.isTextLike = true) (s : String) :
    (Value.text s).bind type = .ok (some (textBytes s)) := by
  have hbytes : bindText .text s type = .ok (textBytes s) := by
    unfold bindText
    split <;> first | exact absurd htext (by decide) | rw [if_pos htext]
  rw [bind, hbytes]
  rfl

theorem resends_text {s : String} (htype : type.Exact) (htext : type.isTextLike = true) :
    (Value.text s).Resends type :=
  ⟨textBytes s, bind_text htext s, ofCell_textBytes htype htext s⟩

theorem resends_timestamp {t : Instant} (hplain : t.IsPlain) (hcut : t.cutToMicros = t)
    {type : Scalar} (htype : type = .timestamptz ∨ type = .timestamp) :
    (Value.timestamp t).Resends (.scalar type) := by
  refine ⟨signedBytes 8 (microseconds t), ?_, ?_⟩
  · rcases htype with rfl | rfl <;> rfl
  · rw [ofCell_instantBytes hplain htype, hcut]
    rfl

theorem resends_date {t : Instant} (hmidnight : t.midnight = t) :
    (Value.timestamp t).Resends (.scalar .date) :=
  ⟨signedBytes 4 (dayCount t), rfl, by rw [ofCell_dayBytes, hmidnight]; rfl⟩

theorem resends_json {text : String} {document : Json} (h : Json.parse? text = some document)
    (hdoubles : document.DoublesLegible) {binary : Bool} {type : Scalar}
    (htype : (type, binary) = (.json, false) ∨ (type, binary) = (.jsonb, true)) :
    (Value.json document).Resends (.scalar type) := by
  refine ⟨documentBytes binary document, ?_, ?_⟩
  · rcases htype with heq | heq <;> obtain ⟨rfl, rfl⟩ := Prod.mk.inj heq <;> rfl
  · rw [ofCell_documentBytes htype (Json.legible_of_parse? h hdoubles)]
    rfl

theorem readUnsigned_unsignedBytes {width n : Nat} (h : n < 256 ^ width) :
    readUnsigned width (unsignedBytes width n) = some n := by
  rw [readUnsigned, if_pos (length_unsignedBytes ..), unsignedOf_unsignedBytes,
    Nat.mod_eq_of_lt h]

theorem ofCell_doubleBytes (x : Binary64) :
    ofCell (.scalar .float8) (some (doubleBytes x)) = .ok (.float x) := by
  have hread : readUnsigned 8 (doubleBytes x) = some x.bits.toNat :=
    readUnsigned_unsignedBytes x.bits.toNat_lt
  change (fun n => Value.float ⟨UInt64.ofNat n⟩) <$> orMalformed (readUnsigned 8 _) = _
  rw [hread]
  change Except.ok (Value.float ⟨UInt64.ofNat x.bits.toNat⟩) = _
  rw [UInt64.ofNat_toNat]

theorem ofCell_singleBytes (x : Binary32) :
    ofCell (.scalar .float4) (some (singleBytes x)) = .ok (.float x.widen) := by
  have hread : readUnsigned 4 (singleBytes x) = some x.bits.toNat :=
    readUnsigned_unsignedBytes x.bits.toNat_lt
  change (fun n => Value.float (Binary32.mk (UInt32.ofNat n)).widen) <$>
    orMalformed (readUnsigned 4 _) = _
  rw [hread]
  change Except.ok (Value.float (Binary32.mk (UInt32.ofNat x.bits.toNat)).widen) = _
  rw [UInt32.ofNat_toNat]

theorem readScalar_uuid_eq_ok_iff {v : Value} :
    readScalar .uuid raw = .ok v ↔ raw.length = 16 ∧ v = .text (Text.uuidText raw) := by
  rw [readScalar]
  split
  · next hlength => rw [and_iff_right hlength, Except.ok.injEq, eq_comm]
  · next hlength => simp only [hlength, false_and, reduceCtorEq]

theorem bind_uuidText (h : raw.length = 16) :
    (Value.text (Text.uuidText raw)).bind (.scalar .uuid) = .ok (some raw) := by
  rw [bind, bindText, Text.parseUuid?_uuidText h]
  rfl

/-- What was read in a column of a scalar type is bound and read again. -/
theorem resends_of_readScalar {type : Scalar} {v : Value} (htype : type ≠ .oid)
    (h : readScalar type raw = .ok v) (hdoubles : v.DoublesLegible) :
    v.Resends (.scalar type) := by
  cases type with
  | oid => exact absurd rfl htype
  | bool =>
    simp only [readScalar] at h
    split at h
    · next b =>
      obtain rfl := Except.ok.inj h
      exact ⟨[if b != 0 then 1 else 0], rfl, by cases b != 0 <;> rfl⟩
    · cases h
  | int2 | int4 =>
    obtain ⟨i, hi, rfl⟩ := map_eq_ok_iff.1 h
    have hfits := fits_of_readInteger (by decide) (by decide) (orMalformed_eq_ok_iff.1 hi)
    exact resends_int trivial (integerBytes_eq_ok_iff.2 ⟨hfits, rfl⟩) rfl
  | int8 =>
    obtain ⟨i, -, rfl⟩ := map_eq_ok_iff.1 h
    exact resends_int trivial rfl rfl
  | float4 =>
    obtain ⟨n, -, rfl⟩ := map_eq_ok_iff.1 h
    refine ⟨_, rfl, ?_⟩
    rw [ofCell_singleBytes, Binary32.widen_narrow_widen]
    rfl
  | float8 =>
    obtain ⟨n, -, rfl⟩ := map_eq_ok_iff.1 h
    exact ⟨_, rfl, ofCell_doubleBytes _⟩
  | numeric =>
    obtain ⟨d, -, rfl⟩ := map_eq_ok_iff.1 h
    exact ⟨numericBytes d, rfl, ofCell_bindDecimal trivial rfl⟩
  | text | varchar | bpchar | name | unknown =>
    obtain ⟨s, -, rfl⟩ := map_eq_ok_iff.1 h
    exact resends_text trivial rfl
  | uuid =>
    obtain ⟨hlength, rfl⟩ := readScalar_uuid_eq_ok_iff.1 h
    exact ⟨raw, bind_uuidText hlength, h⟩
  | json =>
    obtain ⟨document, hread, rfl⟩ := map_eq_ok_iff.1 h
    obtain ⟨text, -, hparse⟩ := Option.bind_eq_some_iff.1 (orMalformed_eq_ok_iff.1 hread)
    rw [DoublesLegible] at hdoubles
    exact resends_json hparse hdoubles (.inl rfl)
  | jsonb =>
    obtain ⟨document, hread, rfl⟩ := map_eq_ok_iff.1 h
    have hread := orMalformed_eq_ok_iff.1 hread
    unfold readDocument at hread
    split at hread
    · obtain ⟨text, -, hparse⟩ := Option.bind_eq_some_iff.1 hread
      rw [DoublesLegible] at hdoubles
      exact resends_json hparse hdoubles (.inr rfl)
    · cases hread
  | timestamp | timestamptz =>
    obtain ⟨t, hread, rfl⟩ := map_eq_ok_iff.1 h
    obtain ⟨count, -, ht⟩ := Option.bind_eq_some_iff.1 (orMalformed_eq_ok_iff.1 hread)
    obtain ⟨hplain, hcut⟩ := cutToMicros_of_ofMicroseconds? ht
    exact resends_timestamp hplain hcut (by decide)
  | date =>
    obtain ⟨t, hread, rfl⟩ := map_eq_ok_iff.1 h
    obtain ⟨count, -, ht⟩ := Option.bind_eq_some_iff.1 (orMalformed_eq_ok_iff.1 hread)
    exact resends_date (midnight_of_ofDayCount? ht)

/-! ### Lengths -/

theorem textBytes_of_readText {s : String} (h : readText raw = some s) : textBytes s = raw := by
  rw [readText, String.fromUTF8?] at h
  split at h
  · obtain rfl := Option.some.inj h
    rfl
  · cases h

/-- A text is sent back as the bytes that it was read from. -/
theorem eq_of_bind_text {s : String} {bytes : List UInt8} (htext : type.isTextLike = true)
    (hread : orMalformed (readText raw) = .ok s)
    (hbind : (Value.text s).bind type = .ok (some bytes)) : bytes = raw := by
  rw [bind_text htext, textBytes_of_readText (orMalformed_eq_ok_iff.1 hread)] at hbind
  exact (Option.some.inj (Except.ok.inj hbind)).symm

theorem length_le_of_readScalar {type : Scalar} {v : Value} {bytes : List UInt8}
    (htype : ¬ (PgType.scalar type).Grows) (h : readScalar type raw = .ok v)
    (hbind : v.bind (.scalar type) = .ok (some bytes)) : bytes.length ≤ max raw.length 24 := by
  cases type with
  | json | jsonb => exact absurd trivial htype
  | bool =>
    simp only [readScalar] at h
    split at h
    · obtain rfl := Except.ok.inj h
      obtain rfl := Option.some.inj (Except.ok.inj hbind)
      exact Nat.le_max_left ..
    · cases h
  | int2 | int4 =>
    obtain ⟨i, -, rfl⟩ := map_eq_ok_iff.1 h
    obtain ⟨cell, hcell, heq⟩ := map_eq_ok_iff.1 hbind
    obtain rfl := Option.some.inj heq
    obtain ⟨-, rfl⟩ := integerBytes_eq_ok_iff.1 hcell
    rw [length_signedBytes]
    omega
  | int8 =>
    obtain ⟨i, -, rfl⟩ := map_eq_ok_iff.1 h
    obtain rfl := Option.some.inj (Except.ok.inj hbind)
    rw [length_signedBytes]
    omega
  | oid =>
    obtain ⟨n, -, rfl⟩ := map_eq_ok_iff.1 h
    cases hbind
  | float4 | float8 =>
    obtain ⟨n, -, rfl⟩ := map_eq_ok_iff.1 h
    obtain rfl := Option.some.inj (Except.ok.inj hbind)
    simp only [singleBytes, doubleBytes, length_unsignedBytes]
    omega
  | numeric =>
    obtain ⟨d, -, rfl⟩ := map_eq_ok_iff.1 h
    obtain rfl := Option.some.inj (Except.ok.inj hbind)
    exact Nat.le_trans (length_numericBytes_le d) (Nat.le_max_right ..)
  | text | varchar | bpchar | name | unknown =>
    obtain ⟨s, hread, rfl⟩ := map_eq_ok_iff.1 h
    rw [eq_of_bind_text rfl hread hbind]
    exact Nat.le_max_left ..
  | uuid =>
    obtain ⟨hsize, rfl⟩ := readScalar_uuid_eq_ok_iff.1 h
    rw [bind_uuidText hsize] at hbind
    obtain rfl := Option.some.inj (Except.ok.inj hbind)
    exact Nat.le_max_left ..
  | timestamp | timestamptz | date =>
    obtain ⟨t, -, rfl⟩ := map_eq_ok_iff.1 h
    obtain rfl := Option.some.inj (Except.ok.inj hbind)
    rw [length_signedBytes]
    omega

/-- What is sent back takes no more bytes than what was read, but for what is short anyway. -/
theorem length_le_of_bind {v : Value} {bytes : List UInt8} (htype : ¬ type.Grows)
    (h : ofCell type (some raw) = .ok v) (hbind : v.bind type = .ok (some bytes)) :
    bytes.length ≤ max raw.length 24 := by
  cases type with
  | scalar type => exact length_le_of_readScalar htype h hbind
  | array name number element => exact absurd trivial htype
  | enumeration name number =>
    obtain ⟨s, hread, rfl⟩ := map_eq_ok_iff.1 h
    rw [eq_of_bind_text rfl hread hbind]
    exact Nat.le_max_left ..
  | other schema name number =>
    rw [ofCell] at h
    split at h
    · next htext =>
      obtain ⟨s, hread, rfl⟩ := map_eq_ok_iff.1 h
      rw [eq_of_bind_text htext hread hbind]
      exact Nat.le_max_left ..
    · cases h

/-! ### Arrays -/

theorem length_of_split? {width : Nat} {bytes front rest : List UInt8}
    (h : split? width bytes = some (front, rest)) : front.length = width := by
  obtain ⟨hle, heq⟩ := Option.ite_none_right_eq_some.1 h
  obtain ⟨rfl, -⟩ := Prod.mk.inj (Option.some.inj heq)
  exact List.length_take_of_le hle

theorem signedOf_lt {bytes : List UInt8} (hlength : bytes.length = 4) :
    signedOf bytes < 0x80000000 := by
  have hsize : (256 : Nat) ^ 4 = 4294967296 := rfl
  rw [signedOf, hlength, hsize]
  have hlt := Int.bmod_lt (x := unsignedOf bytes) (show 0 < 4294967296 by decide)
  omega

/-- An element is not longer than its length can say. -/
theorem length_of_splitElement? {bytes element rest : List UInt8}
    (h : splitElement? bytes = some (some element, rest)) : element.length < 0x80000000 := by
  rw [splitElement?] at h
  obtain ⟨⟨length, tail⟩, hlength, h⟩ := Option.bind_eq_some_iff.1 h
  have hlt := signedOf_lt (length_of_split? hlength)
  dsimp only at h
  split at h
  · cases h
  · obtain ⟨⟨front, back⟩, hfront, h⟩ := Option.bind_eq_some_iff.1 h
    obtain ⟨hcell, -⟩ := Prod.mk.inj (Option.some.inj h)
    obtain rfl := Option.some.inj hcell
    have hfront : front.length = (signedOf length).toNat := length_of_split? hfront
    change front.length < _
    omega

theorem unsignedOf_lt (bytes : List UInt8) : unsignedOf bytes < 256 ^ bytes.length := by
  induction bytes with
  | nil => decide
  | cons b rest ih =>
    have hb : b.toNat + 1 ≤ 256 := b.toNat_lt
    have hle := Nat.mul_le_mul_right (256 ^ rest.length) hb
    rw [unsignedOf, List.length_cons, Nat.pow_succ']
    rw [Nat.add_mul, Nat.one_mul] at hle
    omega

theorem unsignedOf_lt_of_signedOf {bytes : List UInt8} (hlength : bytes.length = 4)
    (h : 0 ≤ signedOf bytes) : unsignedOf bytes < 0x80000000 := by
  have hlt := unsignedOf_lt bytes
  rw [signedOf, hlength] at h
  rw [hlength] at hlt
  have hsize : (256 : Nat) ^ 4 = 4294967296 := rfl
  rw [hsize] at h hlt
  rw [Int.bmod_def] at h
  split at h <;> omega

/-- An array has no more elements than are sent again. -/
theorem count_of_readArrayHeader {bytes rest : List UInt8} {count : Nat}
    (h : readArrayHeader bytes = some (count, rest)) : count < 0x80000000 := by
  rw [readArrayHeader] at h
  obtain ⟨⟨dimensions, rest₁⟩, -, h⟩ := Option.bind_eq_some_iff.1 h
  obtain ⟨⟨flags, rest₂⟩, -, h⟩ := Option.bind_eq_some_iff.1 h
  dsimp only at h
  split at h
  · obtain ⟨rfl, -⟩ := Prod.mk.inj (Option.some.inj h)
    decide
  · split at h
    · cases h
    · obtain ⟨⟨length, rest₃⟩, hlength, h⟩ := Option.bind_eq_some_iff.1 h
      obtain ⟨⟨bound, rest₄⟩, -, h⟩ := Option.bind_eq_some_iff.1 h
      dsimp only at h
      split at h
      · cases h
      · next hle =>
        obtain ⟨rfl, -⟩ := Prod.mk.inj (Option.some.inj h)
        exact unsignedOf_lt_of_signedOf (length_of_split? hlength) (Int.not_lt.1 hle)

/-- As many elements are read as were asked for, each from a cell of its own. -/
theorem cells_of_readElements {read : Option (List UInt8) → Except CellFault Value} {count : Nat}
    {bytes : List UInt8} {items : List Value} (h : readElements read count bytes = .ok items) :
    items.length = count ∧ ∀ v ∈ items, ∃ cell, read cell = .ok v ∧
      ∀ raw, cell = some raw → raw.length < 0x80000000 := by
  induction count generalizing bytes items with
  | zero =>
    rw [readElements] at h
    split at h
    · obtain rfl := Except.ok.inj h
      exact ⟨rfl, fun _ hv => absurd hv List.not_mem_nil⟩
    · cases h
  | succ count ih =>
    simp only [readElements, bind_eq_ok_iff, pure_eq_ok_iff, orMalformed_eq_ok_iff] at h
    obtain ⟨⟨cell, rest⟩, hcell, v, hv, items, hitems, rfl⟩ := h
    obtain ⟨hlength, hall⟩ := ih hitems
    refine ⟨by rw [List.length_cons, hlength], List.forall_mem_cons.2 ⟨⟨cell, hv, ?_⟩, hall⟩⟩
    rintro raw rfl
    exact length_of_splitElement? hcell

/-- The elements of an array are bound and read again when each of them is, and is not too long. -/
theorem readElements_of_resends {items : List Value}
    (hitems : ∀ v ∈ items, v = .null ∨ ∃ bytes, v.bind type = .ok (some bytes) ∧
      bytes.length < 0x80000000 ∧ ofCell type (some bytes) = .ok v.settled) :
    ∃ bytes, bindItems items type = .ok bytes ∧
      readElements (ofCell type) items.length bytes = .ok (settledItems items) := by
  induction items with
  | nil => exact ⟨[], rfl, rfl⟩
  | cons v rest ih =>
    obtain ⟨hfirst, hrest⟩ := List.forall_mem_cons.1 hitems
    obtain ⟨others, hothers, hread⟩ := ih hrest
    obtain ⟨cell, element, hcell, helement, hsettled⟩ : ∃ cell element, v.bind type = .ok cell ∧
        elementBytes cell = .ok element ∧ ofCell type cell = .ok v.settled := by
      rcases hfirst with rfl | ⟨bytes, hbytes, hlength, hsettled⟩
      · exact ⟨none, _, rfl, rfl, ofCell_none type⟩
      · exact ⟨some bytes, _, hbytes, if_pos hlength, hsettled⟩
    refine ⟨element ++ others, ?_, readElements_append helement hsettled hread⟩
    rw [bindItems, hcell]
    change (do
      let element ← elementBytes cell
      return element ++ (← bindItems rest type)) = _
    rw [helement, hothers]
    rfl

theorem resends_of_ofCell {type : PgType} {raw : List UInt8} {v : Value} (htype : type.Resent)
    (h : ofCell type (some raw) = .ok v) (hdoubles : v.DoublesLegible) (hsend : v.Sendable type) :
    v.Resends type := by
  induction type generalizing raw v with
  | scalar type =>
    refine resends_of_readScalar ?_ h hdoubles
    rintro rfl
    exact htype
  | enumeration name number =>
    obtain ⟨s, -, rfl⟩ := map_eq_ok_iff.1 h
    exact resends_text trivial rfl
  | other schema name number =>
    rw [ofCell] at h
    split at h
    · next htext =>
      obtain ⟨s, -, rfl⟩ := map_eq_ok_iff.1 h
      exact resends_text trivial htext
    · cases h
  | array name number element ih =>
    simp only [ofCell, bind_eq_ok_iff, pure_eq_ok_iff, orMalformed_eq_ok_iff] at h
    obtain ⟨⟨count, rest⟩, hheader, items, hitems, rfl⟩ := h
    obtain ⟨rfl, hcells⟩ := cells_of_readElements hitems
    rw [DoublesLegible, itemsDoublesLegible_iff] at hdoubles
    rw [Sendable, itemsSendable_iff] at hsend
    have hitems : ∀ v ∈ items, v = .null ∨ ∃ bytes, v.bind element = .ok (some bytes) ∧
        bytes.length < 0x80000000 ∧ ofCell element (some bytes) = .ok v.settled := by
      intro v hv
      obtain ⟨cell, hcell, hshort⟩ := hcells v hv
      obtain ⟨hgrown, hsend⟩ := hsend v hv
      cases cell with
      | none =>
        rw [ofCell_none] at hcell
        exact .inl (Except.ok.inj hcell).symm
      | some raw =>
        obtain ⟨bytes, hbytes, hsettled⟩ := ih htype hcell (hdoubles v hv) hsend
        refine .inr ⟨bytes, hbytes, ?_, hsettled⟩
        by_cases hgrows : element.Grows
        · exact hgrown hgrows bytes hbytes
        · have hraw := hshort raw rfl
          have hle := length_le_of_bind hgrows hcell hbytes
          omega
    obtain ⟨bytes, hbytes, hread⟩ := readElements_of_resends hitems
    have hcount := count_of_readArrayHeader hheader
    refine ⟨_, bind_array_eq_ok_iff.2 ⟨name, number, element, rfl, hcount, bytes, hbytes, rfl⟩, ?_⟩
    rw [settled]
    exact ofCell_arrayHeader_append hcount hread name number

/-- What was read from a column is bound to the type of the column, and read again. What was read as
an object identifier is an integer, and no integer is bound to that type. -/
theorem bind_of_ofCell {type : PgType} {raw : List UInt8} {v : Value}
    (h : ofCell type (some raw) = .ok v) (hdoubles : v.DoublesLegible) (hsend : v.Sendable type) :
    (type.Resent → ∃ bytes, v.bind type = .ok (some bytes) ∧
        ofCell type (some bytes) = .ok v.settled) ∧
      (type = .scalar .oid → v.bind type = .error (.cannotBind .int type)) := by
  refine ⟨fun htype => resends_of_ofCell htype h hdoubles hsend, ?_⟩
  rintro rfl
  obtain ⟨n, -, rfl⟩ := map_eq_ok_iff.1 h
  rfl

/-- Truth values are sent back; one of them is NULL, and one is written as 2. -/
theorem bind_of_ofCell_bools :
    let type : PgType := .array "_bool" 1000 (.scalar .bool)
    let raw : List UInt8 := [0, 0, 0, 1, 0, 0, 0, 1, 0, 0, 0, 16, 0, 0, 0, 2, 0, 0, 0, 1,
      0, 0, 0, 1, 2, 255, 255, 255, 255]
    let v : Value := .array [.bool true, .null]
    ofCell type (some raw) = .ok v ∧ v.DoublesLegible ∧ v.Sendable type ∧ type.Resent ∧
      ∃ bytes, v.bind type = .ok (some bytes) ∧ ofCell type (some bytes) = .ok v.settled := by
  intro type raw v
  have hread : ofCell type (some raw) = .ok v := by
    have hheader : readArrayHeader raw = some (2, [0, 0, 0, 1, 2, 255, 255, 255, 255]) := by decide
    have hfirst : splitElement? [0, 0, 0, 1, 2, 255, 255, 255, 255] =
        some (some [2], [255, 255, 255, 255]) := by decide
    have hsecond : splitElement? [255, 255, 255, 255] = some (none, []) := by decide
    have hitems : readElements (ofCell (.scalar .bool)) 2 [0, 0, 0, 1, 2, 255, 255, 255, 255] =
        .ok [.bool true, .null] := by
      simp only [readElements, hfirst, hsecond, orMalformed, Bind.bind, Except.bind]
      rfl
    simp only [type, ofCell, hheader, hitems, orMalformed, Bind.bind, Except.bind]
    rfl
  have hdoubles : v.DoublesLegible := ⟨trivial, trivial, trivial⟩
  have hsend : v.Sendable type := ⟨False.elim, trivial, False.elim, trivial, trivial⟩
  have htype : type.Resent := trivial
  exact ⟨hread, hdoubles, hsend, htype, (bind_of_ofCell hread hdoubles hsend).1 htype⟩

end Value

end PgToolkit
