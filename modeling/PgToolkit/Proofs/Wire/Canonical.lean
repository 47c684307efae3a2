import PgToolkit.Proofs.Json.Document
import PgToolkit.Proofs.Outcome
import PgToolkit.Proofs.Text.Uuid
import PgToolkit.Proofs.Wire.Calendar
import PgToolkit.Proofs.Wire.Numeric
import PgToolkit.Wire.Cell
import PgToolkit.Wire.Parameter

/-!
# Values read back in the form of their column

A value that is bound to a type and read from a column of that type comes back in the form that the
type gives it: an integer bound to a text comes back as its digits, an instant bound to a date as
the beginning of its day. Binding and reading are two tables of types; that they agree is one lemma
for each kind of value, and arrays follow by going through their elements.
-/

namespace PgToolkit

open Number Time Wire

-- A power is the core library's, also where a general one is in scope.
attribute [local instance (high)] instPowNat

namespace Wire

/-- A type without binary floating-point numbers. The arrays among them do not have the name by
which strings that ignore case are known. -/
def PgType.Exact : PgType → Prop
  | .scalar .float4 | .scalar .float8 => False
  | .array name _ element => name ≠ "citext" ∧ element.Exact
  | _ => True

end Wire

namespace Value

/-! ### The form of a column -/

/-- The form of an integer. -/
def canonicalInt (i : Int64) : PgType → Value
  | .scalar .int2 | .scalar .int4 | .scalar .int8 => .int i
  | .scalar .numeric => .decimal (Decimal.ofInt64 i)
  | _ => .text (toString i.toInt)

def canonicalDecimal (d : Decimal) : PgType → Value
  | .scalar .numeric => .decimal d.plainZero
  | _ => .text d.text

/-- The form of a text. A text that is read as something else but cannot be stays as it is. -/
def canonicalText (s : String) : PgType → Value
  | .scalar .uuid => .text (Text.hyphenated (Text.uuidDigits s))
  | .scalar .numeric =>
    match Decimal.parse s with
    | .ok d => .decimal d.plainZero
    | .error _ => .text s
  | .scalar .json | .scalar .jsonb => .json (.string s)
  | .scalar .timestamptz =>
    match parseInstant s with
    | .ok t => .timestamp t.cutToMicros
    | .error _ => .text s
  | .scalar .date =>
    match parseDate? s >>= fun day => Instant.ofParts? (day * 86400) 0 with
    | some midnight => .timestamp midnight
    | none => .text s
  | _ => .text s

def canonicalInstant (t : Instant) : PgType → Value
  | .scalar .timestamptz | .scalar .timestamp => .timestamp t.cutToMicros
  | .scalar .date => .timestamp t.midnight
  | _ => .text t.rfc3339

def canonicalJson (document : Json) : PgType → Value
  | .scalar .json | .scalar .jsonb => .json document
  | _ => .text document.text

mutual

/-- The form that a type gives a value. -/
def canonical : Value → PgType → Value
  | .int i, type => canonicalInt i type
  | .decimal d, type => canonicalDecimal d type
  | .text s, type => canonicalText s type
  | .timestamp t, type => canonicalInstant t type
  | .json document, type => canonicalJson document type
  | .array items, .array _ _ element => .array (canonicalItems items element)
  | v, _ => v

/-- The forms of the elements of an array. -/
def canonicalItems : List Value → PgType → List Value
  | [], _ => []
  | v :: rest, type => canonical v type :: canonicalItems rest type

end

mutual

/-- A value without binary floating-point numbers and SQL. Its instants are no leap seconds, also
when they are read from a text, and its documents are read back when they are bound as such. -/
def Exact : Value → PgType → Prop
  | .float _, _ => False
  | .raw _, _ => False
  | .text s, .scalar .timestamptz => ∀ t, parseInstant s = .ok t → t.IsPlain
  | .timestamp t, _ => t.IsPlain
  | .json document, .scalar .json | .json document, .scalar .jsonb =>
    document.Within JsonNumber.Legible Json.maxDepth
  | .array items, .array _ _ element => ExactItems items element
  | _, _ => True

/-- The elements of an array that is without binary floating-point numbers and SQL. -/
def ExactItems : List Value → PgType → Prop
  | [], _ => True
  | v :: rest, type => Exact v type ∧ ExactItems rest type

end

/-! ### Texts, words and documents -/

/-- A text is read back from its bytes. -/
theorem readText_textBytes (s : String) : readText (textBytes s) = some s := by
  have hbytes : (⟨(textBytes s).toArray⟩ : ByteArray) = s.toUTF8 := by
    rw [textBytes, Array.toArray_toList]
  rw [readText, hbytes, String.fromUTF8?, dif_pos (show s.toUTF8.IsValidUTF8 from s.isValidUTF8)]
  rfl

theorem readInteger_signedBytes {width : Nat} {i : Int64}
    (hfits : -(256 ^ width : Nat) ≤ 2 * i.toInt ∧ 2 * i.toInt < (256 ^ width : Nat)) :
    readInteger width (signedBytes width i.toInt) = some i := by
  rw [readInteger, if_pos (length_signedBytes ..),
    signedOf_signedBytes_of_fits hfits.1 hfits.2, Int64.ofInt_toInt]

theorem integerBytes_eq_ok_iff {width : Nat} {i : Int} {bytes : List UInt8} :
    integerBytes width i = .ok bytes ↔
      (-(256 ^ width : Nat) ≤ 2 * i ∧ 2 * i < (256 ^ width : Nat)) ∧
        signedBytes width i = bytes := by
  unfold integerBytes
  split
  · next hfits => rw [Except.ok.injEq, and_iff_right hfits]
  · next hfits => simp only [hfits, false_and, reduceCtorEq]

theorem plainZero_ofInt64 (i : Int64) : (Decimal.ofInt64 i).plainZero = Decimal.ofInt64 i := by
  rw [Decimal.plainZero]
  split
  · next hzero =>
    have hi : i = 0 := Int64.toInt_inj.1 (Int.natAbs_eq_zero.1 hzero)
    subst hi
    rfl
  · rfl

theorem readCount_signedBytes {width : Nat} {i : Int}
    (hfits : -(256 ^ width : Nat) ≤ 2 * i ∧ 2 * i < (256 ^ width : Nat)) :
    readCount width (signedBytes width i) = some i := by
  rw [readCount, if_pos (length_signedBytes ..), signedOf_signedBytes_of_fits hfits.1 hfits.2]

theorem ofCell_textBytes {type : PgType} (htype : type.Exact) (htext : type.isTextLike = true)
    (s : String) : ofCell type (some (textBytes s)) = .ok (.text s) := by
  have hread : (Value.text <$> orMalformed (readText (textBytes s))) = .ok (.text s) := by
    rw [readText_textBytes]
    rfl
  cases type with
  | scalar type => cases type <;> first | exact hread | exact absurd htext (by decide)
  | enumeration name number => exact hread
  | other schema name number => rw [ofCell, if_pos htext, hread]
  | array name number element =>
    have hname : name = "citext" := of_decide_eq_true htext
    exact absurd hname htype.1

theorem ofCell_documentBytes {binary : Bool} {type : Scalar} {document : Json}
    (htype : (type, binary) = (.json, false) ∨ (type, binary) = (.jsonb, true))
    (h : document.Within JsonNumber.Legible Json.maxDepth) :
    ofCell (.scalar type) (some (documentBytes binary document)) = .ok (.json document) := by
  have hread : (readText (textBytes document.text) >>= Json.parse?) = some document := by
    rw [readText_textBytes]
    exact Json.parse?_text h
  rcases htype with heq | heq <;> obtain ⟨rfl, rfl⟩ := Prod.mk.inj heq
  · change Value.json <$> orMalformed (readText (textBytes document.text) >>= Json.parse?) = _
    rw [hread]
    rfl
  · change Value.json <$> orMalformed (readText (textBytes document.text) >>= Json.parse?) = _
    rw [hread]
    rfl

/-! ### One kind of value after the other -/

variable {type : PgType} {bytes : List UInt8}

/-- What is bound as a text, for types of texts only, is read as that text. -/
theorem ofCell_of_textLike {s : String} {fault : BindFault} (htype : type.Exact)
    (h : (if type.isTextLike then .ok (textBytes s) else .error fault) = Except.ok bytes) :
    ofCell type (some bytes) = .ok (.text s) := by
  split at h
  · next htext =>
    obtain rfl := Except.ok.inj h
    exact ofCell_textBytes htype htext s
  · cases h

theorem ofCell_bindInt {i : Int64} (htype : type.Exact) (h : bindInt i type = .ok bytes) :
    ofCell type (some bytes) = .ok (canonicalInt i type) := by
  have hlow := Int64.le_toInt i
  have hhigh := Int64.toInt_lt i
  unfold bindInt at h
  split at h
  · obtain rfl := Except.ok.inj h
    have hsize : (256 : Nat) ^ 8 = 18446744073709551616 := rfl
    change Value.int <$> orMalformed (readInteger 8 (signedBytes 8 i.toInt)) = _
    rw [readInteger_signedBytes (by omega)]
    rfl
  · obtain rfl := Except.ok.inj h
    change Value.decimal <$> readNumeric (numericBytes (Decimal.ofInt64 i)) = _
    rw [readNumeric_numericBytes, plainZero_ofInt64]
    rfl
  · obtain ⟨hfits, rfl⟩ := integerBytes_eq_ok_iff.1 h
    change Value.int <$> orMalformed (readInteger 4 (signedBytes 4 i.toInt)) = _
    rw [readInteger_signedBytes hfits]
    rfl
  · obtain ⟨hfits, rfl⟩ := integerBytes_eq_ok_iff.1 h
    change Value.int <$> orMalformed (readInteger 2 (signedBytes 2 i.toInt)) = _
    rw [readInteger_signedBytes hfits]
    rfl
  · exact absurd htype id
  · exact absurd htype id
  · rw [ofCell_of_textLike htype h]
    unfold canonicalInt
    split <;> simp_all

theorem ofCell_bindDecimal {d : Decimal} (htype : type.Exact) (h : bindDecimal d type = .ok bytes) :
    ofCell type (some bytes) = .ok (canonicalDecimal d type) := by
  unfold bindDecimal at h
  split at h
  · obtain rfl := Except.ok.inj h
    change Value.decimal <$> readNumeric (numericBytes d) = _
    rw [readNumeric_numericBytes]
    rfl
  · exact absurd htype id
  · rw [ofCell_of_textLike htype h]
    unfold canonicalDecimal
    split <;> simp_all

theorem ofCell_instantBytes {t : Instant} (ht : t.IsPlain) {type : Scalar}
    (htype : type = .timestamptz ∨ type = .timestamp) :
    ofCell (.scalar type) (some (signedBytes 8 (microseconds t))) =
      .ok (.timestamp t.cutToMicros) := by
  have hread : (readCount 8 (signedBytes 8 (microseconds t)) >>= ofMicroseconds?) =
      some t.cutToMicros := by
    rw [readCount_signedBytes (microseconds_fits t)]
    exact ofMicroseconds?_microseconds ht
  rcases htype with rfl | rfl
  all_goals
    change Value.timestamp <$> orMalformed (readCount 8 _ >>= ofMicroseconds?) = _
    rw [hread]
    rfl

theorem ofCell_dayBytes (t : Instant) :
    ofCell (.scalar .date) (some (signedBytes 4 (dayCount t))) = .ok (.timestamp t.midnight) := by
  have hread : (readCount 4 (signedBytes 4 (dayCount t)) >>= ofDayCount?) = some t.midnight := by
    rw [readCount_signedBytes (dayCount_fits t)]
    exact ofDayCount?_dayCount t
  change Value.timestamp <$> orMalformed (readCount 4 _ >>= ofDayCount?) = _
  rw [hread]
  rfl

theorem ofCell_bindInstant {t : Instant} (ht : t.IsPlain) (htype : type.Exact)
    (h : bindInstant t type = .ok bytes) :
    ofCell type (some bytes) = .ok (canonicalInstant t type) := by
  unfold bindInstant at h
  split at h
  · obtain rfl := Except.ok.inj h
    exact ofCell_instantBytes ht (.inl rfl)
  · obtain rfl := Except.ok.inj h
    exact ofCell_instantBytes ht (.inr rfl)
  · obtain rfl := Except.ok.inj h
    exact ofCell_dayBytes t
  · rw [ofCell_of_textLike htype h]
    unfold canonicalInstant
    split <;> simp_all

theorem ofCell_bindJson {document : Json} (hexact : Exact (.json document) type)
    (htype : type.Exact) (h : bindJson document type = .ok bytes) :
    ofCell type (some bytes) = .ok (canonicalJson document type) := by
  unfold bindJson at h
  split at h
  · obtain rfl := Except.ok.inj h
    rw [Exact] at hexact
    exact ofCell_documentBytes (.inl rfl) hexact
  · obtain rfl := Except.ok.inj h
    rw [Exact] at hexact
    exact ofCell_documentBytes (.inr rfl) hexact
  · rw [ofCell_of_textLike htype h]
    unfold canonicalJson
    split <;> simp_all

theorem ofCell_bindText {s : String} (hexact : Exact (.text s) type) (htype : type.Exact)
    (h : bindText .text s type = .ok bytes) :
    ofCell type (some bytes) = .ok (canonicalText s type) := by
  unfold bindText at h
  split at h
  · split at h
    · next bytes' huuid =>
      obtain rfl := Except.ok.inj h
      obtain ⟨hlength, htext⟩ := Text.uuidText_of_parseUuid? huuid
      change (if bytes'.length = 16 then Except.ok (Value.text (Text.uuidText bytes')) else _) = _
      rw [if_pos hlength, htext]
      rfl
    · cases h
  · split at h
    · next d hd =>
      obtain rfl := Except.ok.inj h
      change Value.decimal <$> readNumeric (numericBytes d) = _
      rw [readNumeric_numericBytes, canonicalText, hd]
      rfl
    · cases h
  · obtain rfl := Except.ok.inj h
    exact ofCell_documentBytes (.inl rfl) trivial
  · obtain rfl := Except.ok.inj h
    exact ofCell_documentBytes (.inr rfl) trivial
  · split at h
    · next t ht =>
      obtain rfl := Except.ok.inj h
      rw [Exact] at hexact
      rw [ofCell_instantBytes (hexact t ht) (.inl rfl), canonicalText, ht]
    · cases h
  · split at h
    · next day hday =>
      obtain rfl := Except.ok.inj h
      obtain ⟨t, ht, rfl⟩ := exists_midnight_of_parseDate? hday
      have hmidnight : Instant.ofParts? (t.day * 86400) 0 = some t.midnight :=
        Instant.ofParts?_eq_some t.midnight
      change ofCell _ (some (signedBytes 4 (dayCount t))) = _
      rw [ofCell_dayBytes, canonicalText, hday]
      change _ = Except.ok (match Instant.ofParts? (t.day * 86400) 0 with
        | some midnight => Value.timestamp midnight
        | none => Value.text s)
      rw [hmidnight]
    · cases h
  · rw [ofCell_of_textLike htype h]
    unfold canonicalText
    split <;> simp_all

/-! ### Arrays -/

theorem ofCell_none (type : PgType) : ofCell type none = .ok .null := by
  cases type <;> rfl

theorem signedOf_unsignedBytes {count : Nat} (h : count < 0x80000000) :
    signedOf (unsignedBytes 4 count) = count := by
  have hsize : (256 : Nat) ^ 4 = 4294967296 := rfl
  rw [signedOf, length_unsignedBytes, unsignedOf_unsignedBytes, hsize,
    Nat.mod_eq_of_lt (by omega)]
  exact Int.bmod_eq_of_le (by omega) (by omega)

theorem readArrayHeader_eq
    {bytes dimensions flags length bound rest₁ rest₂ rest₃ rest₄ : List UInt8}
    (hdimensions : split? 4 bytes = some (dimensions, rest₁)) (hone : signedOf dimensions = 1)
    (hflags : split? 8 rest₁ = some (flags, rest₂))
    (hlength : split? 4 rest₂ = some (length, rest₃)) (hle : 0 ≤ signedOf length)
    (hbound : split? 4 rest₃ = some (bound, rest₄)) :
    readArrayHeader bytes = some (unsignedOf length, rest₄) := by
  rw [readArrayHeader]
  simp only [hdimensions, hflags, hlength, hbound, hone, Option.bind_eq_bind, Option.bind_some]
  rw [if_neg (by decide), if_neg (by decide), if_neg (Int.not_lt.2 hle)]
  rfl

/-- The number of elements is read back, and the bytes of the elements follow. -/
theorem readArrayHeader_append (element : PgType) (hasNull : Bool) {count : Nat}
    (h : count < 0x80000000) (rest : List UInt8) :
    readArrayHeader (arrayHeader element hasNull count ++ rest) = some (count, rest) := by
  have hshape : arrayHeader element hasNull count ++ rest =
      unsignedBytes 4 1 ++ ((unsignedBytes 4 (if hasNull then 1 else 0) ++
        unsignedBytes 4 element.number) ++
          (unsignedBytes 4 count ++ (unsignedBytes 4 1 ++ rest))) := by
    simp only [arrayHeader, List.append_assoc]
  have hsize : (256 : Nat) ^ 4 = 4294967296 := rfl
  have hcount : unsignedOf (unsignedBytes 4 count) = count := by
    rw [unsignedOf_unsignedBytes, hsize, Nat.mod_eq_of_lt (by omega)]
  have hle : 0 ≤ signedOf (unsignedBytes 4 count) := by
    rw [signedOf_unsignedBytes h]
    exact Int.natCast_nonneg count
  rw [hshape, readArrayHeader_eq (split?_append (length_unsignedBytes ..))
    (signedOf_unsignedBytes (by decide)) (split?_append (by simp))
    (split?_append (length_unsignedBytes ..)) hle (split?_append (length_unsignedBytes ..)), hcount]

theorem splitElement?_eq {bytes length rest : List UInt8}
    (h : split? 4 bytes = some (length, rest)) :
    splitElement? bytes = if signedOf length < 0 then some (none, rest) else
      (split? (signedOf length).toNat rest).map fun (element, rest) => (some element, rest) := by
  rw [splitElement?, h]
  change (if signedOf length < 0 then some (none, rest)
    else (split? (signedOf length).toNat rest).bind fun read => some (some read.1, read.2)) = _
  split
  · rfl
  · cases split? (signedOf length).toNat rest <;> rfl

/-- An element is split off with what is written in front of it. -/
theorem splitElement?_append {cell : Option (List UInt8)} {bytes : List UInt8}
    (h : elementBytes cell = .ok bytes) (rest : List UInt8) :
    splitElement? (bytes ++ rest) = some (cell, rest) := by
  cases cell with
  | none =>
    obtain rfl := Except.ok.inj h
    have hnull : signedOf (signedBytes 4 (-1)) = -1 :=
      signedOf_signedBytes_of_fits (by decide) (by decide)
    rw [splitElement?_eq (split?_append (length_signedBytes ..)), hnull, if_pos (by decide)]
  | some element =>
    rw [elementBytes] at h
    split at h
    · next hlength =>
      obtain rfl := Except.ok.inj h
      rw [List.append_assoc, splitElement?_eq (split?_append (length_unsignedBytes ..)),
        signedOf_unsignedBytes hlength, if_neg (by omega), Int.toNat_natCast, split?_append rfl]
      rfl
    · cases h

/-- An array is read when its elements are. -/
theorem ofCell_arrayHeader_append {element : PgType} {hasNull : Bool} {count : Nat}
    {bytes : List UInt8} {items : List Value} (hcount : count < 0x80000000)
    (h : readElements (ofCell element) count bytes = .ok items) (name : String) (number : Nat) :
    ofCell (.array name number element) (some (arrayHeader element hasNull count ++ bytes)) =
      .ok (.array items) := by
  rw [ofCell, readArrayHeader_append element hasNull hcount]
  change (do return Value.array (← readElements (ofCell element) count bytes)) = _
  rw [h]
  rfl

/-- The elements of an array are read one after the other. -/
theorem readElements_append {read : Option (List UInt8) → Except CellFault Value}
    {cell : Option (List UInt8)} {element bytes : List UInt8} {v : Value} {items : List Value}
    {count : Nat} (helement : elementBytes cell = .ok element) (hfirst : read cell = .ok v)
    (hrest : readElements read count bytes = .ok items) :
    readElements read (count + 1) (element ++ bytes) = .ok (v :: items) := by
  rw [readElements, splitElement?_append helement]
  change (do
    let value ← read cell
    return value :: (← readElements read count bytes)) = _
  rw [hfirst, hrest]
  rfl

theorem bind_bool_eq_ok_iff {b : Bool} {cell : Option (List UInt8)} :
    (Value.bool b).bind type = .ok cell ↔
      type = .scalar .bool ∧ cell = some [if b then 1 else 0] := by
  simp only [bind]
  split
  · simp [eq_comm]
  · next hne =>
    simp only [reduceCtorEq, false_iff]
    rintro ⟨rfl, -⟩
    exact hne rfl

theorem bind_array_eq_ok_iff {items : List Value} {cell : Option (List UInt8)} :
    (Value.array items).bind type = .ok cell ↔
      ∃ name number element, type = .array name number element ∧ items.length < 0x80000000 ∧
        ∃ bytes, bindItems items element = .ok bytes ∧
          cell = some (arrayHeader element (items.any isNull) items.length ++ bytes) := by
  simp only [bind]
  split
  · next name number element =>
    split
    · next hlength =>
      simp only [bind_eq_ok_iff, pure_eq_ok_iff, PgType.array.injEq]
      constructor
      · rintro ⟨bytes, hbytes, rfl⟩
        exact ⟨name, number, element, ⟨rfl, rfl, rfl⟩, hlength, bytes, hbytes, rfl⟩
      · rintro ⟨_, _, _, ⟨rfl, rfl, rfl⟩, -, bytes, hbytes, rfl⟩
        exact ⟨bytes, hbytes, rfl⟩
    · next hlength =>
      simp only [reduceCtorEq, false_iff]
      rintro ⟨_, _, _, -, hless, -⟩
      exact hlength hless
  · next hne =>
    simp only [reduceCtorEq, false_iff]
    rintro ⟨name, number, element, rfl, -⟩
    exact hne name number element rfl

/-- Nothing but NULL is bound without bytes. -/
theorem eq_null_of_bind {v : Value} (h : v.bind type = .ok none) : v = .null := by
  cases v with
  | null => rfl
  | bool b => simp [bind_bool_eq_ok_iff] at h
  | array items => simp [bind_array_eq_ok_iff] at h
  | _ => simp [bind, map_eq_ok_iff] at h

mutual

/-- What is bound is read back in the form of its column. -/
theorem ofCell_of_bind {v : Value} {type : PgType} {cell : Option (List UInt8)}
    (hv : v.Exact type) (htype : type.Exact) (h : v.bind type = .ok cell) :
    ofCell type cell = .ok (v.canonical type) := by
  match v, hv, h with
  | .null, _, h =>
    obtain rfl := Except.ok.inj h
    rw [ofCell_none, canonical]
    all_goals simp
  | .bool b, _, h =>
    obtain ⟨rfl, rfl⟩ := bind_bool_eq_ok_iff.1 h
    cases b <;> rfl
  | .int i, _, h =>
    obtain ⟨bytes, hbytes, rfl⟩ := map_eq_ok_iff.1 h
    rw [canonical]
    exact ofCell_bindInt htype hbytes
  | .decimal d, _, h =>
    obtain ⟨bytes, hbytes, rfl⟩ := map_eq_ok_iff.1 h
    rw [canonical]
    exact ofCell_bindDecimal htype hbytes
  | .text s, hv, h =>
    obtain ⟨bytes, hbytes, rfl⟩ := map_eq_ok_iff.1 h
    rw [canonical]
    exact ofCell_bindText hv htype hbytes
  | .timestamp t, hv, h =>
    obtain ⟨bytes, hbytes, rfl⟩ := map_eq_ok_iff.1 h
    rw [Exact] at hv
    rw [canonical]
    exact ofCell_bindInstant hv htype hbytes
  | .json document, hv, h =>
    obtain ⟨bytes, hbytes, rfl⟩ := map_eq_ok_iff.1 h
    rw [canonical]
    exact ofCell_bindJson hv htype hbytes
  | .float x, hv, _ =>
    rw [Exact] at hv
    exact hv.elim
  | .raw s, hv, _ =>
    rw [Exact] at hv
    exact hv.elim
  | .array items, hv, h =>
    obtain ⟨name, number, element, rfl, hlength, bytes, hbytes, rfl⟩ := bind_array_eq_ok_iff.1 h
    rw [Exact] at hv
    have hread := readElements_bindItems hv htype.2 hbytes
    rw [canonical]
    exact ofCell_arrayHeader_append hlength hread name number

theorem readElements_bindItems {items : List Value} {type : PgType} {bytes : List UInt8}
    (hitems : ExactItems items type) (htype : type.Exact) (h : bindItems items type = .ok bytes) :
    readElements (ofCell type) items.length bytes = .ok (canonicalItems items type) := by
  match items, hitems, h with
  | [], _, h =>
    obtain rfl := Except.ok.inj h
    rfl
  | v :: rest, hitems, h =>
    rw [ExactItems] at hitems
    simp only [bindItems, bind_eq_ok_iff, pure_eq_ok_iff] at h
    obtain ⟨cell, hcell, element, helement, others, hothers, rfl⟩ := h
    have hfirst := ofCell_of_bind hitems.1 htype hcell
    have hrest := readElements_bindItems hitems.2 htype hothers
    rw [List.length_cons, canonicalItems]
    exact readElements_append helement hfirst hrest

end

/-- What is bound is read back in the form of its column; only NULL is bound without bytes. -/
theorem ofCell_bind {v : Value} {type : PgType} {cell : Option (List UInt8)} (hv : v.Exact type)
    (htype : type.Exact) (h : v.bind type = .ok cell) :
    (cell = none ↔ v = .null) ∧ ofCell type cell = .ok (v.canonical type) := by
  refine ⟨⟨?_, ?_⟩, ofCell_of_bind hv htype h⟩
  · rintro rfl
    exact eq_null_of_bind h
  · rintro rfl
    exact (Except.ok.inj h).symm

/-- The elements of an array become texts, but NULL stays what it is. -/
theorem ofCell_bind_texts :
    let type : PgType := .array "_text" 1009 (.scalar .text)
    let v : Value := .array [.int 7, .null, .text "x"]
    let bytes : List UInt8 := [0, 0, 0, 1, 0, 0, 0, 1, 0, 0, 0, 25, 0, 0, 0, 3, 0, 0, 0, 1,
      0, 0, 0, 1, 55, 255, 255, 255, 255, 0, 0, 0, 1, 120]
    v.Exact type ∧ type.Exact ∧ v.bind type = .ok (some bytes) ∧
      ofCell type (some bytes) = .ok (.array [.text "7", .null, .text "x"]) := by
  intro type v bytes
  have hv : v.Exact type := ⟨trivial, trivial, trivial, trivial⟩
  have htype : type.Exact := ⟨by decide, trivial⟩
  have hbind : v.bind type = .ok (some bytes) := rfl
  exact ⟨hv, htype, hbind, (ofCell_bind hv htype hbind).2⟩

/-- What else is bound and not read back: a document that is nested too deep, a number that is
missed by its last place when it is read from its digits, and a text for an array type with the name
of a text type. -/
theorem ofCell_bind_fails :
    ((Value.json (Json.nested 127)).bind (.scalar .json) =
        .ok (some (documentBytes false (Json.nested 127))) ∧
      ofCell (.scalar .json) (some (documentBytes false (Json.nested 127))) = .error .malformed) ∧
    ((Value.json (.number (.float ⟨0x402bdc545d6b4b83⟩))).bind (.scalar .json) =
        .ok (some (documentBytes false (.number (.float ⟨0x402bdc545d6b4b83⟩)))) ∧
      ofCell (.scalar .json) (some (documentBytes false (.number (.float ⟨0x402bdc545d6b4b83⟩)))) =
        .ok (.json (.number (.float ⟨0x402bdc545d6b4b82⟩)))) ∧
    ((Value.text "a").bind (.array "citext" 90004 (.scalar .text)) = .ok (some [97]) ∧
      ofCell (.array "citext" 90004 (.scalar .text)) (some [97]) = .error .malformed) := by
  have hread : ∀ document : Json, ofCell (.scalar .json) (some (documentBytes false document)) =
      Value.json <$> orMalformed (Json.parse? document.text) := by
    intro document
    change Value.json <$> orMalformed (readText (textBytes document.text) >>= Json.parse?) = _
    rw [readText_textBytes]
    rfl
  refine ⟨⟨rfl, ?_⟩, ⟨rfl, ?_⟩, rfl, rfl⟩
  · rw [hread, Json.parse?_text_nested (by decide)]
    rfl
  · have hparse : Json.parse? (Json.number (.float ⟨0x402bdc545d6b4b83⟩)).text =
        some (.number (.float ⟨0x402bdc545d6b4b82⟩)) := by
      refine Json.parse?_of_readNumber ?_
      rw [Json.text, String.toList_ofList]
      decide +kernel
    rw [hread, hparse]
    rfl

end Value

end PgToolkit
