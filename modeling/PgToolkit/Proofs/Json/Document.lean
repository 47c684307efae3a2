import PgToolkit.Json.Parser
import PgToolkit.Json.Printer
import PgToolkit.Proofs.Json.Number
import PgToolkit.Proofs.Text.Hex

/-!
# Documents read back

A document is read back from its text when it is not nested too deep and its numbers are read back
from theirs. The reader leaves what stands behind the document alone, so the items of an array and
the fields of an object are read back one after the other.
-/

namespace PgToolkit

namespace Json

/-! ### Strings -/

/-- A control character is read back from its number. -/
theorem readUnicode_control {c : Char} (h : c.toNat < 32) (rest : List Char) :
    readUnicode ('0' :: '0' :: Text.hexDigit (c.toNat / 16) :: Text.hexDigit (c.toNat % 16) ::
      rest) = some (c, rest) := by
  have hzero : Text.hexValue? '0' = some 0 := by decide
  have hunit : ((0 * 16 + 0) * 16 + c.toNat / 16) * 16 + c.toNat % 16 = c.toNat := by omega
  have hlow : ¬(0xDC00 ≤ c.toNat && c.toNat ≤ 0xDFFF) := by simp; omega
  have hhigh : ¬(0xD800 ≤ c.toNat && c.toNat ≤ 0xDBFF) := by simp; omega
  simp only [readUnicode, readUnit, hzero,
    Text.hexValue?_hexDigit (Nat.mod_lt c.toNat (by decide)),
    Text.hexValue?_hexDigit (n := c.toNat / 16) (by omega), Option.bind_eq_bind, Option.bind_some,
    Option.pure_def, hunit, if_neg hlow, if_neg hhigh, Char.ofNat_toNat]

theorem readString_escape {text rest : List Char} {c : Char}
    (h : readEscape text = some (c, rest)) (steps : Nat) :
    readString (steps + 1) ('\\' :: text) =
      (readString steps rest).map fun (more, rest) => (c :: more, rest) := by
  simp only [readString, h, Option.bind_eq_bind, Option.bind_some]
  cases readString steps rest <;> rfl

theorem readString_plain {c : Char} (hquote : c ≠ '"') (hback : c ≠ '\\') (hplain : ¬c.toNat < 32)
    (steps : Nat) (rest : List Char) :
    readString (steps + 1) (c :: rest) =
      (readString steps rest).map fun (more, rest) => (c :: more, rest) := by
  simp only [readString, if_neg hplain]
  cases readString steps rest <;> rfl

/-- One character of a string is read back in one step. -/
theorem readString_escapedChar (c : Char) (steps : Nat) (rest : List Char) :
    readString (steps + 1) (escapedChar c ++ rest) =
      (readString steps rest).map fun (more, rest) => (c :: more, rest) := by
  by_cases hquote : c = '"'
  · subst hquote
    exact readString_escape rfl steps
  by_cases hback : c = '\\'
  · subst hback
    exact readString_escape rfl steps
  by_cases hbackspace : c = '\x08'
  · subst hbackspace
    exact readString_escape rfl steps
  by_cases hfeed : c = '\x0c'
  · subst hfeed
    exact readString_escape rfl steps
  by_cases hline : c = '\n'
  · subst hline
    exact readString_escape rfl steps
  by_cases hreturn : c = '\r'
  · subst hreturn
    exact readString_escape rfl steps
  by_cases htab : c = '\t'
  · subst htab
    exact readString_escape rfl steps
  rw [escapedChar, if_neg hquote, if_neg hback, if_neg hbackspace, if_neg hfeed, if_neg hline,
    if_neg hreturn, if_neg htab]
  by_cases hcontrol : c.toNat < 32
  · rw [if_pos hcontrol]
    have hread : readEscape ('u' :: '0' :: '0' :: Text.hexDigit (c.toNat / 16) ::
        Text.hexDigit (c.toNat % 16) :: rest) = some (c, rest) := readUnicode_control hcontrol rest
    exact readString_escape hread steps
  · rw [if_neg hcontrol]
    exact readString_plain hquote hback hcontrol steps rest

theorem readString_flatMap (text : List Char) {steps : Nat} (rest : List Char)
    (h : text.length < steps) :
    readString steps (text.flatMap escapedChar ++ '"' :: rest) = some (text, rest) := by
  induction text generalizing steps with
  | nil =>
    obtain ⟨steps, rfl⟩ := Nat.exists_eq_succ_of_ne_zero (Nat.pos_iff_ne_zero.1 h)
    rfl
  | cons c text ih =>
    obtain ⟨steps, rfl⟩ := Nat.exists_eq_succ_of_ne_zero (Nat.ne_zero_of_lt h)
    rw [List.flatMap_cons, List.append_assoc, readString_escapedChar,
      ih (by simpa using h)]
    rfl

theorem length_le_flatMap_escapedChar (text : List Char) :
    text.length ≤ (text.flatMap escapedChar).length := by
  induction text with
  | nil => exact Nat.le_refl 0
  | cons c text ih =>
    have hpos : 0 < (escapedChar c).length := by
      unfold escapedChar
      repeat' split
      all_goals exact Nat.succ_pos _
    rw [List.flatMap_cons, List.length_append, List.length_cons]
    omega

/-- A string is read back, whatever stands behind it. -/
theorem readQuoted_stringText (s : String) (rest : List Char) :
    readQuoted (stringText s ++ rest) = some (s, rest) := by
  have hlength := length_le_flatMap_escapedChar s.toList
  have hread : readString ((s.toList.flatMap escapedChar ++ '"' :: rest).length + 1)
      (s.toList.flatMap escapedChar ++ '"' :: rest) = some (s.toList, rest) :=
    readString_flatMap s.toList rest (by rw [List.length_append]; omega)
  simp only [stringText, List.cons_append, List.append_assoc, List.nil_append, readQuoted, hread,
    Option.bind_eq_bind, Option.bind_some, String.ofList_toList]
  rfl

/-! ### Documents that a reader accepts -/

mutual

/-- A document whose arrays and objects are nested less than `levels` deep, whose names stand once
each, in order, and whose numbers are of a kind. -/
def Within (kind : JsonNumber → Prop) (levels : Nat) : Json → Prop
  | .null => True
  | .bool _ => True
  | .number n => kind n
  | .string _ => True
  | .array items => 1 < levels ∧ WithinItems kind (levels - 1) items
  | .object fields =>
    1 < levels ∧ fields.Pairwise (·.1 < ·.1) ∧ WithinFields kind (levels - 1) fields

/-- The items of such an array. -/
def WithinItems (kind : JsonNumber → Prop) (levels : Nat) : List Json → Prop
  | [] => True
  | item :: rest => Within kind levels item ∧ WithinItems kind levels rest

/-- The fields of such an object. -/
def WithinFields (kind : JsonNumber → Prop) (levels : Nat) : List (String × Json) → Prop
  | [] => True
  | (_, value) :: rest => Within kind levels value ∧ WithinFields kind levels rest

end

/-- The characters that a document begins with. -/
def Start (c : Char) : Prop :=
  c ∈ ['n', 't', 'f', '"', '[', '\x7b', '-'] ∨ c.isDigit = true

instance (c : Char) : Decidable (Start c) := inferInstanceAs (Decidable (_ ∨ _))

theorem Start.ne {c d : Char} (h : Start c) (hd : ¬Start d) : c ≠ d :=
  fun heq => hd (heq ▸ h)

theorem start_of_readNumber {text : List Char} {read : JsonNumber × List Char}
    (h : readNumber text = some read) :
    ∃ c rest, text = c :: rest ∧ (c = '-' ∨ c.isDigit = true) := by
  cases text with
  | nil => simp [readNumber, readUnsigned] at h
  | cons c rest =>
    refine ⟨c, rest, rfl, ?_⟩
    by_cases hminus : c = '-'
    · exact .inl hminus
    · refine .inr ?_
      by_contra hdigit
      have hnone : readNumber (c :: rest) = none := by
        simp_all [readNumber, readUnsigned]
      rw [hnone] at h
      cases h

theorem exists_start {levels : Nat} {j : Json} (h : Within JsonNumber.Legible levels j) :
    ∃ c rest, j.chars = c :: rest ∧ Start c := by
  cases j with
  | null => exact ⟨'n', _, rfl, .inl (by decide)⟩
  | bool b => cases b with
    | true => exact ⟨'t', _, rfl, .inl (by decide)⟩
    | false => exact ⟨'f', _, rfl, .inl (by decide)⟩
  | number n =>
    rw [Within] at h
    obtain ⟨c, rest, htext, hc⟩ := start_of_readNumber h.readNumber_numberText
    refine ⟨c, rest, by rw [chars, htext], ?_⟩
    rcases hc with rfl | hdigit
    · exact .inl (by decide)
    · exact .inr hdigit
  | string s => exact ⟨'"', _, by rw [chars, stringText], .inl (by decide)⟩
  | array items => exact ⟨'[', _, by rw [chars], .inl (by decide)⟩
  | object fields => exact ⟨'\x7b', _, by rw [chars], .inl (by decide)⟩

theorem Start.skipBlanks_eq {c : Char} (h : Start c) (rest : List Char) :
    skipBlanks (c :: rest) = c :: rest := by
  have hblank : (c = ' ' || c = '\n' || c = '\t' || c = '\r') = false := by
    simp [h.ne (d := ' ') (by decide), h.ne (d := '\n') (by decide), h.ne (d := '\t') (by decide),
      h.ne (d := '\r') (by decide)]
  rw [skipBlanks, List.dropWhile_cons_of_neg (by simp [hblank])]

/-! ### Fields -/

theorem insertField_of_last {name : String} {value : Json} {sorted : List (String × Json)}
    (h : ∀ field ∈ sorted, field.1 < name) :
    insertField name value sorted = sorted ++ [(name, value)] := by
  induction sorted with
  | nil => rfl
  | cons field rest ih =>
    obtain ⟨other, old⟩ := field
    have hless : other < name := h (other, old) List.mem_cons_self
    have hne : name ≠ other := fun heq => String.lt_irrefl _ (heq ▸ hless)
    rw [insertField, if_neg hne, if_neg (String.lt_asymm hless),
      ih fun field hfield => h field (List.mem_cons_of_mem _ hfield), List.cons_append]

theorem ofFields_of_pairwise {fields : List (String × Json)}
    (h : fields.Pairwise (·.1 < ·.1)) : ofFields fields = .object fields := by
  have hfold : ∀ rest sorted : List (String × Json), (sorted ++ rest).Pairwise (·.1 < ·.1) →
      rest.foldl (fun sorted field => insertField field.1 field.2 sorted) sorted =
        sorted ++ rest := by
    intro rest
    induction rest with
    | nil => intro sorted _; rw [List.foldl_nil, List.append_nil]
    | cons field rest ih =>
      intro sorted hsorted
      obtain ⟨name, value⟩ := field
      have hlast : ∀ other ∈ sorted, other.1 < name := fun other hother =>
        (List.pairwise_append.1 hsorted).2.2 other hother (name, value) List.mem_cons_self
      simp only [List.foldl_cons]
      rw [insertField_of_last hlast, ih _ (by simpa using hsorted), List.append_assoc,
        List.singleton_append]
  exact congrArg Json.object (hfold fields [] h)

/-! ### Documents -/

variable {levels steps : Nat} {rest : List Char}

theorem readWord_append (word : String) (rest : List Char) :
    readWord word (word.toList ++ rest) = some rest := by
  rw [readWord, if_pos (List.isPrefixOf_iff_prefix.2 (List.prefix_append ..)),
    List.drop_left' String.length_toList]

theorem readValue_of_readNumber {text : List Char} {n : JsonNumber}
    (h : readNumber text = some (n, rest)) :
    readValue (steps + 1) levels text = some (.number n, rest) := by
  obtain ⟨c, tail, rfl, hc⟩ := start_of_readNumber h
  have hne : ∀ d, ¬(d = '-' ∨ d.isDigit = true) → c ≠ d := fun d hd heq => hd (heq ▸ hc)
  -- no other document begins like a number
  rw [readValue, h]
  · rfl
  all_goals exact fun _ heq => hne _ (by decide) (List.cons.inj heq).1

theorem readValue_array {text : List Char} {items : List Json} (hlevels : 1 < levels)
    (hstart : ∃ c tail, text = c :: tail ∧ Start c)
    (h : readItems steps (levels - 1) text = some (items, rest)) :
    readValue (steps + 1) levels ('[' :: text) = some (.array items, rest) := by
  obtain ⟨c, tail, rfl, hc⟩ := hstart
  simp only [readValue, if_neg (Nat.not_le_of_lt hlevels), hc.skipBlanks_eq]
  split
  · exact absurd (List.cons.inj ‹_›).1 (hc.ne (by decide))
  · rw [h]
    rfl

theorem readValue_object {text : List Char} {fields : List (String × Json)} (hlevels : 1 < levels)
    (hstart : ∃ c tail, text = c :: tail ∧ Start c)
    (h : readFields steps (levels - 1) text = some (fields, rest)) :
    readValue (steps + 1) levels ('\x7b' :: text) = some (ofFields fields, rest) := by
  obtain ⟨c, tail, rfl, hc⟩ := hstart
  simp only [readValue, if_neg (Nat.not_le_of_lt hlevels), hc.skipBlanks_eq]
  split
  · exact absurd (List.cons.inj ‹_›).1 (hc.ne (by decide))
  · rw [h]
    rfl

theorem readItems_last {text : List Char} {item : Json}
    (h : readValue steps levels text = some (item, ']' :: rest)) :
    readItems (steps + 1) levels text = some ([item], rest) := by
  rw [readItems, h]
  rfl

theorem readItems_cons {text more : List Char} {item : Json} {items : List Json}
    (h : readValue steps levels text = some (item, ',' :: more)) (hmore : skipBlanks more = more)
    (hitems : readItems steps levels more = some (items, rest)) :
    readItems (steps + 1) levels text = some (item :: items, rest) := by
  rw [readItems, h]
  change (readItems steps levels (skipBlanks more)).bind _ = _
  rw [hmore, hitems]
  rfl

theorem readFields_last {text : List Char} {name : String} {value : Json}
    (hstart : ∃ c tail, text = c :: tail ∧ Start c)
    (h : readValue steps levels text = some (value, '\x7d' :: rest)) :
    readFields (steps + 1) levels (stringText name ++ ':' :: text) =
      some ([(name, value)], rest) := by
  obtain ⟨c, tail, rfl, hc⟩ := hstart
  rw [readFields, readQuoted_stringText]
  change (readValue steps levels (skipBlanks (c :: tail))).bind _ = _
  rw [hc.skipBlanks_eq, h]
  rfl

theorem readFields_cons {text more : List Char} {name : String} {value : Json}
    {fields : List (String × Json)} (hstart : ∃ c tail, text = c :: tail ∧ Start c)
    (h : readValue steps levels text = some (value, ',' :: more)) (hmore : skipBlanks more = more)
    (hfields : readFields steps levels more = some (fields, rest)) :
    readFields (steps + 1) levels (stringText name ++ ':' :: text) =
      some ((name, value) :: fields, rest) := by
  obtain ⟨c, tail, rfl, hc⟩ := hstart
  rw [readFields, readQuoted_stringText]
  change (readValue steps levels (skipBlanks (c :: tail))).bind _ = _
  rw [hc.skipBlanks_eq, h]
  change (readFields steps levels (skipBlanks more)).bind _ = _
  rw [hmore, hfields]
  rfl

theorem exists_start_append {levels : Nat} {j : Json} (h : Within JsonNumber.Legible levels j)
    (rest : List Char) : ∃ c tail, j.chars ++ rest = c :: tail ∧ Start c := by
  obtain ⟨c, tail, hchars, hc⟩ := exists_start h
  exact ⟨c, tail ++ rest, by rw [hchars, List.cons_append], hc⟩

theorem itemChars_cons {item : Json} {items : List Json} (h : items ≠ []) :
    itemChars (item :: items) = item.chars ++ ',' :: itemChars items := by
  obtain ⟨next, others, rfl⟩ := List.exists_cons_of_ne_nil h
  simp only [itemChars]

theorem fieldChars_cons {name : String} {value : Json} {fields : List (String × Json)}
    (h : fields ≠ []) : fieldChars ((name, value) :: fields) =
      stringText name ++ ':' :: (value.chars ++ ',' :: fieldChars fields) := by
  obtain ⟨⟨next, old⟩, others, rfl⟩ := List.exists_cons_of_ne_nil h
  simp only [fieldChars]

theorem exists_start_items {items : List Json} (h : WithinItems JsonNumber.Legible levels items)
    (hne : items ≠ []) (rest : List Char) :
    ∃ c tail, itemChars items ++ rest = c :: tail ∧ Start c := by
  obtain ⟨item, others, rfl⟩ := List.exists_cons_of_ne_nil hne
  rw [WithinItems] at h
  by_cases hlast : others = []
  · subst hlast
    rw [itemChars]
    exact exists_start_append h.1 rest
  · rw [itemChars_cons hlast, List.append_assoc]
    exact exists_start_append h.1 _

theorem exists_start_fields {fields : List (String × Json)} (hne : fields ≠ [])
    (rest : List Char) : ∃ c tail, fieldChars fields ++ rest = c :: tail ∧ Start c := by
  obtain ⟨⟨name, value⟩, others, rfl⟩ := List.exists_cons_of_ne_nil hne
  cases others <;> exact ⟨'"', _, rfl, by decide⟩

/-- Documents are read back with `steps` steps, whatever stands behind them. -/
def ValuesRead (steps : Nat) : Prop :=
  ∀ (j : Json) (levels : Nat) (rest : List Char), 2 * j.chars.length + 1 ≤ steps →
    Within JsonNumber.Legible levels j → Ends rest →
      readValue steps levels (j.chars ++ rest) = some (j, rest)

/-- The items of an array are read back with `steps` steps. -/
def ItemsRead (steps : Nat) : Prop :=
  ∀ (items : List Json) (levels : Nat) (rest : List Char), items ≠ [] →
    2 * (itemChars items).length + 2 ≤ steps → WithinItems JsonNumber.Legible levels items →
    readItems steps levels (itemChars items ++ ']' :: rest) = some (items, rest)

/-- The fields of an object are read back with `steps` steps. -/
def FieldsRead (steps : Nat) : Prop :=
  ∀ (fields : List (String × Json)) (levels : Nat) (rest : List Char), fields ≠ [] →
    2 * (fieldChars fields).length + 2 ≤ steps → WithinFields JsonNumber.Legible levels fields →
    readFields steps levels (fieldChars fields ++ '\x7d' :: rest) = some (fields, rest)

theorem valuesRead_succ (hitems : ItemsRead steps) (hfields : FieldsRead steps) :
    ValuesRead (steps + 1) := by
  intro j levels rest hsteps hj hends
  cases j with
  | null =>
    change (readWord "null" ("null".toList ++ rest)).map _ = _
    rw [readWord_append]
    rfl
  | bool b =>
    cases b with
    | true =>
      change (readWord "true" ("true".toList ++ rest)).map _ = _
      rw [readWord_append]
      rfl
    | false =>
      change (readWord "false" ("false".toList ++ rest)).map _ = _
      rw [readWord_append]
      rfl
  | number n =>
    rw [Within] at hj
    rw [chars]
    exact readValue_of_readNumber (readNumber_append hends hj.readNumber_numberText)
  | string s =>
    change (readQuoted (stringText s ++ rest)).map _ = _
    rw [readQuoted_stringText]
    rfl
  | array items =>
    rw [Within] at hj
    rw [chars, List.length_cons, List.length_append] at hsteps
    rw [chars, List.cons_append, List.append_assoc, List.singleton_append]
    by_cases hne : items = []
    · subst hne
      simp only [itemChars, readValue, if_neg (Nat.not_le_of_lt hj.1)]
      rfl
    · exact readValue_array hj.1 (exists_start_items hj.2 hne _)
        (hitems items _ rest hne (by omega) hj.2)
  | object fields =>
    rw [Within] at hj
    rw [chars, List.length_cons, List.length_append] at hsteps
    rw [chars, List.cons_append, List.append_assoc, List.singleton_append]
    by_cases hne : fields = []
    · subst hne
      simp only [fieldChars, readValue, if_neg (Nat.not_le_of_lt hj.1)]
      rfl
    · rw [← ofFields_of_pairwise hj.2.1]
      exact readValue_object hj.1 (exists_start_fields hne _)
        (hfields fields _ rest hne (by omega) hj.2.2)

theorem itemsRead_succ (hvalues : ValuesRead steps) (hitems : ItemsRead steps) :
    ItemsRead (steps + 1) := by
  intro items levels rest hne hsteps hlegible
  obtain ⟨item, others, rfl⟩ := List.exists_cons_of_ne_nil hne
  rw [WithinItems] at hlegible
  by_cases hlast : others = []
  · subst hlast
    rw [itemChars] at hsteps ⊢
    exact readItems_last
      (hvalues item levels _ (by omega) hlegible.1 (ends_cons (by decide) rest))
  · rw [itemChars_cons hlast] at hsteps ⊢
    rw [List.length_append, List.length_cons] at hsteps
    rw [List.append_assoc, List.cons_append]
    obtain ⟨c, tail, hmore, hc⟩ := exists_start_items hlegible.2 hlast (']' :: rest)
    exact readItems_cons
      (hvalues item levels _ (by omega) hlegible.1 (ends_cons (by decide) _))
      (by rw [hmore, hc.skipBlanks_eq]) (hitems others levels rest hlast (by omega) hlegible.2)

theorem fieldsRead_succ (hvalues : ValuesRead steps) (hfields : FieldsRead steps) :
    FieldsRead (steps + 1) := by
  intro fields levels rest hne hsteps hlegible
  obtain ⟨⟨name, value⟩, others, rfl⟩ := List.exists_cons_of_ne_nil hne
  rw [WithinFields] at hlegible
  by_cases hlast : others = []
  · subst hlast
    rw [fieldChars] at hsteps ⊢
    rw [List.length_append, List.length_cons] at hsteps
    rw [List.append_assoc, List.cons_append]
    exact readFields_last (exists_start_append hlegible.1 _)
      (hvalues value levels _ (by omega) hlegible.1 (ends_cons (by decide) rest))
  · rw [fieldChars_cons hlast] at hsteps ⊢
    rw [List.length_append, List.length_cons, List.length_append, List.length_cons] at hsteps
    rw [List.append_assoc, List.cons_append, List.append_assoc, List.cons_append]
    obtain ⟨c, tail, hmore, hc⟩ := exists_start_fields hlast ('\x7d' :: rest)
    exact readFields_cons (exists_start_append hlegible.1 _)
      (hvalues value levels _ (by omega) hlegible.1 (ends_cons (by decide) _))
      (by rw [hmore, hc.skipBlanks_eq]) (hfields others levels rest hlast (by omega) hlegible.2)

theorem allRead (steps : Nat) : ValuesRead steps ∧ ItemsRead steps ∧ FieldsRead steps := by
  induction steps with
  | zero =>
    refine ⟨fun _ _ _ h => ?_, fun _ _ _ _ h => ?_, fun _ _ _ _ h => ?_⟩ <;> omega
  | succ steps ih =>
    obtain ⟨hvalues, hitems, hfields⟩ := ih
    exact ⟨valuesRead_succ hitems hfields, itemsRead_succ hvalues hitems,
      fieldsRead_succ hvalues hfields⟩

/-- A document that is not nested too deep, and whose numbers are read back, is read back. -/
theorem parse?_text {j : Json} (h : Within JsonNumber.Legible maxDepth j) :
    parse? j.text = some j := by
  obtain ⟨c, tail, hchars, hstart⟩ := exists_start h
  have hblank : skipBlanks j.chars = j.chars := by rw [hchars, hstart.skipBlanks_eq]
  have hread := (allRead (2 * j.chars.length + 2)).1 j maxDepth [] (Nat.le_succ _) h ends_nil
  rw [List.append_nil] at hread
  rw [text, parse?, String.toList_ofList, parseChars?, hblank, hread]
  rfl

/-- A text that is read as a number is a document. -/
theorem parse?_of_readNumber {text : String} {n : JsonNumber}
    (h : readNumber text.toList = some (n, [])) : parse? text = some (.number n) := by
  obtain ⟨c, tail, htext, hc⟩ := start_of_readNumber h
  have hstart : Start c := by
    rcases hc with rfl | hdigit
    · decide
    · exact .inr hdigit
  rw [parse?, parseChars?]
  rw [htext] at h ⊢
  rw [hstart.skipBlanks_eq, readValue_of_readNumber h]
  rfl

/-! ### Documents that are nested too deep -/

/-- An empty array within so many others. -/
def nested : Nat → Json
  | 0 => .array []
  | depth + 1 => .array [nested depth]

theorem chars_nested (depth : Nat) : (nested depth).chars =
    List.replicate (depth + 1) '[' ++ List.replicate (depth + 1) ']' := by
  induction depth with
  | zero => simp [nested, chars, itemChars]
  | succ depth ih =>
    rw [nested, chars, itemChars, ih, List.append_assoc, ← List.replicate_succ',
      ← List.cons_append, ← List.replicate_succ]

theorem readValue_replicate {levels depth : Nat} (steps : Nat) (rest : List Char)
    (hle : levels ≤ depth + 1) :
    readValue steps levels (List.replicate (depth + 1) '[' ++ rest) = none := by
  cases steps with
  | zero => rfl
  | succ steps =>
    induction depth generalizing steps levels with
    | zero =>
      change (if levels ≤ 1 then none else _) = none
      rw [if_pos hle]
    | succ depth ih =>
      rw [List.replicate_succ, List.cons_append, readValue]
      by_cases hflat : levels ≤ 1
      · rw [if_pos hflat]
      · have hitems : readItems steps (levels - 1) (List.replicate (depth + 1) '[' ++ rest) =
            none := by
          cases steps with
          | zero => rfl
          | succ steps =>
            have hlevels : levels - 1 ≤ depth + 1 := by omega
            rw [readItems]
            cases steps with
            | zero => rfl
            | succ steps => rw [ih hlevels]; rfl
        rw [if_neg hflat]
        rw [List.replicate_succ, List.cons_append] at hitems ⊢
        change (readItems steps (levels - 1) _).map _ = none
        rw [hitems]
        rfl

/-- Arrays that are nested as deep as `maxDepth` are refused. -/
theorem parse?_text_nested {depth : Nat} (h : maxDepth ≤ depth + 1) :
    parse? (nested depth).text = none := by
  have hblank : skipBlanks (nested depth).chars = (nested depth).chars := by
    rw [chars_nested]
    rfl
  rw [text, parse?, String.toList_ofList, parseChars?, hblank, chars_nested,
    readValue_replicate _ _ h]
  rfl

end Json

end PgToolkit
