import Mathlib.Data.List.DropRight
import Mathlib.Tactic.MkIffOfInductiveProp
import PgToolkit.Proofs.Sql.ServerText

/-!
# Array texts

The server reads a text as an array by rules of its own. Items stand between braces, with commas
between them. Blanks around an item are dropped, a quoted item may hold anything, a backslash
takes the meaning from the character behind it, and the word for null without quotes is null. So a
text that is put between braces as it is can be read as other items than those it was made of.
-/

namespace PgToolkit.Sql

/-! ### The server's reading -/

/-- A character that has a meaning of its own in the text of an array. -/
def isArrayMark (c : Char) : Bool :=
  [',', '{', '}', '"', '\\'].contains c

/-- An item without quotes, up to the comma or the brace behind it: its characters, each with
whether it was escaped. -/
def readBare : List Char → Option (List (Char × Bool) × List Char)
  | [] => none
  | c :: rest =>
    if c = ',' ∨ c = '}' then some ([], c :: rest)
    else if c = '\\' then
      match rest with
      | [] => none
      | d :: rest => (readBare rest).map fun read => ((d, true) :: read.1, read.2)
    else if c = '"' ∨ c = '{' then none
    else (readBare rest).map fun read => ((c, false) :: read.1, read.2)

/-- A quoted item, behind its opening quote. -/
def readInQuotes : List Char → Option (List Char × List Char)
  | [] => none
  | c :: rest =>
    if c = '"' then some ([], rest)
    else if c = '\\' then
      match rest with
      | [] => none
      | d :: rest => (readInQuotes rest).map fun read => (d :: read.1, read.2)
    else (readInQuotes rest).map fun read => (c :: read.1, read.2)

/-- An item without quotes, but for the blanks at its end. -/
def trimmedBare (characters : List (Char × Bool)) : List (Char × Bool) :=
  characters.rdropWhile fun c => isSpace c.1 && !c.2

/-- What an item without quotes stands for: null, or its characters. It has at least one. -/
def bareItem (characters : List (Char × Bool)) : Option (Option (List Char)) :=
  if characters = [] then none
  else if characters.all (!·.2) ∧ characters.map (·.1.toLower) = "null".toList then some none
  else some (some (characters.map (·.1)))

/-- The item at the beginning of a text, and what is behind it; null is `none`. -/
def readItem (text : List Char) : Option (Option (List Char) × List Char) :=
  match text.dropWhile isSpace with
  | [] => none
  | c :: rest =>
    if c = '"' then (readInQuotes rest).map fun read => (some read.1, read.2.dropWhile isSpace)
    else do
      let (characters, behind) ← readBare (c :: rest)
      return (← bareItem (trimmedBare characters), behind)

/-- A text that stands for itself as an item of an array. -/
@[mk_iff]
structure PlainItem (text : List Char) : Prop where
  ne_nil : text ≠ []
  no_mark : ∀ c ∈ text, isArrayMark c = false
  head_not_space : ∀ c ∈ text.head?, isSpace c = false
  last_not_space : ∀ c ∈ text.getLast?, isSpace c = false
  not_null : text.map Char.toLower ≠ "null".toList

instance (text : List Char) : Decidable (PlainItem text) :=
  decidable_of_iff (text ≠ [] ∧ text.all (!isArrayMark ·) ∧ text.head?.all (!isSpace ·) ∧
      text.getLast?.all (!isSpace ·) ∧ text.map Char.toLower ≠ "null".toList) (by
    simp only [List.all_eq_true, Option.all_eq_true, Option.mem_def, Bool.not_eq_true',
      plainItem_iff])

variable {text behind : List Char} {characters : List (Char × Bool)} {item : Option (List Char)}

/-! ### Items and what they are read from -/

theorem exists_of_map_cons {α β : Type} {read? : Option (List α × β)} {first : α} {items : List α}
    {behind : β} (h : (read?.map fun read => (first :: read.1, read.2)) = some (items, behind)) :
    ∃ rest, read? = some (rest, behind) ∧ items = first :: rest := by
  obtain ⟨⟨rest, last⟩, hread, heq⟩ := Option.map_eq_some_iff.1 h
  obtain ⟨hitems, hbehind⟩ := Prod.mk.inj heq
  exact ⟨rest, hbehind ▸ hread, hitems.symm⟩

/-- Without quotes, an item is what it was read from, or shorter. -/
theorem readBare_cases (h : readBare text = some (characters, behind)) :
    (text = characters.map (·.1) ++ behind ∧
      ∀ c ∈ characters, c.2 = false ∧ isArrayMark c.1 = false) ∨
    characters.length + behind.length < text.length := by
  fun_induction readBare text generalizing characters with
  | case1 => cases h
  | case2 c rest hend =>
    obtain ⟨rfl, rfl⟩ := Prod.mk.inj (Option.some.inj h)
    exact .inl ⟨rfl, by simp⟩
  | case3 => cases h
  | case4 d rest hend ih =>
    obtain ⟨read, hread, rfl⟩ := exists_of_map_cons h
    right
    rcases ih hread with ⟨rfl, -⟩ | hlt
    · simp
      omega
    · simp only [List.length_cons]
      omega
  | case5 => cases h
  | case6 c rest hend hescape hopen ih =>
    obtain ⟨read, hread, rfl⟩ := exists_of_map_cons h
    rcases ih hread with ⟨rfl, hplain⟩ | hlt
    · refine .inl ⟨rfl, List.forall_mem_cons.2 ⟨⟨rfl, ?_⟩, hplain⟩⟩
      rw [not_or] at hend hopen
      simp [isArrayMark, hend, hescape, hopen]
    · right
      simp only [List.length_cons]
      omega

theorem length_lt_of_readInQuotes {content : List Char}
    (h : readInQuotes text = some (content, behind)) :
    content.length + behind.length < text.length := by
  fun_induction readInQuotes text generalizing content with
  | case1 => cases h
  | case2 =>
    obtain ⟨rfl, rfl⟩ := Prod.mk.inj (Option.some.inj h)
    simp
  | case3 => cases h
  | case4 d rest hquote ih =>
    obtain ⟨read, hread, rfl⟩ := exists_of_map_cons h
    have hlt := ih hread
    simp only [List.length_cons]
    omega
  | case5 c rest hquote hescape ih =>
    obtain ⟨read, hread, rfl⟩ := exists_of_map_cons h
    have hlt := ih hread
    simp only [List.length_cons]
    omega

theorem trimmedBare_cases (characters : List (Char × Bool)) :
    trimmedBare characters = characters ∨
      (trimmedBare characters).length < characters.length := by
  obtain heq | hne := eq_or_ne (trimmedBare characters) characters
  · exact .inl heq
  · have hbegins : trimmedBare characters <+: characters := List.rdropWhile_prefix _ _
    refine .inr (lt_of_le_of_ne hbegins.length_le fun hlength => ?_)
    exact hne (hbegins.eq_of_length hlength)

/-- What an item without quotes stands for, when nothing in it was escaped and no blank dropped. -/
theorem plainItem_of_bareItem {content : List Char}
    (hplain : ∀ c ∈ characters, c.2 = false ∧ isArrayMark c.1 = false)
    (hhead : ∀ c ∈ characters.head?, isSpace c.1 = false)
    (htrimmed : trimmedBare characters = characters)
    (h : bareItem characters = some (some content)) :
    content = characters.map (·.1) ∧ PlainItem content := by
  unfold bareItem at h
  split at h
  · cases h
  split at h
  · cases h
  next hne hnull =>
  obtain rfl := Option.some.inj (Option.some.inj h)
  refine ⟨rfl, by simpa using hne, ?_, ?_, ?_, ?_⟩
  · rw [List.forall_mem_map]
    exact fun c hc => (hplain c hc).2
  · intro c hc
    rw [List.head?_map, Option.mem_def, Option.map_eq_some_iff] at hc
    obtain ⟨first, hfirst, rfl⟩ := hc
    exact hhead first hfirst
  · intro c hc
    rw [List.getLast?_map, Option.mem_def, Option.map_eq_some_iff] at hc
    obtain ⟨last, hlast, rfl⟩ := hc
    have hlast' := List.rdropWhile_eq_self_iff.1 htrimmed hne
    rw [List.getLast?_eq_some_getLast hne, Option.some_inj] at hlast
    rw [hlast] at hlast'
    simpa [(hplain last (hlast ▸ List.getLast_mem hne)).1] using hlast'
  · intro hword
    rw [List.map_map] at hword
    refine hnull ⟨List.all_eq_true.2 fun c hc => ?_, hword⟩
    rw [(hplain c hc).1]
    rfl

theorem length_bareItem (h : bareItem characters = some item) :
    characters ≠ [] ∧ (item.getD []).length ≤ characters.length := by
  unfold bareItem at h
  split at h
  · cases h
  next hne =>
  refine ⟨hne, ?_⟩
  split at h
  · obtain rfl := Option.some.inj h
    simp
  · obtain rfl := Option.some.inj h
    simp

/-- An item without quotes, in front of which there is no blank. -/
theorem bare_cases (hhead : ∀ c ∈ text.head?, isSpace c = false)
    (hread : readBare text = some (characters, behind))
    (hitem : bareItem (trimmedBare characters) = some item) :
    (∃ content, item = some content ∧ text = content ++ behind ∧ PlainItem content) ∨
      (item.getD []).length + behind.length < text.length := by
  obtain ⟨hne, hlength⟩ := length_bareItem hitem
  rcases trimmedBare_cases characters with htrimmed | hshorter
  · rw [htrimmed] at hitem hne hlength
    rcases readBare_cases hread with ⟨rfl, hplain⟩ | hlt
    · cases item with
      | none =>
        have hpos := List.length_pos_iff.2 hne
        right
        simp
        omega
      | some content =>
        obtain ⟨first, rest, rfl⟩ := List.exists_cons_of_ne_nil hne
        have hfirst : ∀ c ∈ (first :: rest).head?, isSpace c.1 = false := by
          rintro c ⟨⟩
          exact hhead _ rfl
        obtain ⟨rfl, hcontent⟩ := plainItem_of_bareItem hplain hfirst htrimmed hitem
        exact .inl ⟨_, rfl, rfl, hcontent⟩
    · right
      omega
  · right
    rcases readBare_cases hread with ⟨rfl, -⟩ | hlt
    · rw [List.length_append, List.length_map]
      omega
    · omega

/-- An item stands for itself, or for less than what it was read from. -/
theorem readItem_cases (h : readItem text = some (item, behind)) :
    (∃ content, item = some content ∧ text = content ++ behind ∧ PlainItem content) ∨
      (item.getD []).length + behind.length < text.length := by
  have hsuffix : text.dropWhile isSpace <:+ text := List.dropWhile_suffix _
  have hfirst := List.head?_dropWhile_not isSpace text
  unfold readItem at h
  generalize text.dropWhile isSpace = dropped at h hsuffix hfirst
  split at h
  · cases h
  next c rest =>
  have hle := hsuffix.length_le
  split at h
  · obtain ⟨⟨content, last⟩, hread, heq⟩ := Option.map_eq_some_iff.1 h
    obtain ⟨rfl, rfl⟩ := Prod.mk.inj heq
    have hlt := length_lt_of_readInQuotes hread
    have hblanks := (List.dropWhile_suffix isSpace (l := last)).length_le
    right
    simp only [Option.getD_some, List.length_cons] at hle ⊢
    omega
  · obtain ⟨⟨characters, last⟩, hread, hrest⟩ := Option.bind_eq_some_iff.1 h
    obtain ⟨item', hitem, heq⟩ := Option.bind_eq_some_iff.1 hrest
    cases heq
    have hhead : ∀ d ∈ (c :: rest).head?, isSpace d = false := by
      rintro d ⟨⟩
      exact hfirst
    rcases bare_cases hhead hread hitem with hplain | hlt
    · obtain rfl | hdropped := eq_or_ne (c :: rest) text
      · exact .inl hplain
      · have hlt := lt_of_le_of_ne hle fun hlength => hdropped (hsuffix.eq_of_length hlength)
        obtain ⟨content, rfl, hsame, -⟩ := hplain
        have hsize := congrArg List.length hsame
        rw [List.length_append] at hsize
        right
        simp only [Option.getD_some]
        omega
    · right
      omega

theorem length_le_of_readItem (h : readItem text = some (item, behind)) :
    (item.getD []).length + behind.length ≤ text.length := by
  rcases readItem_cases h with ⟨content, rfl, rfl, -⟩ | hlt
  · simp
  · exact hlt.le

/-! ### Arrays -/

/-- The items up to the brace that ends an array. -/
def readItems (text : List Char) : Option (List (Option (List Char))) :=
  match _hread : readItem text with
  | some (item, c :: rest) =>
    if c = ',' then (readItems rest).map (item :: ·)
    else if c = '}' ∧ rest.all isSpace then some [item]
    else none
  | _ => none
termination_by text.length
decreasing_by
  have hle := length_le_of_readItem _hread
  rw [List.length_cons] at hle
  omega

/-- The items of an array of one dimension, as the server reads them; null is `none`. -/
def readArray (text : List Char) : Option (List (Option (List Char))) :=
  match text.dropWhile isSpace with
  | [] => none
  | c :: rest =>
    if c ≠ '{' then none
    else
      match rest.dropWhile isSpace with
      | [] => none
      | d :: behind =>
        if d ≠ '}' then readItems rest
        else if behind.all isSpace then some []
        else none

/-- What texts need between braces: their characters, and one more behind each of them. -/
def roomFor : List (List Char) → Nat
  | [] => 0
  | part :: parts => part.length + 1 + roomFor parts

@[simp] theorem roomFor_nil : roomFor [] = 0 := rfl

@[simp] theorem roomFor_cons (part : List Char) (parts : List (List Char)) :
    roomFor (part :: parts) = part.length + 1 + roomFor parts := rfl

/-- Items are read from no less than they need, and if they are read from just that, they are
plain. -/
theorem roomFor_le_of_readItems {parts : List (List Char)}
    (h : readItems text = some (parts.map some)) :
    roomFor parts ≤ text.length ∧
      (roomFor parts = text.length → ∀ part ∈ parts, PlainItem part) := by
  fun_induction readItems text generalizing parts with
  | case1 text item rest hread ih =>
    obtain ⟨items, hitems, heq⟩ := Option.map_eq_some_iff.1 h
    obtain ⟨part, others, rfl, rfl, rfl⟩ := List.map_eq_cons_iff.1 heq.symm
    obtain ⟨hroom, hplain⟩ := ih hitems
    have hle := length_le_of_readItem hread
    simp only [Option.getD_some, List.length_cons] at hle
    refine ⟨by rw [roomFor_cons]; omega, fun hexact => ?_⟩
    rw [roomFor_cons] at hexact
    refine List.forall_mem_cons.2 ⟨?_, hplain (by omega)⟩
    rcases readItem_cases hread with ⟨content, hcontent, -, hitem⟩ | hlt
    · exact Option.some.inj hcontent ▸ hitem
    · simp only [Option.getD_some, List.length_cons] at hlt
      omega
  | case2 text item c rest hread hcomma hend =>
    obtain ⟨part, others, rfl, rfl, hnil⟩ := List.map_eq_cons_iff.1 (Option.some.inj h).symm
    obtain rfl := List.map_eq_nil_iff.1 hnil
    have hle := length_le_of_readItem hread
    simp only [Option.getD_some, List.length_cons] at hle
    refine ⟨by rw [roomFor_cons, roomFor_nil]; omega, fun hexact => ?_⟩
    refine List.forall_mem_singleton.2 ?_
    rcases readItem_cases hread with ⟨content, hcontent, -, hitem⟩ | hlt
    · exact Option.some.inj hcontent ▸ hitem
    · simp only [roomFor_cons, roomFor_nil, Option.getD_some, List.length_cons] at hexact hlt
      omega
  | case3 => cases h
  | case4 => cases h

/-! ### Plain items -/

theorem readBare_append {content : List Char} (hcontent : ∀ c ∈ content, isArrayMark c = false)
    {c : Char} (hend : c = ',' ∨ c = '}') (rest : List Char) :
    readBare (content ++ c :: rest) = some (content.map (·, false), c :: rest) := by
  induction content with
  | nil => rw [List.nil_append, readBare.eq_def]; simp [hend]
  | cons d content ih =>
    obtain ⟨hmark, hcontent⟩ := List.forall_mem_cons.1 hcontent
    have hd : d ≠ ',' ∧ d ≠ '{' ∧ d ≠ '}' ∧ d ≠ '"' ∧ d ≠ '\\' := by
      simpa [isArrayMark] using hmark
    rw [List.cons_append, readBare.eq_def]
    simp [hd, ih hcontent]

theorem PlainItem.bareItem_trimmedBare {content : List Char} (h : PlainItem content) :
    bareItem (trimmedBare (content.map (·, false))) = some (some content) := by
  have htrimmed : trimmedBare (content.map (·, false)) = content.map (·, false) := by
    refine List.rdropWhile_eq_self_iff.2 fun hne => ?_
    have hlast := h.last_not_space (content.getLast h.ne_nil)
      (List.getLast?_eq_some_getLast h.ne_nil)
    simp [hlast]
  have hnull : (content.map (·, false)).map (·.1.toLower) ≠ "null".toList := by
    rw [List.map_map]
    exact h.not_null
  have htext : (content.map (·, false)).map (·.1) = content := by
    simp [Function.comp_def]
  rw [htrimmed, bareItem, if_neg (by simpa using h.ne_nil), if_neg fun hword => hnull hword.2,
    htext]

theorem PlainItem.exists_eq_cons {content : List Char} (h : PlainItem content) : ∃ first rest,
    content = first :: rest ∧ isSpace first = false ∧ first ≠ '"' ∧ first ≠ '}' := by
  obtain ⟨first, rest, rfl⟩ := List.exists_cons_of_ne_nil h.ne_nil
  have hmark : isArrayMark first = false := h.no_mark first List.mem_cons_self
  refine ⟨first, rest, rfl, h.head_not_space first rfl, ?_, ?_⟩
  · rintro rfl
    exact absurd hmark (by decide)
  · rintro rfl
    exact absurd hmark (by decide)

/-- A plain item is read as itself, whatever is behind the comma or the brace behind it. -/
theorem PlainItem.readItem_append {content : List Char} (h : PlainItem content) {c : Char}
    (hend : c = ',' ∨ c = '}') (rest : List Char) :
    readItem (content ++ c :: rest) = some (some content, c :: rest) := by
  have hread := readBare_append h.no_mark hend rest
  have hbare := h.bareItem_trimmedBare
  obtain ⟨first, others, rfl, hspace, hquote, -⟩ := h.exists_eq_cons
  have hdropped : ((first :: others) ++ c :: rest).dropWhile isSpace =
      first :: (others ++ c :: rest) := by
    rw [List.cons_append, List.dropWhile_cons_of_neg (by simp [hspace])]
  rw [readItem, hdropped]
  simp only [if_neg hquote]
  rw [← List.cons_append, hread, Option.bind_eq_bind, Option.bind_some, hbare]
  rfl

theorem intercalate_comma (part next : List Char) (parts : List (List Char)) :
    [','].intercalate (part :: next :: parts) ++ ['}'] =
      part ++ ',' :: ([','].intercalate (next :: parts) ++ ['}']) := by
  rw [List.intercalate_cons_cons]
  simp

theorem readItems_of_comma {rest : List Char} (h : readItem text = some (item, ',' :: rest)) :
    readItems text = (readItems rest).map (item :: ·) := by
  rw [readItems]
  split
  · next hread =>
    rw [h] at hread
    cases hread
    rfl
  · next hother => exact absurd h (hother _ _ _)

theorem readItems_of_brace (h : readItem text = some (item, ['}'])) :
    readItems text = some [item] := by
  rw [readItems]
  split
  · next hread =>
    rw [h] at hread
    cases hread
    rfl
  · next hother => exact absurd h (hother _ _ _)

theorem readItems_intercalate {parts : List (List Char)} (hne : parts ≠ [])
    (h : ∀ part ∈ parts, PlainItem part) :
    readItems ([','].intercalate parts ++ ['}']) = some (parts.map some) := by
  induction parts with
  | nil => exact absurd rfl hne
  | cons part parts ih =>
    obtain ⟨hpart, hparts⟩ := List.forall_mem_cons.1 h
    cases parts with
    | nil =>
      rw [List.intercalate_singleton, readItems_of_brace (hpart.readItem_append (.inr rfl) [])]
      rfl
    | cons next parts =>
      rw [intercalate_comma, readItems_of_comma (hpart.readItem_append (.inl rfl) _),
        ih (by simp) hparts]
      rfl

/-- Texts between braces, with commas between them. -/
def arrayText (parts : List (List Char)) : List Char :=
  '{' :: ([','].intercalate parts ++ ['}'])

theorem length_intercalate_add_one {parts : List (List Char)} (hne : parts ≠ []) :
    ([','].intercalate parts ++ ['}']).length = roomFor parts := by
  induction parts with
  | nil => exact absurd rfl hne
  | cons part parts ih =>
    cases parts with
    | nil => simp [roomFor]
    | cons next parts =>
      have hrest := ih (by simp)
      rw [intercalate_comma, List.length_append, List.length_cons, hrest, roomFor_cons part]
      omega

/-- Texts between braces are read as themselves exactly if all of them are plain. -/
theorem readArray_eq_iff {parts : List (List Char)} (hne : parts ≠ []) :
    readArray (arrayText parts) = some (parts.map some) ↔ ∀ part ∈ parts, PlainItem part := by
  have hblank : isSpace '{' = false := by decide
  rw [arrayText, readArray, List.dropWhile_cons_of_neg (by simp [hblank])]
  simp only [ne_eq, not_true_eq_false, if_false]
  constructor
  · intro h
    split at h
    · cases h
    split at h
    · exact (roomFor_le_of_readItems h).2 (length_intercalate_add_one hne).symm
    · split at h
      · exact absurd (List.map_eq_nil_iff.1 (Option.some.inj h).symm) hne
      · cases h
  · intro h
    rw [← readItems_intercalate hne h]
    obtain ⟨part, others, rfl⟩ := List.exists_cons_of_ne_nil hne
    obtain ⟨tail, htail⟩ : ∃ tail, [','].intercalate (part :: others) ++ ['}'] = part ++ tail := by
      cases others with
      | nil => exact ⟨['}'], by simp⟩
      | cons next others => exact ⟨_, intercalate_comma part next others⟩
    obtain ⟨first, rest, rfl, hspace, -, hbrace⟩ := (h part List.mem_cons_self).exists_eq_cons
    rw [htail, List.cons_append, List.dropWhile_cons_of_neg (by simp [hspace])]
    simp only [if_pos hbrace]

end PgToolkit.Sql
