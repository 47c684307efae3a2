import PgToolkit.Proofs.Sql.Grammar
import PgToolkit.Proofs.Sql.Statement
import PgToolkit.Sql.Scan

/-!
# Scans are readings

A scan goes over the bytes of a text, also over those inside of characters. The characters that
open or end something have one byte, which no other character has in it, so every cut is made where
a character begins, and what is found are the lexemes of the text.
-/

namespace PgToolkit.Sql

variable {text front rest stop : List Char} {a c : Char} {i : Nat}

/-! ### Bytes -/

@[simp] theorem encoded_nil : encoded [] = [] := rfl

@[simp] theorem encoded_append (s t : List Char) : encoded (s ++ t) = encoded s ++ encoded t := by
  simp [encoded]

@[simp] theorem encoded_cons (c : Char) (rest : List Char) :
    encoded (c :: rest) = String.utf8EncodeChar c ++ encoded rest := by
  simp [encoded]

@[simp] theorem byteSize_append (s t : List Char) :
    byteSize (s ++ t) = byteSize s + byteSize t := by
  simp [byteSize]

/-- The bytes of a text are those of its string. -/
theorem encoded_toList (sql : String) : encoded sql.toList = sql.toUTF8.data.toList := by
  obtain ⟨text, rfl⟩ : ∃ text, sql = String.ofList text :=
    ⟨sql.toList, String.ofList_toList.symm⟩
  rw [String.toUTF8_eq_toByteArray, String.toList_ofList, encoded, String.toByteArray_ofList]
  exact List.toList_data_toByteArray.symm

/-- A character of one byte. -/
def IsAscii (c : Char) : Prop := c.val.toNat ≤ 127

instance (c : Char) : Decidable (IsAscii c) := inferInstanceAs (Decidable (_ ≤ _))

theorem utf8Size_of_isAscii (ha : IsAscii a) : a.utf8Size = 1 :=
  Char.utf8Size_eq_one_iff.2 (UInt32.le_iff_toNat_le.2 ha)

theorem utf8EncodeChar_of_isAscii (ha : IsAscii a) : String.utf8EncodeChar a = [a.toUInt8] :=
  String.utf8EncodeChar_eq_singleton (utf8Size_of_isAscii ha)

theorem toNat_toUInt8 (ha : IsAscii a) : a.toUInt8.toNat = a.val.toNat := by
  change a.val.toNat % 256 = _
  exact Nat.mod_eq_of_lt (Nat.lt_of_le_of_lt ha (by decide))

/-- Every byte of a longer character is beyond those that stand for a character of their own. -/
theorem lt_of_mem_utf8EncodeChar {byte : UInt8} (hbyte : byte ∈ String.utf8EncodeChar c)
    (hc : ¬ IsAscii c) : 127 < byte.toNat := by
  unfold IsAscii at hc
  unfold String.utf8EncodeChar at hbyte
  dsimp only at hbyte
  rw [if_neg hc] at hbyte
  repeat' split at hbyte
  -- two, three or four bytes, and the first bit of each of them is set
  all_goals
    simp only [List.mem_cons, List.not_mem_nil, or_false] at hbyte
    rcases hbyte with rfl | rfl | rfl | rfl
  all_goals
    rw [UInt8.toNat_ofNat']
    omega

/-- A byte that stands for a character is in no other character. -/
theorem eq_of_mem_utf8EncodeChar (ha : IsAscii a) (h : a.toUInt8 ∈ String.utf8EncodeChar c) :
    c = a := by
  by_cases hc : IsAscii c
  · rw [utf8EncodeChar_of_isAscii hc, List.mem_singleton] at h
    have hval := congrArg UInt8.toNat h
    rw [toNat_toUInt8 ha, toNat_toUInt8 hc] at hval
    exact Char.ext (UInt32.toNat_inj.1 hval.symm)
  · have hlt := lt_of_mem_utf8EncodeChar h hc
    rw [toNat_toUInt8 ha] at hlt
    exact absurd ha (Nat.not_le.2 hlt)

theorem getElem?_encoded_append (front rest : List Char) (k : Nat) :
    (encoded (front ++ rest))[byteSize front + k]? = (encoded rest)[k]? := by
  rw [encoded_append, byteSize, List.getElem?_append_right (Nat.le_add_right _ _),
    Nat.add_sub_cancel_left]

theorem getElem?_encoded_add (front : List Char) (c : Char) (rest : List Char) {k : Nat}
    (hk : k < (String.utf8EncodeChar c).length) :
    (encoded (front ++ c :: rest))[byteSize front + k]? = some (String.utf8EncodeChar c)[k] := by
  rw [getElem?_encoded_append, encoded_cons, List.getElem?_append_left hk,
    List.getElem?_eq_getElem hk]

theorem exists_getElem?_encoded (front : List Char) (c : Char) (rest : List Char) {k : Nat}
    (hk : k < c.utf8Size) : ∃ byte ∈ String.utf8EncodeChar c,
      (encoded (front ++ c :: rest))[byteSize front + k]? = some byte := by
  have hlength : k < (String.utf8EncodeChar c).length := by
    rwa [String.length_utf8EncodeChar]
  exact ⟨_, List.getElem_mem hlength, getElem?_encoded_add front c rest hlength⟩

/-- A byte that stands for a character is found where that character is. -/
theorem getElem?_encoded_eq_some_iff (ha : IsAscii a) :
    (encoded (front ++ rest))[byteSize front]? = some a.toUInt8 ↔ rest.head? = some a := by
  cases rest with
  | nil => simp [byteSize]
  | cons c rest =>
    obtain ⟨byte, hmem, hbyte⟩ := exists_getElem?_encoded front c rest (Char.utf8Size_pos c)
    rw [← Nat.add_zero (byteSize front), hbyte, List.head?_cons, Option.some_inj, Option.some_inj]
    constructor
    · rintro rfl
      exact eq_of_mem_utf8EncodeChar ha hmem
    · rintro rfl
      rw [utf8EncodeChar_of_isAscii ha] at hmem
      exact List.mem_singleton.1 hmem

theorem getElem?_encoded_succ_eq_some_iff (hc : IsAscii c) (ha : IsAscii a) :
    (encoded (front ++ c :: rest))[byteSize front + 1]? = some a.toUInt8 ↔
      rest.head? = some a := by
  have hsize : byteSize front + 1 = byteSize (front ++ [c]) := by
    simp [utf8Size_of_isAscii hc]
  rw [hsize, List.append_cons]
  exact getElem?_encoded_eq_some_iff ha

/-! ### Cuts -/

/-- A text can be cut where a character begins. -/
theorem dropBytes?_byteSize (front rest : List Char) :
    dropBytes? (byteSize front) (front ++ rest) = some rest := by
  induction front with
  | nil => simp [dropBytes?]
  | cons c front ih =>
    obtain ⟨n, hn⟩ := Nat.exists_eq_succ_of_ne_zero (Char.utf8Size_pos c).ne'
    rw [byteSize_cons, List.cons_append, hn, Nat.succ_add, dropBytes?, if_pos (by omega)]
    rw [← ih]
    congr 1
    omega

theorem takeBytes?_byteSize (front rest : List Char) :
    takeBytes? (byteSize front) (front ++ rest) = some front := by
  induction front with
  | nil => simp [takeBytes?]
  | cons c front ih =>
    obtain ⟨n, hn⟩ := Nat.exists_eq_succ_of_ne_zero (Char.utf8Size_pos c).ne'
    rw [byteSize_cons, List.cons_append, hn, Nat.succ_add, takeBytes?, if_pos (by omega)]
    have hsize : n + byteSize front + 1 - c.utf8Size = byteSize front := by omega
    rw [hsize, ih]
    rfl

theorem slice?_byteSize (front piece rest : List Char) :
    slice? (front ++ (piece ++ rest)) (byteSize front) (byteSize front + byteSize piece) =
      some piece := by
  rw [slice?, dropBytes?_byteSize, Nat.add_sub_cancel_left]
  exact takeBytes?_byteSize piece rest

/-! ### Regions -/

/-- A search by offsets ends where a text is cut. -/
theorem elim_offsetOf? (stop text : List Char) :
    (offsetOf? stop text).elim (byteSize text) (· + byteSize stop) =
      byteSize (splitAfter stop text).1 := by
  induction text with
  | nil => rfl
  | cons c text ih =>
    rw [offsetOf?, splitAfter]
    split
    · simp
    · rw [byteSize_cons, byteSize_cons, ← ih]
      cases offsetOf? stop text with
      | none => rfl
      | some offset => simp [Nat.add_assoc, Nat.add_left_comm]

theorem behindNext?_byteSize (front text stop : List Char) :
    behindNext? (front ++ text) stop (byteSize front) =
      some (byteSize (front ++ (splitAfter stop text).1)) := by
  have hsize := elim_offsetOf? stop text
  rw [behindNext?, dropBytes?_byteSize, byteSize_append, byteSize_append, ← hsize]
  cases hoffset : offsetOf? stop text with
  | none => simp [hoffset]
  | some offset => simp [hoffset, Nat.add_assoc]

/-- Bytes that are no quote are passed over. -/
theorem behindQuoted_add {bytes : List UInt8} {quote : UInt8} {n : Nat}
    (h : ∀ k < n, ∃ byte, bytes[i + k]? = some byte ∧ byte ≠ quote) :
    behindQuoted bytes quote i = behindQuoted bytes quote (i + n) := by
  induction n with
  | zero => rfl
  | succ n ih =>
    rw [ih fun k hk => h k (Nat.lt_succ_of_lt hk)]
    obtain ⟨byte, hbyte, hne⟩ := h n (Nat.lt_succ_self n)
    rw [behindQuoted, if_pos (lt_length_of_getElem? hbyte), hbyte, if_neg (by simpa using hne)]
    rfl

theorem behindQuoted_of_ne (ha : IsAscii a) (hc : c ≠ a) (front rest : List Char) :
    behindQuoted (encoded (front ++ c :: rest)) a.toUInt8 (byteSize front) =
      behindQuoted (encoded (front ++ c :: rest)) a.toUInt8 (byteSize (front ++ [c])) := by
  have hsize : byteSize (front ++ [c]) = byteSize front + c.utf8Size := by simp
  rw [hsize]
  refine behindQuoted_add fun k hk => ?_
  obtain ⟨byte, hmem, hbyte⟩ := exists_getElem?_encoded front c rest hk
  refine ⟨byte, hbyte, ?_⟩
  rintro rfl
  exact hc (eq_of_mem_utf8EncodeChar ha hmem)

/-- A token ends with a quote that no other follows. -/
theorem behindQuoted_quote (ha : IsAscii a) (hrest : rest.head? ≠ some a) (front : List Char) :
    behindQuoted (encoded (front ++ a :: rest)) a.toUInt8 (byteSize front) =
      byteSize (front ++ [a]) := by
  have hquote : (encoded (front ++ a :: rest))[byteSize front]? = some a.toUInt8 :=
    (getElem?_encoded_eq_some_iff ha).2 rfl
  rw [behindQuoted, if_pos (lt_length_of_getElem? hquote), if_pos hquote,
    if_neg (mt (getElem?_encoded_succ_eq_some_iff ha ha).1 hrest), byteSize_append, byteSize_cons,
    utf8Size_of_isAscii ha]
  rfl

theorem behindQuoted_quotes (ha : IsAscii a) (front rest : List Char) :
    behindQuoted (encoded (front ++ a :: a :: rest)) a.toUInt8 (byteSize front) =
      behindQuoted (encoded (front ++ a :: a :: rest)) a.toUInt8 (byteSize (front ++ [a, a])) := by
  have hquote : (encoded (front ++ a :: a :: rest))[byteSize front]? = some a.toUInt8 :=
    (getElem?_encoded_eq_some_iff ha).2 rfl
  have hsize : byteSize (front ++ [a, a]) = byteSize front + 2 := by
    simp [utf8Size_of_isAscii ha]
  rw [behindQuoted, if_pos (lt_length_of_getElem? hquote), if_pos hquote,
    if_pos ((getElem?_encoded_succ_eq_some_iff ha ha).2 rfl), hsize]

theorem behindQuoted_byteSize (ha : IsAscii a) (front text : List Char) :
    behindQuoted (encoded (front ++ text)) a.toUInt8 (byteSize front) =
      byteSize (front ++ (splitQuoted a text).1) := by
  fun_induction splitQuoted a text generalizing front with
  | case1 =>
    rw [behindQuoted, List.append_nil, byteSize, if_neg (Nat.lt_irrefl _)]
  | case2 => exact behindQuoted_quote ha (by simp) front
  | case3 rest ih =>
    have hsource : front ++ a :: a :: rest = (front ++ [a, a]) ++ rest := by simp
    rw [behindQuoted_quotes ha, hsource, ih]
    simp
  | case4 d rest hd => exact behindQuoted_quote ha (by simpa using hd) front
  | case5 c rest hc ih =>
    rw [behindQuoted_of_ne ha hc, List.append_cons front, ih]
    simp

theorem offsetOf?_append (h : a ∉ front) (rest : List Char) :
    offsetOf? [a] (front ++ a :: rest) = some (byteSize front) := by
  induction front with
  | nil => simp [offsetOf?]
  | cons c front ih =>
    obtain ⟨hc, hfront⟩ := not_or.1 (mt List.mem_cons.2 h)
    rw [List.cons_append, offsetOf?, if_neg (by simpa using hc), ih hfront]
    simp [Nat.add_comm]

theorem offsetOf?_of_not_mem (h : a ∉ text) : offsetOf? [a] text = none := by
  induction text with
  | nil => rfl
  | cons c text ih =>
    obtain ⟨hc, htext⟩ := not_or.1 (mt List.mem_cons.2 h)
    rw [offsetOf?, if_neg (by simpa using hc), ih htext]
    rfl

/-- What comes in front of the next dollar sign is the tag of a dollar quote, if it can be one. -/
theorem delimiterAt?_byteSize (front text : List Char) :
    delimiterAt? (front ++ '$' :: text) (byteSize front) =
      some ((dollarOpening? text).map fun opening => '$' :: opening.1) := by
  have hdrop : dropBytes? (byteSize front + 1) (front ++ '$' :: text) = some text := by
    have hsize : byteSize front + 1 = byteSize (front ++ ['$']) := by
      rw [byteSize_append]
      rfl
    rw [hsize, List.append_cons front '$' text, dropBytes?_byteSize]
  rw [delimiterAt?, hdrop]
  by_cases hdollar : '$' ∈ text
  · -- the delimiter is cut out with both of its dollar signs
    obtain ⟨tag, body, rfl, htag⟩ := List.eq_append_cons_of_mem hdollar
    have hslice : slice? (front ++ '$' :: (tag ++ '$' :: body)) (byteSize front)
        (byteSize front + byteSize tag + 2) = some ('$' :: (tag ++ ['$'])) := by
      have hcut := slice?_byteSize front ('$' :: (tag ++ ['$'])) body
      have hsize : byteSize ('$' :: (tag ++ ['$'])) = byteSize tag + 2 := by
        rw [byteSize_cons, byteSize_append, Nat.add_comm]
        rfl
      rw [hsize, ← Nat.add_assoc] at hcut
      simpa using hcut
    simp only [Option.bind_eq_bind, Option.bind_some, offsetOf?_append htag, takeBytes?_byteSize,
      hslice, dollarOpening?_eq htag]
    split <;> rfl
  · simp [offsetOf?_of_not_mem hdollar, dollarOpening?_of_not_mem hdollar]

/-- The step of a scan at a region. -/
theorem behind?_of_region {region : List Char} (h : Opaque region rest) (front : List Char) :
    behind? (front ++ (region ++ rest)) (byteSize front) = some (byteSize (front ++ region)) := by
  cases h with
  | @quoted quote cut _ hquote hcut =>
    have ha : IsAscii quote := by
      rcases hquote with rfl | rfl <;> decide
    have hfirst : (encoded (front ++ quote :: (cut ++ rest)))[byteSize front]? =
        some quote.toUInt8 := (getElem?_encoded_eq_some_iff ha).2 rfl
    have hbehind := behindQuoted_byteSize ha (front ++ [quote]) (cut ++ rest)
    rw [splitQuoted_eq_iff.2 ⟨hcut, rfl⟩, ← List.append_cons, ← List.append_cons, byteSize_append,
      byteSize_cons, utf8Size_of_isAscii ha] at hbehind
    rw [List.cons_append, behind?, hfirst]
    dsimp only
    rw [if_pos (hquote.imp (congrArg Char.toUInt8) (congrArg Char.toUInt8)), ← hbehind]
    rfl
  | @lineComment cut _ hcut =>
    have hfirst : (encoded (front ++ '-' :: '-' :: (cut ++ rest)))[byteSize front]? =
        some '-'.toUInt8 := (getElem?_encoded_eq_some_iff (by decide)).2 rfl
    have hsecond : (encoded (front ++ '-' :: '-' :: (cut ++ rest)))[byteSize front + 1]? =
        some '-'.toUInt8 := (getElem?_encoded_succ_eq_some_iff (by decide) (by decide)).2 rfl
    have hbehind := behindNext?_byteSize front ('-' :: '-' :: (cut ++ rest)) ['\n']
    have hsplit : splitAfter ['\n'] ('-' :: '-' :: (cut ++ rest)) = ('-' :: '-' :: cut, rest) := by
      simp [splitAfter, hcut.splitAfter_append]
    rw [hsplit] at hbehind
    rw [List.cons_append, List.cons_append, behind?, hfirst, hsecond]
    dsimp only
    rw [if_neg (by decide), if_pos (by decide)]
    exact hbehind
  | @blockComment cut _ hcut =>
    have hfirst : (encoded (front ++ '/' :: '*' :: (cut ++ rest)))[byteSize front]? =
        some '/'.toUInt8 := (getElem?_encoded_eq_some_iff (by decide)).2 rfl
    have hsecond : (encoded (front ++ '/' :: '*' :: (cut ++ rest)))[byteSize front + 1]? =
        some '*'.toUInt8 := (getElem?_encoded_succ_eq_some_iff (by decide) (by decide)).2 rfl
    have hbehind := behindNext?_byteSize (front ++ ['/', '*']) (cut ++ rest) ['*', '/']
    have hsize : byteSize (front ++ ['/', '*']) = byteSize front + 2 := by
      rw [byteSize_append]
      rfl
    rw [hcut.splitAfter_append (by simp), hsize] at hbehind
    rw [List.cons_append, List.cons_append, behind?, hfirst, hsecond]
    dsimp only
    rw [if_neg (by decide), if_neg (by decide), if_pos (by decide)]
    simpa using hbehind
  | @dollarQuoted tag cut _ htag hcut =>
    have hfirst : (encoded (front ++ '$' :: (tag ++ '$' :: (cut ++ rest))))[byteSize front]? =
        some '$'.toUInt8 := (getElem?_encoded_eq_some_iff (by decide)).2 rfl
    have hdelimiter := delimiterAt?_byteSize front (tag ++ '$' :: (cut ++ rest))
    have htag := isTag_iff.2 htag
    rw [dollarOpening?_eq (dollar_not_mem_of_isTag htag), if_pos htag] at hdelimiter
    have hbehind := behindNext?_byteSize (front ++ '$' :: (tag ++ ['$'])) (cut ++ rest)
      ('$' :: (tag ++ ['$']))
    rw [hcut.splitAfter_append (by simp), byteSize_append] at hbehind
    have hsource : '$' :: (tag ++ '$' :: cut) ++ rest = '$' :: (tag ++ '$' :: (cut ++ rest)) := by
      simp
    rw [hsource, behind?, hfirst]
    dsimp only
    rw [if_neg (by decide), if_neg fun h => absurd h.1 (by decide),
      if_neg fun h => absurd h.1 (by decide), if_pos rfl, hdelimiter]
    simpa using hbehind

/-- The step of a scan at any other character, and inside of it. -/
theorem behind?_of_opensNone (h : OpensNone c rest) (front : List Char) {k : Nat}
    (hk : k < c.utf8Size) :
    behind? (front ++ c :: rest) (byteSize front + k) = some (byteSize front + k + 1) := by
  obtain ⟨byte, hmem, hbyte⟩ := exists_getElem?_encoded front c rest hk
  -- a byte that could open a region is a character of its own
  have hchar {a : Char} (ha : IsAscii a) (h : byte = a.toUInt8) : c = a ∧ k = 0 := by
    subst h
    obtain rfl := eq_of_mem_utf8EncodeChar ha hmem
    rw [utf8Size_of_isAscii ha] at hk
    exact ⟨rfl, Nat.lt_one_iff.1 hk⟩
  rw [behind?, hbyte]
  dsimp only
  rw [if_neg, if_neg, if_neg]
  · split
    next hdollar =>
      obtain ⟨rfl, rfl⟩ := hchar (by decide) hdollar
      rw [Nat.add_zero, delimiterAt?_byteSize, h.dollar rfl]
      rfl
    · rfl
  · rintro ⟨hslash, hstar⟩
    obtain ⟨rfl, rfl⟩ := hchar (by decide) hslash
    exact h.block ⟨rfl, (getElem?_encoded_succ_eq_some_iff (by decide) (by decide)).1 hstar⟩
  · rintro ⟨hminus, hminus'⟩
    obtain ⟨rfl, rfl⟩ := hchar (by decide) hminus
    exact h.line ⟨rfl, (getElem?_encoded_succ_eq_some_iff (by decide) (by decide)).1 hminus'⟩
  · rintro (hquote | hquote)
    · exact h.quote (.inl (hchar (by decide) hquote).1)
    · exact h.quote (.inr (hchar (by decide) hquote).1)

/-! ### Tokens -/

/-- Lexemes with all that stands between two marks in one piece; `pending` is the text that stands
in front of them since the last mark. -/
def tokens (pending : List Char) : List Lexeme → List Token
  | [] => [.text pending]
  | .placeholder :: ls => .text pending :: .placeholder :: tokens [] ls
  | .escapedMark :: ls => .text pending :: .escapedMark :: tokens [] ls
  | .plain c :: ls => tokens (pending ++ [c]) ls
  | .region region :: ls => tokens (pending ++ region) ls

theorem renderFrom_tokens (used : Nat) (pending : List Char) (ls : List Lexeme) :
    Token.renderFrom used (tokens pending ls) = pending ++ renderFrom used ls := by
  induction ls generalizing used pending with
  | nil => simp [tokens, Token.renderFrom, renderFrom]
  | cons l ls ih =>
    cases l with
    | _ => simp [tokens, Token.renderFrom, renderFrom, ih]

theorem count_tokens (pending : List Char) (ls : List Lexeme) :
    (tokens pending ls).count .placeholder = ls.count .placeholder := by
  induction ls generalizing pending with
  | nil => simp [tokens]
  | cons l ls ih =>
    cases l with
    | _ => simp [tokens, ih]

/-! ### The scan -/

theorem scanFrom_of_behind? {start j : Nat} {byte : UInt8} (hbyte : (encoded text)[i]? = some byte)
    (hmark : byte ≠ '?'.toUInt8) (hbehind : behind? text i = some j) :
    scanFrom text start i = scanFrom text start j := by
  have hlt : i < byteSize text := lt_length_of_getElem? hbyte
  rw [scanFrom, if_pos hlt, hbyte, if_neg (by simpa using hmark)]
  split
  next hnone => rw [hbehind] at hnone; cases hnone
  next next hnext =>
    rw [hbehind] at hnext
    cases hnext
    rfl

theorem scanFrom_plain (hmark : c ≠ '?') (h : OpensNone c rest) (front : List Char) (start : Nat) :
    scanFrom (front ++ c :: rest) start (byteSize front) =
      scanFrom (front ++ c :: rest) start (byteSize (front ++ [c])) := by
  -- the scan goes byte by byte, also through the character
  have hbytes : ∀ k ≤ c.utf8Size, scanFrom (front ++ c :: rest) start (byteSize front) =
      scanFrom (front ++ c :: rest) start (byteSize front + k) := by
    intro k
    induction k with
    | zero => exact fun _ => rfl
    | succ k ih =>
      intro hk
      obtain ⟨byte, hmem, hbyte⟩ := exists_getElem?_encoded front c rest hk
      have hne : byte ≠ '?'.toUInt8 := by
        rintro rfl
        exact hmark (eq_of_mem_utf8EncodeChar (by decide) hmem)
      rw [ih (Nat.le_of_succ_le hk), scanFrom_of_behind? hbyte hne (behind?_of_opensNone h front hk)]
      rfl
  rw [hbytes _ (Nat.le_refl _), byteSize_append, byteSize_cons, byteSize_nil, Nat.add_zero]

theorem scanFrom_region {region : List Char} (h : Opaque region rest) (front : List Char)
    (start : Nat) :
    scanFrom (front ++ (region ++ rest)) start (byteSize front) =
      scanFrom (front ++ (region ++ rest)) start (byteSize (front ++ region)) := by
  obtain ⟨c, cut, rfl, hmark⟩ : ∃ c cut, region = c :: cut ∧ c ≠ '?' := by
    cases h with
    | quoted hquote _ =>
      refine ⟨_, _, rfl, ?_⟩
      rcases hquote with rfl | rfl <;> decide
    | lineComment _ => exact ⟨_, _, rfl, by decide⟩
    | blockComment _ => exact ⟨_, _, rfl, by decide⟩
    | dollarQuoted _ _ => exact ⟨_, _, rfl, by decide⟩
  obtain ⟨byte, hmem, hbyte⟩ := exists_getElem?_encoded front c (cut ++ rest) (Char.utf8Size_pos c)
  refine scanFrom_of_behind? hbyte ?_ (behind?_of_region h front)
  rintro rfl
  exact hmark (eq_of_mem_utf8EncodeChar (by decide) hmem)

/-- At a mark the text in front of it is told, and the scan goes on behind the mark. -/
theorem scanFrom_mark (front pending rest : List Char) :
    scanFrom (front ++ (pending ++ '?' :: rest)) (byteSize front) (byteSize (front ++ pending)) =
      if rest.head? = some '?' then
        (.text pending :: .escapedMark :: ·) <$> scanFrom (front ++ (pending ++ '?' :: rest))
          (byteSize (front ++ pending) + 2) (byteSize (front ++ pending) + 2)
      else
        (.text pending :: .placeholder :: ·) <$> scanFrom (front ++ (pending ++ '?' :: rest))
          (byteSize (front ++ pending) + 1) (byteSize (front ++ pending) + 1) := by
  have hmark : (encoded ((front ++ pending) ++ '?' :: rest))[byteSize (front ++ pending)]? =
      some '?'.toUInt8 := (getElem?_encoded_eq_some_iff (by decide)).2 rfl
  have hsecond : (encoded ((front ++ pending) ++ '?' :: rest))[byteSize (front ++ pending) + 1]? =
      some '?'.toUInt8 ↔ rest.head? = some '?' :=
    getElem?_encoded_succ_eq_some_iff (by decide) (by decide)
  have hslice := slice?_byteSize front pending ('?' :: rest)
  rw [List.append_assoc] at hmark hsecond
  rw [← byteSize_append] at hslice
  have hlt : byteSize (front ++ pending) < byteSize (front ++ (pending ++ '?' :: rest)) :=
    lt_length_of_getElem? hmark
  rw [scanFrom, if_pos hlt, if_pos hmark, hslice]
  simp only [hsecond, map_eq_pure_bind]
  rfl

/-- A scan finds the lexemes of the text that is left. What is in `front` was told already. -/
theorem scanFrom_eq (front pending text : List Char) :
    scanFrom (front ++ (pending ++ text)) (byteSize front) (byteSize (front ++ pending)) =
      some (tokens pending (lexemes text)) := by
  fun_induction lexemes text generalizing front pending with
  | case1 =>
    have hslice := slice?_byteSize front pending []
    rw [List.append_nil] at hslice
    rw [scanFrom, List.append_nil, if_neg (Nat.lt_irrefl _), byteSize_append, hslice]
    rfl
  | case2 c rest ih =>
    have hread := read_next c rest
    generalize Lexeme.next c rest = next at hread ih
    obtain ⟨l, behind⟩ := next
    dsimp only at hread ih ⊢
    cases hread with
    | @region region _ hregion hsource =>
      rw [← hsource, ← List.append_assoc front, scanFrom_region hregion, List.append_assoc front,
        List.append_assoc, ← List.append_assoc pending, ih]
      rfl
    | escapedMark hmark hrest =>
      subst hmark hrest
      have hrest := ih (front ++ (pending ++ ['?', '?'])) []
      have hsource : (front ++ (pending ++ ['?', '?'])) ++ ([] ++ behind) =
          front ++ (pending ++ '?' :: '?' :: behind) := by simp
      have hsize : byteSize (front ++ (pending ++ ['?', '?'])) = byteSize (front ++ pending) + 2 := by
        rw [← List.append_assoc, byteSize_append]
        rfl
      rw [hsource, List.append_nil, hsize] at hrest
      rw [scanFrom_mark, if_pos List.head?_cons, hrest]
      rfl
    | placeholder hmark hsingle =>
      subst hmark
      have hrest := ih (front ++ (pending ++ ['?'])) []
      have hsource : (front ++ (pending ++ ['?'])) ++ ([] ++ rest) =
          front ++ (pending ++ '?' :: rest) := by simp
      have hsize : byteSize (front ++ (pending ++ ['?'])) = byteSize (front ++ pending) + 1 := by
        rw [← List.append_assoc, byteSize_append]
        rfl
      rw [hsource, List.append_nil, hsize] at hrest
      rw [scanFrom_mark, if_neg hsingle, hrest]
      rfl
    | plain hmark hnone =>
      rw [← List.append_assoc front, scanFrom_plain hmark (opensNone_iff.2 hnone),
        List.append_assoc front, List.append_assoc, List.append_cons pending, ih]
      rfl

/-- A scan never cuts inside of a character, and it finds the lexemes of the text. -/
theorem scan_eq (sql : String) : scan sql = some (tokens [] (lexemes sql.toList)) := by
  simpa [scan] using scanFrom_eq [] [] sql.toList

/-! ### What is sent -/

/-- Lexemes as they are sent, with the numbers that their placeholders get: a region and a plain
character stay as they are, and two marks in a row become one. -/
inductive Numbered : List Lexeme → List Nat → List Char → Prop
  | nil : Numbered [] [] []
  | plain {ls : List Lexeme} {numbers : List Nat} {sent : List Char} (c : Char)
    (hrest : Numbered ls numbers sent) : Numbered (.plain c :: ls) numbers (c :: sent)
  | region {ls : List Lexeme} {numbers : List Nat} {sent : List Char} (region : List Char)
    (hrest : Numbered ls numbers sent) : Numbered (.region region :: ls) numbers (region ++ sent)
  | placeholder {ls : List Lexeme} {numbers : List Nat} {sent : List Char} (number : Nat)
    (hrest : Numbered ls numbers sent) :
    Numbered (.placeholder :: ls) (number :: numbers) ('$' :: ((toString number).toList ++ sent))
  | escapedMark {ls : List Lexeme} {numbers : List Nat} {sent : List Char}
    (hrest : Numbered ls numbers sent) : Numbered (.escapedMark :: ls) numbers ('?' :: sent)

theorem numbered_renderFrom (used : Nat) (ls : List Lexeme) :
    Numbered ls (List.range' (used + 1) (ls.count .placeholder)) (renderFrom used ls) := by
  induction ls generalizing used with
  | nil => exact .nil
  | cons l ls ih =>
    cases l with
    | plain c => simpa using .plain c (ih used)
    | region region => simpa using .region region (ih used)
    | placeholder =>
      rw [List.count_cons_self, List.range'_succ]
      exact .placeholder (used + 1) (ih (used + 1))
    | escapedMark => simpa using .escapedMark (ih used)

/-- Every text has exactly one reading by the grammar. It is sent with its placeholders numbered
from one on without a gap, as many as are counted, and a scan over its bytes, in which every cut is
made between two characters, comes to the same text and the same number of placeholders. -/
theorem numberPlaceholders_grammar (sql : String) :
    ∃ ls numbers, (∀ reading, Reading sql.toList reading ↔ reading = ls) ∧
      Numbered ls numbers (numberPlaceholders sql).toList ∧
      numbers = List.range' 1 numbers.length ∧
      countPlaceholders sql = numbers.getLast?.getD 0 ∧
      ∃ found, scan sql = some found ∧
        Token.renderFrom 0 found = (numberPlaceholders sql).toList ∧
        found.count .placeholder = countPlaceholders sql := by
  have hsent : (numberPlaceholders sql).toList = renderFrom 0 (lexemes sql.toList) :=
    String.toList_ofList
  refine ⟨lexemes sql.toList, List.range' 1 (countPlaceholders sql), fun _ => reading_iff, ?_, ?_,
    ?_, tokens [] (lexemes sql.toList), scan_eq sql, ?_, count_tokens [] _⟩
  · rw [hsent]
    exact numbered_renderFrom 0 _
  · rw [List.length_range']
  · cases hcount : countPlaceholders sql with
    | zero => rfl
    | succ n => simp [List.range'_concat, Nat.add_comm]
  · rw [hsent, renderFrom_tokens]
    rfl

end PgToolkit.Sql
