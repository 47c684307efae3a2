import Mathlib.Tactic.Conv
import PgToolkit.Proofs.Text.Hex
import PgToolkit.Text.Uuid

/-!
# The canonical form of identifiers

An identifier may be written in several forms. Its canonical form has the same digits in lower case,
with a hyphen behind the 8th, 12th, 16th and 20th of them. It is the form that is written for the
bytes that are read.
-/

namespace PgToolkit.Text

/-- The characters that are no digits but may stand in an identifier. -/
def isFrame (c : Char) : Bool := c = '-' || c = '{' || c = '}'

/-- The digits of an identifier, in lower case: what is left of it without the mark in front, braces
and hyphens. -/
def uuidDigits (text : String) : List Char :=
  let chars := text.toList
  let body := if (chars.take 9).map Char.toLower = uuidMark then chars.drop 9 else chars
  (body.filter (!isFrame ·)).map Char.toLower

/-- Digits in groups of 8, 4, 4, 4 and 12, with hyphens between them. -/
def hyphenated (digits : List Char) : String :=
  String.ofList (digits.take 8 ++ '-' :: (digits.drop 8).take 4 ++ '-' :: (digits.drop 12).take 4 ++
    '-' :: (digits.drop 16).take 4 ++ '-' :: (digits.drop 20).take 12)

/-! ### Digits -/

/-- A digit is written in lower case, and it is no other character of an identifier. -/
theorem hexDigit_of_hexValue? {c : Char} {value : Nat} (h : hexValue? c = some value) :
    value < 16 ∧ hexDigit value = c.toLower ∧ isFrame c = false := by
  have hsmall : ∀ n < 128, (hexValue? (Char.ofNat n)).all (fun value => value < 16 ∧
      hexDigit value = (Char.ofNat n).toLower ∧ isFrame (Char.ofNat n) = false) = true := by
    decide
  have hall := hsmall c.toNat (toNat_lt_of_hexValue? h)
  rw [Char.ofNat_toNat, h] at hall
  simpa using hall

/-- The bytes that are read have the digits of the text, in lower case. -/
theorem hexBytes_of_parseHexBytes {digits : List Char} {bytes : List UInt8}
    (h : parseHexBytes digits = some bytes) : hexBytes bytes = digits.map Char.toLower ∧
      ∀ c ∈ digits, isFrame c = false := by
  induction digits using parseHexBytes.induct generalizing bytes with
  | case1 =>
    cases h
    exact ⟨rfl, by simp⟩
  | case2 c => cases h
  | case3 high low rest ih =>
    simp only [parseHexBytes, Option.bind_eq_bind, Option.bind_eq_some_iff] at h
    obtain ⟨first, hfirst, second, hsecond, others, hothers, hbytes⟩ := h
    cases hbytes
    obtain ⟨hrest, hnone⟩ := ih hothers
    obtain ⟨hlt, hhigh, hhigh'⟩ := hexDigit_of_hexValue? hfirst
    obtain ⟨hlt', hlow, hlow'⟩ := hexDigit_of_hexValue? hsecond
    refine ⟨?_, List.forall_mem_cons.2 ⟨hhigh', List.forall_mem_cons.2 ⟨hlow', hnone⟩⟩⟩
    rw [hexBytes_cons, hexByte_ofNat hlt hlt', hrest, hhigh, hlow]
    rfl

/-! ### Forms -/

/-- The hyphenated form of sixteen bytes is that of their digits. -/
theorem uuidText_eq_hyphenated (bytes : List UInt8) :
    uuidText bytes = hyphenated (hexBytes bytes) := by
  simp only [uuidText, hyphenated, hexBytes_take, hexBytes_drop]
  rfl

/-- The bytes of a text have its digits; other characters of an identifier may stand between
them. -/
structure HasDigits (text : List Char) (bytes : List UInt8) : Prop where
  length : bytes.length = 16
  digits : hexBytes bytes = (text.filter (!isFrame ·)).map Char.toLower

theorem filter_eq_self_of_digits {text : List Char} (h : ∀ c ∈ text, isFrame c = false) :
    text.filter (!isFrame ·) = text :=
  List.filter_eq_self.2 fun c hc => by rw [h c hc]; rfl

theorem hasDigits_of_parsePlainUuid? {text : List Char} {bytes : List UInt8}
    (h : parsePlainUuid? text = some bytes) :
    HasDigits text bytes ∧ ∀ c ∈ text, isFrame c = false := by
  rw [parsePlainUuid?] at h
  split at h
  · rename_i hlength
    obtain ⟨hdigits, hnone⟩ := hexBytes_of_parseHexBytes h
    have hcount := congrArg List.length hdigits
    rw [length_hexBytes, List.length_map, hlength] at hcount
    refine ⟨⟨by omega, ?_⟩, hnone⟩
    rw [filter_eq_self_of_digits hnone, hdigits]
  · cases h

theorem drop_eq_cons_of_getElem? {text : List Char} {i : Nat} {c : Char} (h : text[i]? = some c) :
    text.drop i = c :: text.drop (i + 1) := by
  obtain ⟨hlt, rfl⟩ := List.getElem?_eq_some_iff.1 h
  exact List.drop_eq_getElem_cons hlt

theorem hasDigits_of_parseHyphenated? {text : List Char} {bytes : List UInt8}
    (h : parseHyphenated? text = some bytes) : HasDigits text bytes := by
  rw [parseHyphenated?] at h
  split at h
  · rename_i hform
    obtain ⟨hlength, hhyphens⟩ := hform
    simp only [List.all_cons, List.all_nil, Bool.and_true, Bool.and_eq_true,
      decide_eq_true_eq] at hhyphens
    obtain ⟨hfirst, hsecond, hthird, hfourth⟩ := hhyphens
    obtain ⟨⟨hbytes, hdigits⟩, hnone⟩ := hasDigits_of_parsePlainUuid? h
    refine ⟨hbytes, ?_⟩
    -- the text is its groups of digits with hyphens between them
    have hgroup : ∀ i, text.drop i = (text.drop i).take 4 ++ text.drop (i + 4) := by
      intro i
      rw [← List.drop_drop, List.take_append_drop]
    have htext : text = text.take 8 ++ '-' :: ((text.drop 9).take 4 ++ '-' ::
        ((text.drop 14).take 4 ++ '-' :: ((text.drop 19).take 4 ++ '-' :: text.drop 24))) := by
      conv_lhs => rw [← List.take_append_drop 8 text, drop_eq_cons_of_getElem? hfirst, hgroup 9,
        drop_eq_cons_of_getElem? hsecond, hgroup 14, drop_eq_cons_of_getElem? hthird, hgroup 19,
        drop_eq_cons_of_getElem? hfourth]
    have hframe : (!isFrame '-') = false := by decide
    rw [hdigits]
    conv_rhs => rw [htext]
    simp [List.filter_append, hframe]
  · cases h

/-- An identifier is written in its canonical form. -/
theorem uuidText_of_parseUuid? {text : String} {bytes : List UInt8}
    (h : parseUuid? text = some bytes) :
    bytes.length = 16 ∧ uuidText bytes = hyphenated (uuidDigits text) := by
  rw [uuidText_eq_hyphenated]
  suffices hdigits : bytes.length = 16 ∧ hexBytes bytes = uuidDigits text from
    ⟨hdigits.1, congrArg hyphenated hdigits.2⟩
  have hmark : uuidMark.length = 9 := rfl
  rw [parseUuid?] at h
  split at h
  · -- in braces
    rename_i rest hchars
    split at h
    · rename_i hlast
      obtain ⟨hlength, hdigits⟩ := hasDigits_of_parseHyphenated? h
      refine ⟨hlength, ?_⟩
      have hrest : rest = rest.dropLast ++ ['}'] := by
        rw [List.getLast?_eq_some_iff] at hlast
        obtain ⟨front, rfl⟩ := hlast
        rw [List.dropLast_concat]
      have hbody : ('{' :: rest).filter (!isFrame ·) = rest.dropLast.filter (!isFrame ·) := by
        conv_lhs => rw [hrest]
        simp [isFrame]
      have hplain : (('{' :: rest).take 9).map Char.toLower ≠ uuidMark := by
        intro heq
        cases congrArg List.head? heq
      rw [uuidDigits, hchars, if_neg hplain, hbody, hdigits]
    · cases h
  · rw [List.splitAt_eq, hmark] at h
    rw [uuidDigits]
    dsimp only at h ⊢
    split at h
    · -- behind the mark
      rename_i hfront
      obtain ⟨hlength, hdigits⟩ := hasDigits_of_parseHyphenated? h
      rw [if_pos hfront]
      exact ⟨hlength, hdigits⟩
    · rename_i hfront
      rw [if_neg hfront]
      split at h
      · obtain ⟨⟨hlength, hdigits⟩, -⟩ := hasDigits_of_parsePlainUuid? h
        exact ⟨hlength, hdigits⟩
      · obtain ⟨hlength, hdigits⟩ := hasDigits_of_parseHyphenated? h
        exact ⟨hlength, hdigits⟩

theorem parseHyphenated?_groups {a b c d e : List Char} (ha : a.length = 8) (hb : b.length = 4)
    (hc : c.length = 4) (hd : d.length = 4) (he : e.length = 12) :
    parseHyphenated? (a ++ '-' :: (b ++ '-' :: (c ++ '-' :: (d ++ '-' :: e)))) =
      parseHexBytes (a ++ b ++ c ++ d ++ e) := by
  simp [parseHyphenated?, parsePlainUuid?, List.getElem?_append, List.drop_append,
    List.drop_of_length_le, ha, hb, hc, hd, he]

theorem head?_hexBytes_ne (bytes : List UInt8) : (hexBytes bytes).head? ≠ some '{' := by
  have hdigit : ∀ n < 16, hexDigit n ≠ '{' := by decide
  cases bytes with
  | nil => simp
  | cons b rest =>
    have hlt := b.toNat_lt
    intro heq
    exact hdigit (b.toNat / 16) (by omega) (Option.some.inj heq)

theorem parseUuid?_hyphenated {digits : List Char} (hlength : digits.length = 32)
    (hhead : digits.head? ≠ some '{') :
    parseUuid? (hyphenated digits) = parseHexBytes digits := by
  have ha : (digits.take 8).length = 8 := by rw [List.length_take]; omega
  have htext : (hyphenated digits).toList = digits.take 8 ++ '-' :: ((digits.drop 8).take 4 ++
      '-' :: ((digits.drop 12).take 4 ++ '-' :: ((digits.drop 16).take 4 ++
        '-' :: (digits.drop 20).take 12))) := by
    simp only [hyphenated, String.toList_ofList, List.append_assoc, List.cons_append]
  have hread := parseHyphenated?_groups (b := (digits.drop 8).take 4)
    (c := (digits.drop 12).take 4) (d := (digits.drop 16).take 4) (e := (digits.drop 20).take 12)
    ha (by simp; omega) (by simp; omega) (by simp; omega) (by simp; omega)
  have hdigits : digits.take 8 ++ (digits.drop 8).take 4 ++ (digits.drop 12).take 4 ++
      (digits.drop 16).take 4 ++ (digits.drop 20).take 12 = digits := by
    have hgroup : ∀ i n, digits.take i ++ (digits.drop i).take n = digits.take (i + n) := by
      intro i n
      rw [List.take_add]
    rw [hgroup, hgroup, hgroup, hgroup, List.take_of_length_le (by omega)]
  rw [hdigits, ← htext] at hread
  have hchars : (hyphenated digits).toList.length = 36 := by
    rw [htext]
    simp
    omega
  have hmark : ((hyphenated digits).toList.take uuidMark.length).map Char.toLower ≠ uuidMark := by
    have hfront : (hyphenated digits).toList.take uuidMark.length = digits.take 8 ++ ['-'] := by
      rw [htext, List.take_append, ha, List.take_of_length_le (by rw [ha]; decide)]
      rfl
    intro heq
    have hlast := congrArg List.getLast? heq
    rw [hfront, List.map_append, List.map_singleton, List.getLast?_concat] at hlast
    revert hlast
    decide
  rw [parseUuid?]
  split
  · next rest hbrace =>
    refine absurd ?_ hhead
    cases digits with
    | nil => simp at hlength
    | cons c digits => exact congrArg List.head? (htext.symm.trans hbrace)
  · rw [List.splitAt_eq]
    dsimp only
    rw [if_neg hmark, if_neg (by omega), hread]

/-- The bytes are read back from the canonical form. -/
theorem parseUuid?_uuidText {bytes : List UInt8} (h : bytes.length = 16) :
    parseUuid? (uuidText bytes) = some bytes := by
  have hlength := length_hexBytes bytes
  rw [uuidText_eq_hyphenated, parseUuid?_hyphenated (by omega) (head?_hexBytes_ne bytes),
    parseHexBytes_hexBytes]

end PgToolkit.Text
