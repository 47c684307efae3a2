import Mathlib.Data.List.TakeWhile
import PgToolkit.Json.Parser
import PgToolkit.Json.Printer

/-!
# Numbers of a document read back

A number is read up to the first character that cannot continue it, whatever follows. Integers are
read back from their digits. A number in double precision need not be: it is read from its digits by
one rounded multiplication or division, which may miss the number by its last place.
-/

namespace PgToolkit

open Number

-- A power is the core library's, also where a general one is in scope.
attribute [local instance (high)] instPowNat

namespace Json

/-- A text that does not continue a number in front of it. -/
def Ends (text : List Char) : Prop :=
  ∀ c ∈ text.head?, c.isDigit = false ∧ c ≠ '.' ∧ c ≠ 'e' ∧ c ≠ 'E'

theorem ends_nil : Ends [] := by
  simp [Ends]

theorem ends_cons {c : Char} (h : c.isDigit = false ∧ c ≠ '.' ∧ c ≠ 'e' ∧ c ≠ 'E')
    (text : List Char) : Ends (c :: text) := by
  simpa [Ends] using h

variable {text rest tail : List Char} {n : JsonNumber}

/-! ### Digits -/

theorem Ends.takeWhile_eq_nil (h : Ends rest) : rest.takeWhile Char.isDigit = [] := by
  cases rest with
  | nil => rfl
  | cons c rest => rw [List.takeWhile_cons_of_neg (by simpa using (h c rfl).1)]

theorem Ends.dropWhile_eq_self (h : Ends rest) : rest.dropWhile Char.isDigit = rest := by
  cases rest with
  | nil => rfl
  | cons c rest => rw [List.dropWhile_cons_of_neg (by simpa using (h c rfl).1)]

/-- The digits in front of a text are not continued behind it. -/
theorem Ends.takeWhile_append (h : Ends rest) (text : List Char) :
    (text ++ rest).takeWhile Char.isDigit = text.takeWhile Char.isDigit := by
  induction text with
  | nil => exact h.takeWhile_eq_nil
  | cons c text ih =>
    by_cases hc : c.isDigit = true
    · rw [List.cons_append, List.takeWhile_cons_of_pos hc, List.takeWhile_cons_of_pos hc, ih]
    · rw [List.cons_append, List.takeWhile_cons_of_neg hc, List.takeWhile_cons_of_neg hc]

theorem Ends.dropWhile_append (h : Ends rest) (text : List Char) :
    (text ++ rest).dropWhile Char.isDigit = text.dropWhile Char.isDigit ++ rest := by
  induction text with
  | nil => exact h.dropWhile_eq_self
  | cons c text ih =>
    by_cases hc : c.isDigit = true
    · rw [List.cons_append, List.dropWhile_cons_of_pos hc, List.dropWhile_cons_of_pos hc, ih]
    · rw [List.cons_append, List.dropWhile_cons_of_neg hc, List.dropWhile_cons_of_neg hc]
      rfl

/-! ### What follows a number -/

theorem readExponent_append {exponent : Int} (hends : Ends rest)
    (h : readExponent text = some (exponent, tail)) :
    readExponent (text ++ rest) = some (exponent, tail ++ rest) := by
  unfold readExponent at h ⊢
  cases text with
  | nil => simp at h
  | cons c text =>
    -- the sign is the same, and the digits behind it end where they ended
    by_cases hminus : c = '-'
    · subst hminus
      simp only [List.cons_append, hends.takeWhile_append, hends.dropWhile_append] at h ⊢
      split at h <;> simp_all
    · by_cases hplus : c = '+'
      · subst hplus
        simp only [List.cons_append, hends.takeWhile_append, hends.dropWhile_append] at h ⊢
        split at h <;> simp_all
      · by_cases hdigit : c.isDigit = true
        · simp_all [hends.takeWhile_append, hends.dropWhile_append]
        · simp_all

/-- Reads the exponent of a number, if it has one. -/
def readPower (text : List Char) : Option (Int × List Char) :=
  match text with
  | 'e' :: tail => readExponent tail
  | 'E' :: tail => readExponent tail
  | _ => some (0, text)

/-- The number `± significand * 10 ^ (exponent + written)`, where `written` is the exponent that
stands in the text. -/
def floatOf (negative : Bool) (significand : Nat) (exponent written : Int) : Option JsonNumber :=
  if written.natAbs < 0x80000000 then readFloat negative significand (exponent + written)
  else if significand ≠ 0 ∧ 0 < written then none
  else some (.float ⟨if negative then 0x8000000000000000 else 0⟩)

theorem finishFloat_eq (negative : Bool) (significand : Nat) (exponent : Int) (text : List Char) :
    finishFloat negative significand exponent text = (readPower text).bind fun read =>
      (floatOf negative significand exponent read.1).map (·, read.2) := by
  have hfloat : ∀ written : Int, ∀ tail : List Char,
      (floatOf negative significand exponent written).map (·, tail) =
        if written.natAbs < 0x80000000 then
          (readFloat negative significand (exponent + written)).bind fun n => some (n, tail)
        else if significand ≠ 0 ∧ 0 < written then none
        else some (.float ⟨if negative then 0x8000000000000000 else 0⟩, tail) := by
    intro written tail
    unfold floatOf
    split
    · cases readFloat negative significand (exponent + written) <;> rfl
    · split <;> rfl
  simp only [finishFloat, hfloat, Option.bind_eq_bind, Option.pure_def]
  generalize (⟨if negative then 0x8000000000000000 else 0⟩ : Binary64) = zero
  split
  · rfl
  · rfl
  · next hlower hupper =>
    have hnone : readPower text = some (0, text) := by
      unfold readPower
      split <;> simp_all
    rw [hnone]

theorem readPower_append {written : Int} (hends : Ends rest)
    (h : readPower text = some (written, tail)) :
    readPower (text ++ rest) = some (written, tail ++ rest) := by
  cases text with
  | nil =>
    obtain ⟨rfl, rfl⟩ := Prod.mk.inj (Option.some.inj h)
    cases rest with
    | nil => rfl
    | cons c rest =>
      obtain ⟨-, -, hlower, hupper⟩ := hends c rfl
      simp_all [readPower]
  | cons c text =>
    by_cases hlower : c = 'e'
    · subst hlower
      exact readExponent_append hends h
    · by_cases hupper : c = 'E'
      · subst hupper
        exact readExponent_append hends h
      · have hnone : ∀ text, readPower (c :: text) = some (0, c :: text) := by simp_all [readPower]
        rw [hnone] at h
        obtain ⟨rfl, rfl⟩ := Prod.mk.inj (Option.some.inj h)
        exact hnone (text ++ rest)

theorem finishFloat_append {negative : Bool} {significand : Nat} {exponent : Int}
    (hends : Ends rest) (h : finishFloat negative significand exponent text = some (n, tail)) :
    finishFloat negative significand exponent (text ++ rest) = some (n, tail ++ rest) := by
  rw [finishFloat_eq] at h ⊢
  obtain ⟨⟨written, tail'⟩, hread, h⟩ := Option.bind_eq_some_iff.1 h
  obtain ⟨number, hnumber, h⟩ := Option.map_eq_some_iff.1 h
  obtain ⟨rfl, rfl⟩ := Prod.mk.inj h
  rw [readPower_append hends hread, Option.bind_some, hnumber, Option.map_some]

/-- Finishes a number of which `dropped` digits in front of the point found no place in the
significand. -/
def finishWhole (negative : Bool) (significand dropped : Nat) (text : List Char) :
    Option (JsonNumber × List Char) :=
  match text with
  | '.' :: tail =>
    if (tail.takeWhile Char.isDigit).isEmpty then none
    else
      let (significand, places) := appendDigits significand (tail.takeWhile Char.isDigit)
      finishFloat negative significand ((dropped : Int) - places) (tail.dropWhile Char.isDigit)
  | _ =>
    if dropped = 0 ∧ text.head? ≠ some 'e' ∧ text.head? ≠ some 'E' then
      some (ofSignificand negative significand, text)
    else finishFloat negative significand dropped text

theorem readUnsigned_eq (negative : Bool) (text : List Char) :
    readUnsigned negative text =
      let whole := text.takeWhile Char.isDigit
      if whole.isEmpty || (whole.head? = some '0' && whole.length ≠ 1) then none
      else finishWhole negative (appendDigits 0 whole).1 (whole.length - (appendDigits 0 whole).2)
        (text.dropWhile Char.isDigit) := rfl

theorem finishWhole_of_head? {negative : Bool} {significand dropped : Nat}
    (h : text.head? ≠ some '.') : finishWhole negative significand dropped text =
      if dropped = 0 ∧ text.head? ≠ some 'e' ∧ text.head? ≠ some 'E' then
        some (ofSignificand negative significand, text)
      else finishFloat negative significand dropped text := by
  unfold finishWhole
  split
  · exact absurd rfl h
  · rfl

theorem Ends.head?_ne (h : Ends rest) :
    rest.head? ≠ some '.' ∧ rest.head? ≠ some 'e' ∧ rest.head? ≠ some 'E' := by
  cases rest with
  | nil => simp
  | cons c rest => simpa using (h c rfl).2

theorem finishWhole_append {negative : Bool} {significand dropped : Nat} (hends : Ends rest)
    (h : finishWhole negative significand dropped text = some (n, tail)) :
    finishWhole negative significand dropped (text ++ rest) = some (n, tail ++ rest) := by
  by_cases hpoint : text.head? = some '.'
  · obtain ⟨text, rfl⟩ := List.head?_eq_some_iff.1 hpoint
    simp only [finishWhole, List.cons_append, hends.takeWhile_append,
      hends.dropWhile_append] at h ⊢
    split at h
    · cases h
    · next hfraction =>
      rw [if_neg hfraction]
      exact finishFloat_append hends h
  · have hhead : ∀ c, rest.head? ≠ some c →
        ((text ++ rest).head? = some c ↔ text.head? = some c) := by
      intro c hc
      cases text with
      | nil => simpa using hc
      | cons d text => rfl
    obtain ⟨hpoint', hlower, hupper⟩ := hends.head?_ne
    rw [finishWhole_of_head? hpoint] at h
    rw [finishWhole_of_head? (mt (hhead _ hpoint').1 hpoint)]
    simp only [ne_eq, hhead _ hlower, hhead _ hupper] at h ⊢
    split at h
    · next hinteger =>
      obtain ⟨rfl, rfl⟩ := Prod.mk.inj (Option.some.inj h)
      rw [if_pos hinteger]
    · next hinteger =>
      rw [if_neg hinteger]
      exact finishFloat_append hends h

theorem readUnsigned_append {negative : Bool} (hends : Ends rest)
    (h : readUnsigned negative text = some (n, tail)) :
    readUnsigned negative (text ++ rest) = some (n, tail ++ rest) := by
  simp only [readUnsigned_eq, hends.takeWhile_append, hends.dropWhile_append] at h ⊢
  split at h
  · cases h
  · next hwhole =>
    rw [if_neg hwhole]
    exact finishWhole_append hends h

/-- A number is read up to where it ends, whatever follows it. -/
theorem readNumber_append (hends : Ends rest) (h : readNumber text = some (n, tail)) :
    readNumber (text ++ rest) = some (n, tail ++ rest) := by
  cases text with
  | nil => simp [readNumber, readUnsigned] at h
  | cons c text =>
    by_cases hminus : c = '-'
    · subst hminus
      exact readUnsigned_append hends h
    · have hplain : ∀ text, readNumber (c :: text) = readUnsigned false (c :: text) := by
        simp_all [readNumber]
      rw [hplain] at h
      rw [List.cons_append, hplain]
      exact readUnsigned_append hends h

/-! ### Integers -/

theorem head?_toDigits_ne {n : Nat} (h : 0 < n) : (Nat.toDigits 10 n).head? ≠ some '0' := by
  induction n using Nat.strongRecOn with
  | ind n ih =>
    by_cases hlt : n < 10
    · rw [Nat.toDigits_of_lt_base hlt]
      have hdigit : ∀ n < 10, 0 < n → [n.digitChar].head? ≠ some '0' := by decide
      exact hdigit n hlt h
    · rw [Nat.toDigits_of_base_le (by decide) (Nat.le_of_not_lt hlt),
        List.head?_append]
      cases hfront : Nat.toDigits 10 (n / 10) with
      | nil => exact absurd hfront Nat.toDigits_ne_nil
      | cons c rest => simpa [hfront] using ih (n / 10) (by omega) (by omega)

/-- Digits of a number below `2 ^ 64` are all kept. -/
theorem appendDigits_eq {n : Nat} {digits : List Char}
    (h : Nat.ofDigitChars 10 digits n < UInt64.size) :
    appendDigits n digits = (Nat.ofDigitChars 10 digits n, digits.length) := by
  induction digits generalizing n with
  | nil => simp [appendDigits]
  | cons c rest ih =>
    have hnext : n * 10 + Text.digitValue c = 10 * n + (c.toNat - '0'.toNat) := by
      rw [Nat.mul_comm, Text.digitValue]
    rw [Nat.ofDigitChars_cons, ← hnext] at h ⊢
    have hle : n * 10 + Text.digitValue c < UInt64.size := by
      rw [Nat.ofDigitChars_eq_ofDigitChars_zero] at h
      have hpos : 1 ≤ 10 ^ rest.length := Nat.pow_pos (by decide)
      have hmul := Nat.mul_le_mul_right (n * 10 + Text.digitValue c) hpos
      omega
    simp only [appendDigits, if_pos hle, ih h, List.length_cons]

theorem readUnsigned_toDigits (negative : Bool) {n : Nat} (h : n < UInt64.size) :
    readUnsigned negative (Nat.toDigits 10 n) = some (ofSignificand negative n, []) := by
  have hdigits : ∀ c ∈ Nat.toDigits 10 n, c.isDigit = true := fun c hc =>
    Nat.isDigit_of_mem_toDigits (by decide) (by decide) hc
  have hwhole : (Nat.toDigits 10 n).takeWhile Char.isDigit = Nat.toDigits 10 n :=
    List.takeWhile_eq_self_iff.2 hdigits
  have hbehind : (Nat.toDigits 10 n).dropWhile Char.isDigit = [] :=
    List.dropWhile_eq_nil_iff.2 hdigits
  have hvalue : Nat.ofDigitChars 10 (Nat.toDigits 10 n) 0 = n := Nat.ofDigitChars_ten_toDigits
  have hcheck : ¬((Nat.toDigits 10 n).isEmpty ||
      ((Nat.toDigits 10 n).head? = some '0' && (Nat.toDigits 10 n).length ≠ 1)) := by
    rcases Nat.eq_zero_or_pos n with rfl | hpos
    · decide
    · simp [head?_toDigits_ne hpos, Nat.toDigits_ne_nil]
  have hkept : appendDigits 0 (Nat.toDigits 10 n) = (n, (Nat.toDigits 10 n).length) := by
    rw [appendDigits_eq (by rwa [hvalue]), hvalue]
  simp only [readUnsigned_eq, hwhole, hbehind, hkept, if_neg hcheck, Nat.sub_self]
  rfl

end Json

namespace JsonNumber

/-- A number that is read back from its own text: a word without sign, a word that is below zero, or
a number in double precision that reading its digits does not miss. -/
def Legible : JsonNumber → Prop
  | .natural _ => True
  | .negative i => i.toInt < 0
  | .float x => Json.readNumber (Json.numberText (.float x)) = some (.float x, [])

theorem Legible.readNumber_numberText {n : JsonNumber} (h : n.Legible) :
    Json.readNumber (Json.numberText n) = some (n, []) := by
  cases n with
  | natural n =>
    have htext : Json.numberText (.natural n) = Nat.toDigits 10 n.toNat := Nat.toList_repr
    rw [htext]
    cases hdigits : Nat.toDigits 10 n.toNat with
    | nil => exact absurd hdigits Nat.toDigits_ne_nil
    | cons c rest =>
      have hdigit : c.isDigit = true := Nat.isDigit_of_mem_toDigits (b := 10) (n := n.toNat)
        (by decide) (by decide) (by simp [hdigits])
      have hplain : Json.readNumber (c :: rest) = Json.readUnsigned false (c :: rest) := by
        unfold Json.readNumber
        split
        · next heq => simp_all
        · rfl
      rw [hplain, ← hdigits, Json.readUnsigned_toDigits false n.toNat_lt]
      simp [Json.ofSignificand]
  | negative i =>
    have hlow : i.toInt < 0 := h
    have hmin := Int64.le_toInt i
    have habs : -(i.toInt.natAbs : Int) = i.toInt := by omega
    have htext : Json.numberText (.negative i) = '-' :: Nat.toDigits 10 i.toInt.natAbs := by
      have hnat : (-i.toInt).toNat = i.toInt.natAbs := by omega
      rw [Json.numberText, Int.toString_eq_repr, Int.repr_eq_if, if_neg (by omega), hnat]
      simp [String.toList_append, Nat.toList_repr]
    have hread := Json.readUnsigned_toDigits true (n := i.toInt.natAbs) (by
      have hsize : UInt64.size = 2 ^ 64 := rfl
      omega)
    rw [htext]
    refine hread.trans ?_
    rw [Json.ofSignificand, if_neg (by decide), if_neg (by omega), habs, Int64.ofInt_toInt]
  | float x => exact h

end JsonNumber

end PgToolkit
