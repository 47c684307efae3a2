import PgToolkit.Text.Hex

/-!
# Hexadecimal digits read back

The two digits that a byte is written with are read as the byte.
-/

namespace PgToolkit.Text

theorem hexValue?_hexDigit {n : Nat} (h : n < 16) : hexValue? (hexDigit n) = some n := by
  have hall : ∀ n < 16, hexValue? (hexDigit n) = some n := by decide
  exact hall n h

theorem toNat_lt_of_hexValue? {c : Char} {value : Nat} (h : hexValue? c = some value) :
    c.toNat < 128 := by
  have hle : ∀ last : Char, last.toNat < 128 → c ≤ last → c.toNat < 128 := by
    intro last hlast hc
    exact Nat.lt_of_le_of_lt (UInt32.le_iff_toNat_le.1 hc) hlast
  rw [hexValue?] at h
  split at h
  · rename_i hrange
    exact hle '9' (by decide) hrange.2
  · split at h
    · rename_i hrange
      exact hle 'f' (by decide) hrange.2
    · split at h
      · rename_i hrange
        exact hle 'F' (by decide) hrange.2
      · cases h

theorem hexByte_ofNat {high low : Nat} (hhigh : high < 16) (hlow : low < 16) :
    hexByte (UInt8.ofNat (16 * high + low)) = [hexDigit high, hexDigit low] := by
  have hvalue : (UInt8.ofNat (16 * high + low)).toNat = 16 * high + low := by
    rw [UInt8.toNat_ofNat']
    omega
  rw [hexByte, hvalue, show (16 * high + low) / 16 = high by omega,
    show (16 * high + low) % 16 = low by omega]

@[simp] theorem hexBytes_cons (b : UInt8) (rest : List UInt8) :
    hexBytes (b :: rest) = hexByte b ++ hexBytes rest := rfl

@[simp] theorem hexBytes_nil : hexBytes [] = [] := rfl

theorem length_hexBytes (bytes : List UInt8) : (hexBytes bytes).length = 2 * bytes.length := by
  induction bytes with
  | nil => rfl
  | cons b rest ih =>
    rw [hexBytes_cons, List.length_append, ih, List.length_cons, hexByte]
    simp
    omega

theorem hexBytes_drop (bytes : List UInt8) (count : Nat) :
    hexBytes (bytes.drop count) = (hexBytes bytes).drop (2 * count) := by
  induction count generalizing bytes with
  | zero => rfl
  | succ count ih =>
    cases bytes with
    | nil => simp
    | cons b rest =>
      rw [List.drop_succ_cons, ih, hexBytes_cons, hexByte, Nat.mul_succ]
      rfl

theorem hexBytes_take (bytes : List UInt8) (count : Nat) :
    hexBytes (bytes.take count) = (hexBytes bytes).take (2 * count) := by
  induction count generalizing bytes with
  | zero => rfl
  | succ count ih =>
    cases bytes with
    | nil => simp
    | cons b rest =>
      rw [List.take_succ_cons, hexBytes_cons, ih, hexBytes_cons, hexByte, Nat.mul_succ]
      rfl

/-- Bytes are read back from their digits. -/
theorem parseHexBytes_hexBytes (bytes : List UInt8) :
    parseHexBytes (hexBytes bytes) = some bytes := by
  induction bytes with
  | nil => rfl
  | cons b rest ih =>
    have hlt := b.toNat_lt
    have hvalue : 16 * (b.toNat / 16) + b.toNat % 16 = b.toNat := Nat.div_add_mod ..
    change (do
      let h ← hexValue? (hexDigit (b.toNat / 16))
      let l ← hexValue? (hexDigit (b.toNat % 16))
      return UInt8.ofNat (16 * h + l) :: (← parseHexBytes (hexBytes rest))) = _
    rw [hexValue?_hexDigit (by omega), hexValue?_hexDigit (Nat.mod_lt _ (by decide)), ih]
    simp only [Option.bind_eq_bind, Option.bind_some, hvalue, UInt8.ofNat_toNat]
    rfl

end PgToolkit.Text
