import PgToolkit.Number.Binary

/-!
# Rounding of exact numbers

A number that a format can hold is not changed by rounding: rounding gives the word that it was
taken from. A number in single precision is such a number in double precision too, so it comes back
from there; what is not a number comes back as a quiet one.
-/

namespace PgToolkit.Number

-- A power is the core library's, also where a general one is in scope.
attribute [local instance (high)] instPowNat

theorem divRoundEven_mul {n den : Nat} (hden : 0 < den) : divRoundEven (n * den) den = n := by
  have hrest : n * den % den = 0 := Nat.mul_mod_left n den
  have hquotient : n * den / den = n := Nat.mul_div_cancel n hden
  simp only [divRoundEven, hrest, hquotient]
  rw [if_neg (by omega)]

theorem divRoundEven_le (num den : Nat) : divRoundEven num den ≤ num / den + 1 := by
  simp only [divRoundEven]
  split <;> omega

theorem log2_mul_two_pow {n : Nat} (h : n ≠ 0) (k : Nat) : (n * 2 ^ k).log2 = n.log2 + k := by
  have hpos : 0 < 2 ^ k := Nat.pow_pos (by decide)
  have hne : n * 2 ^ k ≠ 0 := Nat.mul_ne_zero h (Nat.pos_iff_ne_zero.1 hpos)
  rw [Nat.log2_eq_iff hne, Nat.pow_add, Nat.add_right_comm, Nat.pow_add]
  exact ⟨Nat.mul_le_mul_right _ (Nat.log2_self_le h),
    Nat.mul_lt_mul_of_pos_right Nat.lt_log2_self hpos⟩

theorem scaledDen_pos (e : Int) : 0 < scaledDen e := Nat.pow_pos (by decide)

namespace Format

variable (f : Format)

theorem floorLog2_scaled {n : Nat} (h : n ≠ 0) (e : Int) :
    floorLog2 (scaledNum n e) (scaledDen e) = n.log2 + e := by
  have hguess : ((scaledNum n e).log2 : Int) - ((scaledDen e).log2 : Int) = n.log2 + e := by
    rw [scaledNum, scaledDen, log2_mul_two_pow h, Nat.log2_two_pow]
    omega
  have hreached : if 0 ≤ (n.log2 : Int) + e
      then scaledDen e * 2 ^ ((n.log2 : Int) + e).toNat ≤ scaledNum n e
      else scaledDen e ≤ scaledNum n e * 2 ^ (-((n.log2 : Int) + e)).toNat := by
    split
    · next hpos =>
      have hsum : (-e).toNat + ((n.log2 : Int) + e).toNat = n.log2 + e.toNat := by omega
      rw [scaledNum, scaledDen, ← Nat.pow_add, hsum, Nat.pow_add]
      exact Nat.mul_le_mul_right _ (Nat.log2_self_le h)
    · next hneg =>
      have hsum : (-e).toNat = n.log2 + (e.toNat + (-((n.log2 : Int) + e)).toNat) := by omega
      rw [scaledNum, scaledDen, Nat.mul_assoc, ← Nat.pow_add, hsum, Nat.pow_add]
      exact Nat.mul_le_mul_right _ (Nat.log2_self_le h)
  simp only [floorLog2, hguess, if_pos hreached]

/-- A number `n * 2 ^ k * 2 ^ e` with no digits behind the last place of the format is not
changed. -/
theorem round_scaled {n : Nat} (h : n ≠ 0) (k : Nat) (e : Int) {exponent : Int}
    (hexponent : max (n.log2 + k + e - f.fractionBits) f.minExponent = exponent)
    (hle : exponent ≤ e + k) :
    f.round (scaledNum (n * 2 ^ k) e) (scaledDen e) =
      min ((exponent - f.minExponent).toNat * 2 ^ f.fractionBits + n * 2 ^ (e + k - exponent).toNat)
        f.infinity := by
  have hpow : ∀ k, 0 < 2 ^ k := fun k => Nat.pow_pos (by decide)
  have hne : n * 2 ^ k ≠ 0 := Nat.mul_ne_zero h (Nat.pos_iff_ne_zero.1 (hpow k))
  have hnum : scaledNum (n * 2 ^ k) e ≠ 0 :=
    Nat.mul_ne_zero hne (Nat.pos_iff_ne_zero.1 (hpow _))
  have hlog : ((n * 2 ^ k).log2 : Int) + e - f.fractionBits = n.log2 + k + e - f.fractionBits := by
    rw [log2_mul_two_pow h k]
    rfl
  rw [round, if_neg hnum]
  simp only [floorLog2_scaled hne, hlog, hexponent]
  congr 2
  split
  · next hpos =>
    have hexact : scaledNum (n * 2 ^ k) e = n * 2 ^ (e + k - exponent).toNat *
        (scaledDen e * 2 ^ exponent.toNat) := by
      rw [scaledNum, scaledDen, Nat.mul_assoc, Nat.mul_assoc, ← Nat.pow_add, ← Nat.pow_add,
        ← Nat.pow_add]
      congr 2
      omega
    rw [hexact, divRoundEven_mul (Nat.mul_pos (scaledDen_pos e) (hpow _))]
  · next hneg =>
    have hexact : scaledNum (n * 2 ^ k) e * 2 ^ (-exponent).toNat =
        n * 2 ^ (e + k - exponent).toNat * scaledDen e := by
      rw [scaledNum, scaledDen, Nat.mul_assoc, Nat.mul_assoc, Nat.mul_assoc, ← Nat.pow_add,
        ← Nat.pow_add, ← Nat.pow_add]
      congr 2
      omega
    rw [hexact, divRoundEven_mul (scaledDen_pos e)]

variable {f} {word : Nat}

theorem field_eq_div (h : word < f.infinity) : f.field word = word / 2 ^ f.fractionBits := by
  have htop : word / 2 ^ f.fractionBits < f.topField :=
    (Nat.div_lt_iff_lt_mul (Nat.pow_pos (by decide))).2 h
  exact Nat.mod_eq_of_lt (Nat.lt_of_lt_of_le htop (Nat.sub_le ..))

theorem fraction_lt (f : Format) (word : Nat) : f.fraction word < 2 ^ f.fractionBits :=
  Nat.mod_lt _ (Nat.pow_pos (by decide))

theorem significand_lt (f : Format) (word : Nat) :
    f.significand word < 2 ^ (f.fractionBits + 1) := by
  have hlt := f.fraction_lt word
  rw [significand, Nat.pow_succ]
  split <;> omega

theorem exponent_of_significand_eq_zero (h : f.significand word = 0) :
    f.exponent word = f.minExponent := by
  have hpos : 0 < 2 ^ f.fractionBits := Nat.pow_pos (by decide)
  rw [significand] at h
  split at h
  · next hfield =>
    rw [exponent, hfield]
    exact Int.add_zero _
  · omega

/-- The highest digit of a finite number that is not zero is that of its exponent field. -/
theorem max_significand (h : f.significand word ≠ 0) :
    max ((f.significand word).log2 + f.exponent word - f.fractionBits) f.minExponent =
      f.exponent word := by
  have hlt := f.fraction_lt word
  rw [significand] at h ⊢
  by_cases hfield : f.field word = 0
  · rw [if_pos hfield] at h ⊢
    have hlog : (f.fraction word).log2 < f.fractionBits := (Nat.log2_lt h).2 hlt
    rw [exponent, hfield]
    omega
  · rw [if_neg hfield] at h ⊢
    have hlog : (f.fraction word + 2 ^ f.fractionBits).log2 = f.fractionBits := by
      rw [Nat.log2_eq_iff h, Nat.pow_succ]
      omega
    rw [hlog, exponent]
    omega

/-- The number of a word is rounded to the word, also when zeros are appended to its significand. -/
theorem round_word (h : word < f.infinity) (k : Nat) :
    f.round (scaledNum (f.significand word * 2 ^ k) (f.exponent word - k))
      (scaledDen (f.exponent word - k)) = word := by
  have hword : word / 2 ^ f.fractionBits * 2 ^ f.fractionBits + f.fraction word = word :=
    Nat.div_add_mod' word _
  rw [← field_eq_div h] at hword
  by_cases hzero : f.significand word = 0
  · rw [hzero, scaledNum, Nat.zero_mul, Nat.zero_mul, round, if_pos rfl]
    rw [significand] at hzero
    split at hzero
    · next hfield =>
      rw [hfield, hzero] at hword
      omega
    · have hpos : 0 < 2 ^ f.fractionBits := Nat.pow_pos (by decide)
      omega
  · have hmax := max_significand hzero
    have hexponent : max (((f.significand word).log2 : Int) + k + (f.exponent word - k) -
        f.fractionBits) f.minExponent = f.exponent word := by omega
    have hround := f.round_scaled hzero k _ hexponent (by omega)
    have hnone : (f.exponent word - k + k - f.exponent word).toNat = 0 := by omega
    have hplace : (f.exponent word - f.minExponent).toNat = f.field word - 1 := by
      rw [exponent]
      omega
    rw [hnone, hplace, Nat.pow_zero, Nat.mul_one] at hround
    rw [hround]
    -- the digits in front of the fraction are those of the exponent field
    have hsum : (f.field word - 1) * 2 ^ f.fractionBits + f.significand word = word := by
      rw [significand]
      split
      · next hfield => rw [hfield] at hword ⊢; omega
      · next hfield =>
        have hsucc : f.field word * 2 ^ f.fractionBits =
            (f.field word - 1) * 2 ^ f.fractionBits + 2 ^ f.fractionBits := by
          rw [← Nat.succ_mul, Nat.succ_eq_add_one, Nat.sub_add_cancel (by omega)]
        omega
    rw [hsum, Nat.min_eq_left (Nat.le_of_lt h)]

/-- The parts of a word that is put together of them, for numbers with all of their digits. -/
theorem parts_of_sum {n digits : Nat} (hlow : 2 ^ f.fractionBits ≤ digits)
    (hhigh : digits < 2 ^ (f.fractionBits + 1)) (hn : n + 1 < f.topField)
    (hword : n * 2 ^ f.fractionBits + digits = word) :
    word < f.infinity ∧ f.significand word = digits ∧ f.exponent word = f.minExponent + n := by
  rw [Nat.pow_succ] at hhigh
  have hsum : word = (digits - 2 ^ f.fractionBits) + 2 ^ f.fractionBits * (n + 1) := by
    rw [← hword, Nat.mul_add, Nat.mul_comm n]
    omega
  have hpos : 0 < 2 ^ f.fractionBits := Nat.pow_pos (by decide)
  have hfraction : f.fraction word = digits - 2 ^ f.fractionBits := by
    rw [fraction, hsum, Nat.add_mul_mod_self_left, Nat.mod_eq_of_lt (by omega)]
  have hdiv : word / 2 ^ f.fractionBits = n + 1 := by
    rw [hsum, Nat.add_mul_div_left _ _ hpos, Nat.div_eq_of_lt (by omega), Nat.zero_add]
  have hfinite : word < f.infinity := by
    rw [infinity, ← Nat.div_lt_iff_lt_mul hpos, hdiv]
    exact hn
  have hfield : f.field word = n + 1 := by rw [field_eq_div hfinite, hdiv]
  refine ⟨hfinite, ?_, ?_⟩
  · rw [significand, hfield, if_neg (Nat.succ_ne_zero n), hfraction]
    omega
  · rw [exponent, hfield]
    rfl

/-! ### Signs -/

theorem field_add_signBit (f : Format) (word : Nat) :
    f.field (word + f.signBit) = f.field word := by
  rw [field, field, signBit, Nat.pow_add, Nat.add_mul_div_left _ _ (Nat.pow_pos (by decide)),
    Nat.add_mod_right]

theorem fraction_add_signBit (f : Format) (word : Nat) :
    f.fraction (word + f.signBit) = f.fraction word := by
  rw [fraction, fraction, signBit, Nat.pow_add, Nat.add_mul_mod_self_left]

/-- The word with the given sign whose word without sign is given. -/
def signed (f : Format) (negative : Bool) (word : Nat) : Nat :=
  if negative then word + f.signBit else word

theorem signBit_add (f : Format) (negative : Bool) (word : Nat) :
    (if negative = true then f.signBit else 0) + word = f.signed negative word := by
  rw [signed]
  split
  · exact Nat.add_comm _ _
  · exact Nat.zero_add _

@[simp] theorem field_signed (f : Format) (negative : Bool) (word : Nat) :
    f.field (f.signed negative word) = f.field word := by
  cases negative
  · rfl
  · exact f.field_add_signBit word

@[simp] theorem fraction_signed (f : Format) (negative : Bool) (word : Nat) :
    f.fraction (f.signed negative word) = f.fraction word := by
  cases negative
  · rfl
  · exact f.fraction_add_signBit word

@[simp] theorem significand_signed (f : Format) (negative : Bool) (word : Nat) :
    f.significand (f.signed negative word) = f.significand word := by
  simp [significand]

@[simp] theorem exponent_signed (f : Format) (negative : Bool) (word : Nat) :
    f.exponent (f.signed negative word) = f.exponent word := by
  simp [exponent]

theorem signBit_le_signed {f : Format} {word : Nat} (h : word < f.signBit) (negative : Bool) :
    decide (f.signBit ≤ f.signed negative word) = negative := by
  cases negative with
  | false => exact decide_eq_false (Nat.not_le.2 h)
  | true => exact decide_eq_true (Nat.le_add_left ..)

theorem infinity_lt_signBit (f : Format) : f.infinity < f.signBit := by
  have hpos : 0 < 2 ^ f.exponentBits := Nat.pow_pos (by decide)
  rw [infinity, signBit, Nat.pow_add, Nat.mul_comm (2 ^ f.fractionBits)]
  exact Nat.mul_lt_mul_of_pos_right (by rw [topField]; omega) (Nat.pow_pos (by decide))

/-- The parts of a word in which all bits of the exponent field are set. -/
theorem parts_of_special (f : Format) {fraction : Nat} (h : fraction < 2 ^ f.fractionBits) :
    f.field (f.infinity + fraction) = f.topField ∧ f.fraction (f.infinity + fraction) = fraction ∧
      f.infinity + fraction < f.signBit := by
  have hpos : 0 < 2 ^ f.fractionBits := Nat.pow_pos (by decide)
  have htop : f.topField < 2 ^ f.exponentBits :=
    Nat.sub_lt (Nat.pow_pos (by decide)) Nat.one_pos
  have hdiv : (f.infinity + fraction) / 2 ^ f.fractionBits = f.topField := by
    rw [infinity, Nat.add_comm, Nat.add_mul_div_right _ _ hpos, Nat.div_eq_of_lt h, Nat.zero_add]
  refine ⟨?_, ?_, ?_⟩
  · rw [field, hdiv, Nat.mod_eq_of_lt htop]
  · rw [Format.fraction, infinity, Nat.mul_add_mod_self_right, Nat.mod_eq_of_lt h]
  · rw [signBit, Nat.pow_add, Nat.mul_comm, ← Nat.div_lt_iff_lt_mul hpos, hdiv]
    exact htop

/-- A word without sign is that of a finite number unless all bits of its exponent field are set. -/
theorem lt_infinity {f : Format} {word : Nat} (h : word < f.signBit)
    (hfield : f.field word ≠ f.topField) : word < f.infinity := by
  have hpos : 0 < 2 ^ f.fractionBits := Nat.pow_pos (by decide)
  have hdiv : word / 2 ^ f.fractionBits < 2 ^ f.exponentBits := by
    rw [Nat.div_lt_iff_lt_mul hpos, ← Nat.pow_add, Nat.add_comm]
    exact h
  have hmod : f.field word = word / 2 ^ f.fractionBits := Nat.mod_eq_of_lt hdiv
  rw [hmod, topField] at hfield
  rw [infinity, ← Nat.div_lt_iff_lt_mul hpos, topField]
  omega

end Format

namespace Binary64

theorem toNat_bits_ofMagnitude {word : Nat} (h : word < Format.binary64.signBit) (negative : Bool) :
    (ofMagnitude negative word).bits.toNat = Format.binary64.signed negative word := by
  have hsize : Format.binary64.signBit = 9223372036854775808 := rfl
  have hlt : Format.binary64.signed negative word < UInt64.size := by
    have hwidth : UInt64.size = 18446744073709551616 := rfl
    rw [Format.signed]
    split <;> omega
  exact UInt64.toNat_ofNat_of_lt' hlt

theorem isNegative_ofMagnitude {word : Nat} (h : word < Format.binary64.signBit) (negative : Bool) :
    (ofMagnitude negative word).isNegative = negative := by
  rw [isNegative, toNat_bits_ofMagnitude h]
  exact Format.signBit_le_signed h negative

theorem isFinite_ofMagnitude {word : Nat} (h : word < Format.binary64.infinity)
    (negative : Bool) : (ofMagnitude negative word).isFinite = true := by
  have hfield : word / 2 ^ Format.binary64.fractionBits < Format.binary64.topField :=
    (Nat.div_lt_iff_lt_mul (Nat.pow_pos (by decide))).2 h
  rw [isFinite, toNat_bits_ofMagnitude (Nat.lt_trans h (Format.infinity_lt_signBit _)),
    Format.field_signed, Format.field_eq_div h]
  exact bne_iff_ne.2 (Nat.ne_of_lt hfield)

/-- An integer that takes all bits of a word is rounded to a finite number. -/
theorem isFinite_ofInt {n : Nat} (h : n.log2 = 63) : (ofInt n).isFinite = true := by
  have hne : n ≠ 0 := by
    rintro rfl
    cases h
  have hlarge : n < 2 ^ 64 := ((Nat.log2_eq_iff hne).1 h).2
  have hfloor : Format.floorLog2 n 1 = 63 := by
    simpa [scaledNum, scaledDen, h] using Format.floorLog2_scaled hne 0
  have hexponent :
      max ((63 : Int) - Format.binary64.fractionBits) Format.binary64.minExponent = 11 := rfl
  have hround : Format.binary64.round n 1 =
      min (1085 * 2 ^ 52 + divRoundEven n (1 * 2 ^ 11)) Format.binary64.infinity := by
    simp only [Format.round, if_neg hne, hfloor, hexponent]
    rfl
  have hinfinity : Format.binary64.infinity = 2047 * 2 ^ 52 := rfl
  have hword : Format.binary64.round n 1 < Format.binary64.infinity := by
    have hsignificand := divRoundEven_le n (1 * 2 ^ 11)
    rw [hround, hinfinity]
    omega
  have hsign : decide ((n : Int) < 0) = false := decide_eq_false (by omega)
  rw [ofInt, ofRatio, hsign, Int.natAbs_natCast]
  exact isFinite_ofMagnitude hword false

end Binary64

namespace Binary32

/-- The word of a number without its sign. -/
theorem exists_signed (x : Binary32) : ∃ word < Format.binary32.signBit,
    x.bits.toNat = Format.binary32.signed x.isNegative word := by
  have hsize : Format.binary32.signBit = 2147483648 := rfl
  have hlt := x.bits.toNat_lt
  by_cases hnegative : Format.binary32.signBit ≤ x.bits.toNat
  · refine ⟨x.bits.toNat - Format.binary32.signBit, by omega, ?_⟩
    rw [isNegative, decide_eq_true hnegative, Format.signed, if_pos rfl]
    omega
  · refine ⟨x.bits.toNat, by omega, ?_⟩
    rw [isNegative, decide_eq_false hnegative]
    rfl

/-- A finite number is not changed in double precision. -/
theorem widen_of_finite {x : Binary32} {word : Nat} (hword : word < Format.binary32.infinity)
    (hx : x.bits.toNat = Format.binary32.signed x.isNegative word) :
    ∃ wide k : Nat, x.widen = Binary64.ofMagnitude x.isNegative wide ∧
      wide < Format.binary64.infinity ∧
      Format.binary64.significand wide = Format.binary32.significand word * 2 ^ k ∧
      Format.binary64.exponent wide = Format.binary32.exponent word - k := by
  have htop : Format.binary32.topField = 255 := rfl
  have hmin : Format.binary32.minExponent = -149 := rfl
  have hmin' : Format.binary64.minExponent = -1074 := rfl
  have hbits : Format.binary64.fractionBits = 52 := rfl
  have hfield : Format.binary32.field word < 255 := by
    rw [Format.field_eq_div hword, Nat.div_lt_iff_lt_mul (Nat.pow_pos (by decide))]
    exact hword
  have hlow : -149 ≤ Format.binary32.exponent word := by rw [Format.exponent]; omega
  have hhigh : Format.binary32.exponent word ≤ 104 := by rw [Format.exponent]; omega
  have hwiden : x.widen = Binary64.ofMagnitude x.isNegative (Format.binary64.round
      (scaledNum (Format.binary32.significand word) (Format.binary32.exponent word))
      (scaledDen (Format.binary32.exponent word))) := by
    simp only [widen, hx, Format.field_signed, Format.significand_signed, Format.exponent_signed]
    rw [if_neg (by omega)]
    rfl
  have hsignificand := Format.significand_lt Format.binary32 word
  have hsmallest : Format.binary32.significand word = 0 →
      Format.binary32.exponent word = -149 := Format.exponent_of_significand_eq_zero
  generalize Format.binary32.significand word = s at *
  generalize Format.binary32.exponent word = e at *
  by_cases hzero : s = 0
  · subst hzero
    rw [hsmallest rfl] at hwiden ⊢
    obtain ⟨k, hk⟩ : ∃ k : Nat, k = 925 := ⟨_, rfl⟩
    exact ⟨0, k, hwiden, by decide, (Nat.zero_mul _).symm, by rw [hk]; rfl⟩
  · refine ⟨_, 52 - s.log2, hwiden, ?_⟩
    have hlog : s.log2 < 24 := (Nat.log2_lt hzero).2 hsignificand
    have hexponent : max ((s.log2 : Int) + (0 : Nat) + e - Format.binary64.fractionBits)
        Format.binary64.minExponent = s.log2 + e - 52 := by omega
    have hround := Format.binary64.round_scaled hzero 0 e hexponent (by omega)
    have hplaces : (e + (0 : Nat) - (s.log2 + e - 52)).toNat = 52 - s.log2 := by omega
    rw [Nat.pow_zero, Nat.mul_one, hplaces] at hround
    have hdigits : 2 ^ 52 ≤ s * 2 ^ (52 - s.log2) ∧ s * 2 ^ (52 - s.log2) < 2 ^ 53 := by
      have hsplit : s.log2 + (52 - s.log2) = 52 := by omega
      have hsplit' : s.log2 + 1 + (52 - s.log2) = 53 := by omega
      constructor
      · rw [← hsplit, Nat.pow_add, hsplit]
        exact Nat.mul_le_mul_right _ (Nat.log2_self_le hzero)
      · rw [← hsplit', Nat.pow_add]
        exact Nat.mul_lt_mul_of_pos_right Nat.lt_log2_self (Nat.pow_pos (by decide))
    obtain ⟨hfinite, hparts⟩ := Format.parts_of_sum (f := Format.binary64) hdigits.1 hdigits.2
      (n := ((s.log2 : Int) + e - 52 - Format.binary64.minExponent).toNat) (by
        have htop' : Format.binary64.topField = 2047 := rfl
        omega) rfl
    rw [hround, Nat.min_eq_left (Nat.le_of_lt hfinite)]
    refine ⟨hfinite, hparts.1, ?_⟩
    rw [hparts.2]
    omega

theorem narrow_widen_of_finite {x : Binary32} {word : Nat} (hword : word < Format.binary32.infinity)
    (hx : x.bits.toNat = Format.binary32.signed x.isNegative word) : x.widen.narrow = x := by
  obtain ⟨wide, k, hwiden, hwide, hsignificand, hexponent⟩ := widen_of_finite hword hx
  have hless := Nat.lt_trans hwide Format.binary64.infinity_lt_signBit
  have hbits := Binary64.toNat_bits_ofMagnitude hless x.isNegative
  have hfinite := Binary64.isFinite_ofMagnitude hwide x.isNegative
  rw [hwiden, Binary64.narrow]
  simp only [hfinite, if_true, Binary64.isNegative_ofMagnitude hless, Binary64.significand,
    Binary64.exponent, hbits, Format.significand_signed, Format.exponent_signed, hsignificand,
    hexponent, Format.round_word hword k, Format.signBit_add, ← hx,
    UInt32.ofNat_toNat]

/-- The fraction of what is no finite number when it has become quiet. -/
def quieted (fraction : Nat) : Nat :=
  if fraction = 0 then 0 else fraction ||| Format.binary32.quietBit

theorem quieted_lt {fraction : Nat} (h : fraction < 2 ^ Format.binary32.fractionBits) :
    quieted fraction < 2 ^ Format.binary32.fractionBits := by
  rw [quieted]
  split
  · decide
  · exact Nat.or_lt_two_pow h (by decide)

theorem quieted_eq_zero_iff {fraction : Nat} : quieted fraction = 0 ↔ fraction = 0 := by
  rw [quieted]
  split <;> simp_all

theorem quieted_quieted (fraction : Nat) : quieted (quieted fraction) = quieted fraction := by
  by_cases hzero : fraction = 0
  · subst hzero
    rfl
  · rw [quieted, if_neg (mt quieted_eq_zero_iff.1 hzero), quieted, if_neg hzero, Nat.or_assoc,
      Nat.or_self]

theorem widen_of_special {x : Binary32} {word : Nat}
    (htop : Format.binary32.field word = Format.binary32.topField)
    (hx : x.bits.toNat = Format.binary32.signed x.isNegative word) :
    x.widen = Binary64.ofMagnitude x.isNegative
      (Format.binary64.infinity + quieted (Format.binary32.fraction word) * 2 ^ extraBits) := by
  simp only [widen, hx, Format.field_signed, Format.fraction_signed, htop, if_true, quieted]
  split <;> simp

theorem narrow_of_special (negative : Bool) {fraction : Nat}
    (h : fraction < 2 ^ Format.binary32.fractionBits) :
    (Binary64.ofMagnitude negative
      (Format.binary64.infinity + quieted fraction * 2 ^ extraBits)).narrow =
        ⟨UInt32.ofNat (Format.binary32.signed negative
          (Format.binary32.infinity + quieted fraction))⟩ := by
  have hwide : quieted fraction * 2 ^ extraBits < 2 ^ Format.binary64.fractionBits := by
    have hlt := quieted_lt h
    have hextra : 2 ^ extraBits = 536870912 := rfl
    have hnarrow : 2 ^ Format.binary32.fractionBits = 8388608 := rfl
    have hbits : 2 ^ Format.binary64.fractionBits = 4503599627370496 := rfl
    rw [hextra, hbits]
    omega
  obtain ⟨hfield, hfraction, hless⟩ := Format.binary64.parts_of_special hwide
  have hbits := Binary64.toNat_bits_ofMagnitude hless negative
  have hfinite : (Binary64.ofMagnitude negative
      (Format.binary64.infinity + quieted fraction * 2 ^ extraBits)).isFinite = false := by
    rw [Binary64.isFinite, hbits, Format.field_signed, hfield]
    exact bne_self_eq_false _
  have hpos : 0 < 2 ^ extraBits := Nat.pow_pos (by decide)
  have hnan : (Binary64.ofMagnitude negative
      (Format.binary64.infinity + quieted fraction * 2 ^ extraBits)).isNaN =
        (quieted fraction != 0) := by
    have hiff : quieted fraction * 2 ^ extraBits = 0 ↔ quieted fraction = 0 :=
      Nat.mul_eq_zero.trans (or_iff_left (Nat.pos_iff_ne_zero.1 hpos))
    rw [Binary64.isNaN, hfinite, hbits, Format.fraction_signed, hfraction, Bool.eq_iff_iff]
    simp [hiff]
  simp only [Binary64.narrow, hfinite, hnan, Binary64.isNegative_ofMagnitude hless, hbits,
    Format.fraction_signed, hfraction, Nat.mul_div_cancel _ hpos, Format.signBit_add]
  by_cases hzero : fraction = 0
  · subst hzero
    rfl
  · have hsome : quieted fraction ≠ 0 := mt quieted_eq_zero_iff.1 hzero
    have hquiet : quieted fraction ||| Format.binary32.quietBit = quieted fraction := by
      rw [quieted, if_neg hzero, Nat.or_assoc, Nat.or_self]
    simp only [bne_iff_ne, ne_eq, hsome, not_false_eq_true, if_true, Bool.false_eq_true, if_false,
      hquiet]

/-- The word and the sign of a number that is put together of them. -/
theorem parts_mk (negative : Bool) {word : Nat} (h : word < Format.binary32.signBit) :
    (Binary32.mk (UInt32.ofNat (Format.binary32.signed negative word))).bits.toNat =
        Format.binary32.signed negative word ∧
      (Binary32.mk (UInt32.ofNat (Format.binary32.signed negative word))).isNegative =
        negative := by
  have hsize : Format.binary32.signBit = 2147483648 := rfl
  have hwidth : UInt32.size = 4294967296 := rfl
  have hlt : Format.binary32.signed negative word < UInt32.size := by
    rw [Format.signed]
    split <;> omega
  have hbits := UInt32.toNat_ofNat_of_lt' hlt
  refine ⟨hbits, ?_⟩
  rw [isNegative, hbits]
  exact Format.signBit_le_signed h negative

/-- A number that was widened survives being narrowed. -/
theorem widen_narrow_widen (x : Binary32) : x.widen.narrow.widen = x.widen := by
  obtain ⟨word, hword, hx⟩ := x.exists_signed
  by_cases htop : Format.binary32.field word = Format.binary32.topField
  · have hlt := Format.binary32.fraction_lt word
    obtain ⟨hfield, hfraction, hless⟩ := Format.binary32.parts_of_special (quieted_lt hlt)
    obtain ⟨hbits, hnegative⟩ := parts_mk x.isNegative hless
    rw [widen_of_special htop hx, narrow_of_special _ hlt,
      widen_of_special hfield (hbits.trans (by rw [hnegative])), hnegative, hfraction,
      quieted_quieted]
  · rw [narrow_widen_of_finite (Format.lt_infinity hword htop) hx]

end Binary32

end PgToolkit.Number
