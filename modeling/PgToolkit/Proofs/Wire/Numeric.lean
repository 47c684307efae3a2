import Mathlib.Data.List.TakeWhile
import PgToolkit.Proofs.Number.Rounding
import PgToolkit.Wire.Cell

/-!
# Exact numbers read back

Every decimal number is read back from its binary form. The reader adds up the groups of the
fraction one by one, each time as a decimal, and none of these sums is rounded: before the last
group a sum is a number with fewer digits, and the last one has at most three zeros more than the
number itself.
-/

namespace PgToolkit

open Number

-- A power is the core library's, also where a general one is in scope.
attribute [local instance (high)] instPowNat

namespace Wire

/-- The number that groups stand for, behind the groups of `n`. -/
def groupsValue (n : Nat) (groups : List Nat) : Nat :=
  groups.foldl (fun n group => n * groupBase + group) n

@[simp] theorem groupsValue_nil (n : Nat) : groupsValue n [] = n := rfl

@[simp] theorem groupsValue_cons (n group : Nat) (rest : List Nat) :
    groupsValue n (group :: rest) = groupsValue (n * groupBase + group) rest := rfl

theorem groupBase_pow (count : Nat) : groupBase ^ count = 10 ^ (4 * count) := by
  rw [Nat.pow_mul]
  rfl

theorem groupsValue_append (n : Nat) (front back : List Nat) :
    groupsValue n (front ++ back) = groupsValue (groupsValue n front) back :=
  List.foldl_append ..

theorem groupsValue_replicate_zero (n count : Nat) :
    groupsValue n (List.replicate count 0) = n * groupBase ^ count := by
  induction count generalizing n with
  | zero => simp
  | succ count ih => rw [List.replicate_succ, groupsValue_cons, ih, Nat.pow_succ']; grind

theorem mul_pow_le_groupsValue (n : Nat) (groups : List Nat) :
    n * groupBase ^ groups.length ≤ groupsValue n groups := by
  induction groups generalizing n with
  | nil => simp
  | cons group rest ih =>
    have hle := ih (n * groupBase + group)
    rw [List.length_cons, Nat.pow_succ', ← Nat.mul_assoc]
    exact Nat.le_trans (Nat.mul_le_mul_right _ (Nat.le_add_right ..)) hle

/-! ### The groups of a number -/

theorem groupsValue_groups (n : Nat) : groupsValue 0 (groups n) = n := by
  rw [groups]
  induction n using lowGroups.induct with
  | case1 => simp [lowGroups]
  | case2 n hn ih =>
    rw [lowGroups, if_neg hn, List.reverse_cons, groupsValue_append, ih]
    simp only [groupsValue_cons, groupsValue_nil]
    exact Nat.div_add_mod' n groupBase

theorem lt_groupBase_of_mem_groups {n group : Nat} (h : group ∈ groups n) : group < groupBase := by
  rw [groups, List.mem_reverse] at h
  induction n using lowGroups.induct with
  | case1 => simp [lowGroups] at h
  | case2 n hn ih =>
    rw [lowGroups, if_neg hn] at h
    rcases List.mem_cons.1 h with rfl | h
    · exact Nat.mod_lt n (by decide)
    · exact ih h

theorem length_groups_le {n count : Nat} (h : n < groupBase ^ count) :
    (groups n).length ≤ count := by
  rw [groups, List.length_reverse]
  induction count generalizing n with
  | zero =>
    have hzero : n = 0 := by simpa using h
    simp [lowGroups, hzero]
  | succ count ih =>
    rw [lowGroups]
    split
    · simp
    · have hlt : n / groupBase < groupBase ^ count := by
        rw [Nat.div_lt_iff_lt_mul (by decide), ← Nat.pow_succ]
        exact h
      simpa using ih hlt

theorem exists_eq_append_replicate (digits : List Nat) :
    ∃ count, digits = withoutTrailingZeros digits ++ List.replicate count 0 := by
  refine ⟨(digits.reverse.takeWhile (· = 0)).length, ?_⟩
  have hzeros : digits.reverse.takeWhile (· = 0) =
      List.replicate (digits.reverse.takeWhile (· = 0)).length 0 := by
    rw [List.eq_replicate_iff]
    exact ⟨rfl, fun digit hdigit => by simpa using List.mem_takeWhile_imp hdigit⟩
  have hsplit := congrArg List.reverse (List.takeWhile_append_dropWhile (p := (· = 0))
    (l := digits.reverse))
  rw [List.reverse_append, List.reverse_reverse, hzeros, List.reverse_replicate] at hsplit
  exact hsplit.symm

/-! ### Sums of the reader -/

/-- A number with zeros at the end of its fraction keeps as many of them as fit. -/
theorem fitMantissa_eq_some {mantissa zeros scale kept : Nat} (hmantissa : mantissa < mantissaSize)
    (hzeros : zeros ≤ scale) (hkept : kept ≤ scale) (hle : scale ≤ kept + zeros) :
    ∃ mantissa' scale', fitMantissa (mantissa * 10 ^ zeros) scale kept = some (mantissa', scale') ∧
      mantissa' < mantissaSize ∧ scale' ≤ scale ∧
      mantissa' * 10 ^ (scale - scale') = mantissa * 10 ^ zeros := by
  have hround : ∀ kept ≤ scale, scale ≤ kept + zeros →
      divRoundEven (mantissa * 10 ^ zeros) (10 ^ (scale - kept)) =
        mantissa * 10 ^ (zeros - (scale - kept)) := by
    intro kept hkept hle
    have hsplit : 10 ^ zeros = 10 ^ (zeros - (scale - kept)) * 10 ^ (scale - kept) := by
      rw [← Nat.pow_add]
      congr 1
      omega
    rw [hsplit, ← Nat.mul_assoc]
    exact divRoundEven_mul (Nat.pow_pos (by decide))
  have hback : ∀ kept ≤ scale, scale ≤ kept + zeros →
      mantissa * 10 ^ (zeros - (scale - kept)) * 10 ^ (scale - kept) = mantissa * 10 ^ zeros := by
    intro kept hkept hle
    rw [Nat.mul_assoc, ← Nat.pow_add]
    congr 2
    omega
  induction kept with
  | zero =>
    have hsame : zeros - (scale - 0) = 0 := by omega
    have hrounded := hround 0 (by omega) (by omega)
    rw [hsame, Nat.pow_zero, Nat.mul_one, Nat.sub_zero] at hrounded
    refine ⟨mantissa, 0, ?_, hmantissa, by omega, ?_⟩
    · rw [fitMantissa, hrounded, if_pos hmantissa]
    · rw [show scale - 0 = zeros by omega]
  | succ kept ih =>
    have hrounded := hround (kept + 1) hkept hle
    rw [fitMantissa, hrounded]
    by_cases hfits : mantissa * 10 ^ (zeros - (scale - (kept + 1))) < mantissaSize
    · rw [if_pos hfits]
      exact ⟨_, _, rfl, hfits, hkept, hback (kept + 1) hkept hle⟩
    · rw [if_neg hfits]
      refine ih (by omega) ?_
      -- without a zero left the mantissa would have fitted
      have hsome : zeros - (scale - (kept + 1)) ≠ 0 := by
        intro hnone
        rw [hnone, Nat.pow_zero, Nat.mul_one] at hfits
        exact hfits hmantissa
      omega

/-- The sums of the reader are exact: `sum` stands for `front` at the place where the groups begin,
and all of the groups for a number with at most three zeros at its end. -/
theorem addFraction_eq_some {groups : List Nat} {sum : Nat × Nat} {place mantissa zeros : Nat}
    (hplaces : place + groups.length ≤ 7) (hscale : sum.2 ≤ 4 * place)
    (hmantissa : mantissa < mantissaSize) (hzeros : zeros ≤ 3)
    (hvalue : groupsValue (sum.1 * 10 ^ (4 * place - sum.2)) groups = mantissa * 10 ^ zeros) :
    ∃ mantissa' scale', addFraction sum place groups = some (mantissa', scale') ∧
      scale' ≤ 4 * (place + groups.length) ∧
      mantissa' * 10 ^ (4 * (place + groups.length) - scale') = mantissa * 10 ^ zeros := by
  induction groups generalizing sum place with
  | nil => exact ⟨sum.1, sum.2, rfl, hscale, hvalue⟩
  | cons group rest ih =>
    let front := sum.1 * 10 ^ (4 * place - sum.2) * groupBase + group
    rw [List.length_cons] at hplaces
    rw [groupsValue_cons] at hvalue
    -- only the last sum has zeros at its end
    obtain ⟨mantissa', zeros', hfront, hmantissa', hzeros'⟩ : ∃ mantissa' zeros',
        front = mantissa' * 10 ^ zeros' ∧ mantissa' < mantissaSize ∧ zeros' ≤ 3 := by
      cases rest with
      | nil => exact ⟨mantissa, zeros, hvalue, hmantissa, hzeros⟩
      | cons next others =>
        refine ⟨front, 0, (Nat.mul_one _).symm, ?_, Nat.zero_le 3⟩
        have hle := mul_pow_le_groupsValue front (next :: others)
        have hbase : groupBase ≤ groupBase ^ (next :: others).length :=
          Nat.le_self_pow (by simp) groupBase
        have hpow : 10 ^ zeros ≤ 10 ^ 3 := Nat.pow_le_pow_right (by decide) hzeros
        have hlow := Nat.mul_le_mul_left front hbase
        have hhigh := Nat.mul_le_mul_left mantissa hpow
        have hvalue' : groupsValue front (next :: others) = mantissa * 10 ^ zeros := hvalue
        simp only [groupBase] at *
        omega
    have hadd : addFitting sum (group, 4 * (place + 1)) =
        fitMantissa (mantissa' * 10 ^ zeros') (4 * (place + 1)) (4 * (place + 1)) := by
      have hmax : max sum.2 (4 * (place + 1)) = 4 * (place + 1) := Nat.max_eq_right (by omega)
      have hgrow : 4 * (place + 1) - sum.2 = 4 * place - sum.2 + 4 := by omega
      rw [← hfront, addFitting, hmax, Nat.sub_self, Nat.pow_zero, Nat.mul_one, hgrow, Nat.pow_add,
        ← Nat.mul_assoc]
      rfl
    obtain ⟨next, scale, hfit, -, hscale', hnext⟩ :=
      fitMantissa_eq_some hmantissa' (show zeros' ≤ 4 * (place + 1) by omega) Nat.le.refl
        (Nat.le_add_right ..)
    rw [← hfront] at hnext
    obtain ⟨mantissa'', scale'', hrest, hlast⟩ :=
      @ih (next, scale) (place + 1) (by omega) hscale' (hnext.symm ▸ hvalue)
    have hlength : place + (group :: rest).length = place + 1 + rest.length := by
      rw [List.length_cons]
      omega
    refine ⟨mantissa'', scale'', ?_, hlength.symm ▸ hlast⟩
    rw [addFraction, if_pos (by omega), hadd, hfit]
    exact hrest

theorem appendZeros_eq {mantissa places : Nat} (h : mantissa * 10 ^ places < mantissaSize) :
    Decimal.appendZeros mantissa places = (mantissa * 10 ^ places, 0) := by
  induction places generalizing mantissa with
  | zero => simp [Decimal.appendZeros]
  | succ places ih =>
    rw [Nat.pow_succ', ← Nat.mul_assoc] at h ⊢
    have hpow : 0 < 10 ^ places := Nat.pow_pos (by decide)
    have hroom : mantissa * 10 < mantissaSize :=
      Nat.lt_of_le_of_lt (Nat.le_mul_of_pos_right _ hpow) h
    rw [Decimal.appendZeros, if_pos hroom, ih h]

/-- Of two powers in an equation only the places are left in which they differ. -/
theorem eq_mul_pow_of_mul_pow_eq {a b low high places : Nat} (hlow : low ≤ high)
    (hhigh : high ≤ places) (h : a * 10 ^ (places - high) = b * 10 ^ (places - low)) :
    a = b * 10 ^ (high - low) := by
  have hsplit : 10 ^ (places - low) = 10 ^ (high - low) * 10 ^ (places - high) := by
    rw [← Nat.pow_add]
    congr 1
    omega
  rw [hsplit, ← Nat.mul_assoc] at h
  exact Nat.eq_of_mul_eq_mul_right (Nat.pow_pos (by decide)) h

/-- A number whose zeros at the end are taken for fraction digits is brought to its own scale. -/
theorem rescaleParts_eq {mantissa scale mantissa' scale' places : Nat} (hpos : mantissa ≠ 0)
    (hmantissa : mantissa < mantissaSize) (hscale : scale ≤ 28) (hplaces : scale ≤ places)
    (hplaces' : scale' ≤ places)
    (hvalue : mantissa' * 10 ^ (places - scale') = mantissa * 10 ^ (places - scale)) :
    Decimal.rescaleParts mantissa' scale' scale = (mantissa, scale) := by
  have hpos' : mantissa' ≠ 0 := by
    rintro rfl
    rw [Nat.zero_mul] at hvalue
    have := Nat.pow_pos (n := places - scale) (show 0 < 10 by decide)
    have := Nat.mul_pos (Nat.pos_of_ne_zero hpos) this
    omega
  rw [Decimal.rescaleParts, if_neg hpos']
  by_cases hless : scale < scale'
  · have hmore : mantissa' = mantissa * 10 ^ (scale' - scale) :=
      eq_mul_pow_of_mul_pow_eq (Nat.le_of_lt hless) hplaces' hvalue
    have hdrop : Decimal.dropDigits mantissa' (scale' - scale) = mantissa := by
      have hsplit : 10 ^ (scale' - scale) = 10 * 10 ^ (scale' - scale - 1) := by
        rw [← Nat.pow_succ']
        congr 1
        omega
      rw [Decimal.dropDigits, hmore, hsplit, ← Nat.mul_assoc,
        Nat.mul_div_cancel _ (Nat.pow_pos (by decide))]
      omega
    rw [if_pos hless, hdrop]
  · have hfewer : mantissa' * 10 ^ (scale - scale') = mantissa :=
      (eq_mul_pow_of_mul_pow_eq (Nat.le_of_not_lt hless) hplaces hvalue.symm).symm
    rw [if_neg hless, Nat.min_eq_left hscale, appendZeros_eq (hfewer ▸ hmantissa), hfewer]
    rfl

/-! ### Words -/

theorem readWords_flatMap {words : List Nat} (h : ∀ word ∈ words, word < 65536) :
    readWords words.length (words.flatMap (unsignedBytes 2)) = some words := by
  induction words with
  | nil => rfl
  | cons word rest ih =>
    obtain ⟨hword, hrest⟩ := List.forall_mem_cons.1 h
    have hvalue : unsignedOf (unsignedBytes 2 word) = word := by
      rw [unsignedOf_unsignedBytes]
      exact Nat.mod_eq_of_lt hword
    rw [List.length_cons, readWords, List.flatMap_cons,
      split?_append (length_unsignedBytes 2 word)]
    simp only [Option.bind_eq_bind, Option.bind_some, ih hrest, hvalue]
    rfl

/-- The four words in front of the groups, and the groups, are read as they were written. -/
theorem readNumericParts_eq_some {weight : Int} {sign scale : Nat} {groups : List Nat}
    (hlength : groups.length < 65536) (hweight : -32768 ≤ weight ∧ weight < 32768)
    (hsign : sign < 65536) (hscale : scale < 65536) (hgroups : ∀ group ∈ groups, group < 65536) :
    readNumericParts (unsignedBytes 2 groups.length ++ signedBytes 2 weight ++
      unsignedBytes 2 sign ++ unsignedBytes 2 scale ++ groups.flatMap (unsignedBytes 2)) =
      some ⟨weight, sign, scale, groups⟩ := by
  have hword : ∀ word < 65536, unsignedOf (unsignedBytes 2 word) = word := by
    intro word hword
    rw [unsignedOf_unsignedBytes]
    exact Nat.mod_eq_of_lt hword
  have hsigned : signedOf (signedBytes 2 weight) = weight := by
    rw [signedOf_signedBytes]
    exact Int.bmod_eq_of_le (by omega) (by omega)
  simp only [readNumericParts, List.append_assoc, split?_append (length_unsignedBytes 2 _),
    split?_append (length_signedBytes 2 _), Option.bind_eq_bind, Option.bind_some,
    hword _ hlength, hword _ hsign, hword _ hscale, hsigned, readWords_flatMap hgroups]
  rfl

/-! ### Numbers -/

/-- The number of groups of a fraction with `scale` digits. -/
def fractionGroups (scale : Nat) : Nat := (scale + 3) / 4

/-- What the groups of a number are, for one who reads them: the part in front of the point, and the
groups of a fraction from which zeros may have been cut off. -/
structure NumericGroups (mantissa scale : Nat) (groups : List Nat) (weight : Int) : Prop where
  small : ∀ group ∈ groups, group < groupBase
  length : groups.length ≤ 8
  weight_ge : -8 ≤ weight
  weight_le : weight ≤ 8
  value : ∃ integer zeros, integerPart? (weight + 1).toNat groups = some integer ∧
    (-(weight + 1)).toNat + (groups.drop (weight + 1).toNat).length + zeros =
      fractionGroups scale ∧
    groupsValue (integer * 10 ^ (4 * (-(weight + 1)).toNat)) (groups.drop (weight + 1).toNat) *
      groupBase ^ zeros = mantissa * 10 ^ (4 * fractionGroups scale - scale)

section

variable {mantissa scale : Nat} {digits : List Nat}

/-- Groups stand in front of the point, and zeros behind it are cut off. -/
theorem NumericGroups.of_whole (hmantissa : mantissa < mantissaSize)
    (hsmall : ∀ group ∈ digits, group < groupBase) (hlength : digits.length ≤ 8)
    (hplaces : fractionGroups scale < digits.length)
    (hvalue : groupsValue 0 digits = mantissa * 10 ^ (4 * fractionGroups scale - scale)) :
    NumericGroups mantissa scale (digits.take (digits.length - fractionGroups scale) ++
      withoutTrailingZeros (digits.drop (digits.length - fractionGroups scale)))
      ((digits.length : Int) - fractionGroups scale - 1) := by
  generalize hwhole : digits.length - fractionGroups scale = whole
  have hweight : ((digits.length : Int) - fractionGroups scale - 1 + 1).toNat = whole := by omega
  have hplace : (-((digits.length : Int) - fractionGroups scale - 1 + 1)).toNat = 0 := by omega
  have htake : (digits.take whole).length = whole := by
    rw [List.length_take]
    omega
  have hdrop : (digits.drop whole).length = fractionGroups scale := by
    rw [List.length_drop]
    omega
  -- the part in front of the point is a part of the number
  let integer := groupsValue 0 (digits.take whole)
  have hfull : groupsValue integer (digits.drop whole) =
      mantissa * 10 ^ (4 * fractionGroups scale - scale) := by
    rw [← groupsValue_append, List.take_append_drop, hvalue]
  have hinteger : integer < mantissaSize := by
    have hle := mul_pow_le_groupsValue integer (digits.drop whole)
    have hpow : 10 ^ (4 * fractionGroups scale - scale) ≤ groupBase ^ fractionGroups scale := by
      rw [groupBase_pow]
      exact Nat.pow_le_pow_right (by decide) (Nat.sub_le ..)
    rw [hfull, hdrop] at hle
    have hle := Nat.le_trans hle (Nat.mul_le_mul_left mantissa hpow)
    exact Nat.lt_of_le_of_lt (Nat.le_of_mul_le_mul_right hle (Nat.pow_pos (by decide))) hmantissa
  obtain ⟨zeros, hzeros⟩ := exists_eq_append_replicate (digits.drop whole)
  generalize withoutTrailingZeros (digits.drop whole) = fraction at hzeros ⊢
  have hcount : fraction.length + zeros = fractionGroups scale := by
    have hcount := congrArg List.length hzeros
    rw [List.length_append, List.length_replicate, hdrop] at hcount
    exact hcount.symm
  have hshown : (digits.take whole ++ fraction).take whole = digits.take whole := by
    rw [List.take_append_of_le_length (by omega), List.take_take, Nat.min_self]
  have hbehind : (digits.take whole ++ fraction).drop whole = fraction := by
    rw [List.drop_append_of_le_length (by omega), List.drop_take_self, List.nil_append]
  refine ⟨?_, by rw [List.length_append]; omega, by omega, by omega, integer, zeros, ?_, ?_, ?_⟩
  · intro group hgroup
    refine hsmall group ?_
    rcases List.mem_append.1 hgroup with hgroup | hgroup
    · exact List.mem_of_mem_take hgroup
    · refine List.mem_of_mem_drop (i := whole) ?_
      rw [hzeros]
      exact List.mem_append_left _ hgroup
  · have hnone : integer * groupBase ^ 0 = integer := Nat.mul_one integer
    rw [hweight, integerPart?, hshown, htake, Nat.sub_self, if_neg (by decide)]
    change (if integer * groupBase ^ 0 < mantissaSize then some (integer * groupBase ^ 0)
      else none) = some integer
    rw [hnone, if_pos hinteger]
  · rw [hweight, hplace, hbehind, Nat.zero_add]
    exact hcount
  · rw [hweight, hplace, hbehind, Nat.mul_zero, Nat.pow_zero, Nat.mul_one,
      ← groupsValue_replicate_zero, ← groupsValue_append, ← hzeros, hfull]

/-- All groups stand behind the point. -/
theorem NumericGroups.of_fraction (hsmall : ∀ group ∈ digits, group < groupBase)
    (hlength : digits.length ≤ 8) (hscale : scale ≤ 28)
    (hplaces : digits.length ≤ fractionGroups scale)
    (hvalue : groupsValue 0 digits = mantissa * 10 ^ (4 * fractionGroups scale - scale)) :
    NumericGroups mantissa scale digits ((digits.length : Int) - fractionGroups scale - 1) := by
  have hweight : ((digits.length : Int) - fractionGroups scale - 1 + 1).toNat = 0 := by omega
  have hseven : fractionGroups scale ≤ 7 := by
    rw [fractionGroups]
    omega
  refine ⟨hsmall, hlength, by omega, by omega, 0, 0, ?_, ?_, ?_⟩
  · rw [hweight]
    rfl
  · rw [hweight, List.drop_zero]
    omega
  · rw [hweight, List.drop_zero, Nat.zero_mul, Nat.pow_zero, Nat.mul_one, hvalue]

theorem numericGroups_groups (hmantissa : mantissa < mantissaSize) (hscale : scale ≤ 28) :
    NumericGroups mantissa scale (numericGroups mantissa scale).1
      (numericGroups mantissa scale).2 := by
  generalize hnumber : mantissa * 10 ^ (4 * fractionGroups scale - scale) = number
  have hvalue : groupsValue 0 (groups number) = number := groupsValue_groups number
  have hlength : (groups number).length ≤ 8 := by
    refine length_groups_le ?_
    have hspare : 4 * fractionGroups scale - scale ≤ 3 := by
      rw [fractionGroups]
      omega
    have hpow : 10 ^ (4 * fractionGroups scale - scale) ≤ 10 ^ 3 :=
      Nat.pow_le_pow_right (by decide) hspare
    have hle := Nat.mul_le_mul_left mantissa hpow
    have hbase : groupBase ^ 8 = 100000000000000000000000000000000 := by decide
    rw [hbase, ← hnumber]
    simp only [mantissaSize] at hmantissa
    omega
  have hsmall : ∀ group ∈ groups number, group < groupBase := fun _ => lt_groupBase_of_mem_groups
  have hgroups : numericGroups mantissa scale =
      (if 0 ≤ ((groups number).length : Int) - fractionGroups scale - 1 then
        (groups number).take ((groups number).length - fractionGroups scale) ++
          withoutTrailingZeros
            ((groups number).drop ((groups number).length - fractionGroups scale))
        else groups number, ((groups number).length : Int) - fractionGroups scale - 1) := by
    rw [← hnumber]
    rfl
  rw [hgroups]
  dsimp only
  split
  · exact .of_whole hmantissa hsmall hlength (by omega) (hvalue.trans hnumber.symm)
  · exact .of_fraction hsmall hlength hscale (by omega) (hvalue.trans hnumber.symm)

end

/-- What is read from the parts of a number that is not zero. -/
theorem NumericGroups.toDecimal?_eq_some {mantissa scale sign : Nat} {groups : List Nat}
    {weight : Int} (h : NumericGroups mantissa scale groups weight) (hpos : mantissa ≠ 0)
    (hmantissa : mantissa < mantissaSize) (hscale : scale ≤ 28) (hsign : sign < specialSign) :
    NumericParts.toDecimal? ⟨weight, sign, scale, groups⟩ =
      Decimal.ofParts? (sign = negativeSign) mantissa scale := by
  obtain ⟨integer, zeros, hinteger, hplaces, hvalue⟩ := h.value
  have hseven : fractionGroups scale ≤ 7 := by
    rw [fractionGroups]
    omega
  have hspare : 4 * fractionGroups scale - scale ≤ 3 ∧ scale ≤ 4 * fractionGroups scale := by
    rw [fractionGroups]
    omega
  generalize hfraction : groups.drop (weight + 1).toNat = fraction at hplaces hvalue
  generalize hplace : (-(weight + 1)).toNat = place at hplaces hvalue
  -- with zero groups cut off the number has no zeros of its own to spare
  obtain ⟨mantissa', zeros', hsum, hmantissa', hzeros'⟩ : ∃ mantissa' zeros',
      groupsValue (integer * 10 ^ (4 * place - 0)) fraction = mantissa' * 10 ^ zeros' ∧
        mantissa' < mantissaSize ∧ zeros' ≤ 3 := by
    cases zeros with
    | zero => exact ⟨mantissa, _, by rw [← hvalue, Nat.pow_zero, Nat.mul_one, Nat.sub_zero],
        hmantissa, hspare.1⟩
    | succ zeros =>
      refine ⟨_, 0, (Nat.mul_one _).symm, ?_, Nat.zero_le 3⟩
      have hpow : 10 ^ (4 * fractionGroups scale - scale) ≤ 10 ^ 3 :=
        Nat.pow_le_pow_right (by decide) hspare.1
      have hbase : groupBase ≤ groupBase ^ (zeros + 1) := Nat.le_self_pow (by simp) groupBase
      have hhigh := Nat.mul_le_mul_left mantissa hpow
      have hlow := Nat.mul_le_mul_left (groupsValue (integer * 10 ^ (4 * place)) fraction) hbase
      rw [hvalue] at hlow
      rw [Nat.sub_zero]
      simp only [groupBase] at hlow
      omega
  obtain ⟨mantissa'', scale'', hadd, hscale'', hlast⟩ :=
    @addFraction_eq_some _ (integer, 0) _ _ _ (by omega) (Nat.zero_le _) hmantissa' hzeros' hsum
  have hrescale : Decimal.rescaleParts mantissa'' scale'' scale = (mantissa, scale) := by
    refine rescaleParts_eq hpos hmantissa hscale hspare.2 (by omega) ?_
    have hgrow : 4 * fractionGroups scale - scale'' =
        4 * (place + fraction.length) - scale'' + 4 * zeros := by omega
    rw [hgrow, Nat.pow_add, ← Nat.mul_assoc, hlast, ← hsum, ← groupBase_pow, Nat.sub_zero, hvalue]
  rw [NumericParts.toDecimal?, if_neg (Nat.not_le_of_lt hsign)]
  simp only [hinteger, hfraction, hplace, hadd, Option.bind_eq_bind, Option.bind_some, hrescale]

end Wire

namespace Number.Decimal

/-- The number as it is kept: zero has neither a sign nor fraction digits. -/
def plainZero (d : Decimal) : Decimal :=
  if d.mantissa = 0 then ofInt64 0 else d

theorem ofParts?_eq_some (d : Decimal) : ofParts? d.negative d.mantissa d.scale = some d := by
  rw [ofParts?, dif_pos d.mantissa_lt, dif_pos d.scale_le]

end Number.Decimal

open Wire

/-- No number takes more than eight groups. -/
theorem Wire.length_numericBytes_le (d : Decimal) : (numericBytes d).length ≤ 24 := by
  rw [numericBytes]
  split
  · rw [length_unsignedBytes]
    decide
  · have hgroups := numericGroups_groups d.mantissa_lt d.scale_le
    rcases hparts : numericGroups d.mantissa d.scale with ⟨digits, weight⟩
    rw [hparts] at hgroups
    have hlength : digits.length ≤ 8 := hgroups.length
    simp only [List.length_append, List.length_flatMap, length_unsignedBytes, length_signedBytes,
      List.map_const', List.sum_replicate_nat]
    omega

/-- The number that is read is the one that was written. -/
theorem Value.readNumeric_numericBytes (d : Decimal) :
    readNumeric (numericBytes d) = .ok d.plainZero := by
  have hread : ∀ parts e, readNumericParts (numericBytes d) = some parts →
      parts.toDecimal? = some e → readNumeric (numericBytes d) = .ok e := by
    intro parts e hparts he
    simp only [readNumeric, hparts, orMalformed, Bind.bind, Except.bind, he]
  by_cases hzero : d.mantissa = 0
  · rw [Decimal.plainZero, if_pos hzero]
    have hbytes : numericBytes d = unsignedBytes 8 0 := by
      rw [numericBytes, if_pos hzero]
    refine hread ⟨0, 0, 0, []⟩ _ ?_ (Decimal.ofParts?_eq_some ⟨false, 0, 0, _, _⟩)
    rw [hbytes]
    decide
  · rw [Decimal.plainZero, if_neg hzero]
    have hgroups := numericGroups_groups d.mantissa_lt d.scale_le
    rcases hparts : numericGroups d.mantissa d.scale with ⟨digits, weight⟩
    rw [hparts] at hgroups
    have hlength : digits.length ≤ 8 := hgroups.length
    have hge := hgroups.weight_ge
    have hle := hgroups.weight_le
    have hscale := d.scale_le
    have hsign : (if d.negative = true then negativeSign else 0) < specialSign := by
      split <;> decide
    have hnegative : decide ((if d.negative = true then negativeSign else 0) = negativeSign) =
        d.negative := by
      cases d.negative <;> rfl
    refine hread ⟨weight, if d.negative = true then negativeSign else 0, d.scale, digits⟩ d ?_ ?_
    · rw [numericBytes, if_neg hzero, hparts]
      refine readNumericParts_eq_some (by omega) ⟨by omega, by omega⟩ ?_ (by omega) ?_
      · exact Nat.lt_trans hsign (by decide)
      · exact fun group hgroup => Nat.lt_trans (hgroups.small group hgroup) (by decide)
    · rw [hgroups.toDecimal?_eq_some hzero d.mantissa_lt d.scale_le hsign, hnegative,
        Decimal.ofParts?_eq_some]

end PgToolkit
