import PgToolkit.Time.Reading
import PgToolkit.Wire.Bytes
import PgToolkit.Wire.Calendar

/-!
# Instants and days read back

An instant loses what is less than a microsecond when it travels, and everything but its day when it
travels as a date. What is left fits the word that it travels in, and is read back.
-/

namespace PgToolkit

open Wire

-- A power is the core library's, also where a general one is in scope.
attribute [local instance (high)] instPowNat

namespace Time

theorem minSeconds_eq : minSeconds = -8334601228800 := rfl

theorem maxSeconds_eq : maxSeconds = 8210266876799 := rfl

namespace Instant

/-- The instant in whole microseconds. From the year 2000 on it is cut off; an earlier one is moved
on to the next microsecond. -/
def cutToMicros (t : Instant) : Instant :=
  if epochSeconds ≤ t.seconds then
    { t with
      nanos := t.nanos - t.nanos % 1000
      nanos_lt := Nat.lt_of_le_of_lt (Nat.sub_le ..) t.nanos_lt }
  else if h : (t.nanos + 999) / 1000 * 1000 < 1000000000 then
    { t with
      nanos := (t.nanos + 999) / 1000 * 1000
      nanos_lt := by omega }
  else
    { seconds := min (t.seconds + 1) epochSeconds
      nanos := 0
      seconds_mem := by
        have hmem := t.seconds_mem
        rw [minSeconds_eq, maxSeconds_eq] at *
        rw [epochSeconds]
        omega
      nanos_lt := by decide }

/-- The beginning of the day of an instant. -/
def midnight (t : Instant) : Instant where
  seconds := t.day * 86400
  nanos := 0
  seconds_mem := by
    have hmem := t.seconds_mem
    rw [minSeconds_eq, maxSeconds_eq, day] at *
    omega
  nanos_lt := by decide

/-- An instant that is no leap second. -/
def IsPlain (t : Instant) : Prop := t.nanos < 1000000000

theorem ofParts?_eq_some (t : Instant) : ofParts? t.seconds t.nanos = some t := by
  rw [ofParts?, dif_pos t.seconds_mem, dif_pos t.nanos_lt]

theorem parts_of_ofParts? {seconds : Int} {nanos : Nat} {t : Instant}
    (h : ofParts? seconds nanos = some t) : t.seconds = seconds ∧ t.nanos = nanos := by
  rw [ofParts?] at h
  split at h
  · split at h
    · obtain rfl := Option.some.inj h
      exact ⟨rfl, rfl⟩
    · cases h
  · cases h

theorem eq_of_parts {s t : Instant} (hseconds : s.seconds = t.seconds)
    (hnanos : s.nanos = t.nanos) : s = t := by
  cases s
  cases t
  cases hseconds
  cases hnanos
  rfl

end Instant

end Time

open Time

namespace Wire

/-- An integer that fits a word is read back from its bytes. -/
theorem signedOf_signedBytes_of_fits {width : Nat} {i : Int}
    (hlow : -(256 ^ width : Nat) ≤ 2 * i) (hhigh : 2 * i < (256 ^ width : Nat)) :
    signedOf (signedBytes width i) = i := by
  rw [signedOf_signedBytes]
  exact Int.bmod_eq_of_le (by omega) (by omega)

/-- The count of microseconds without sign conventions: the next one for instants before 2000. -/
theorem microseconds_eq {t : Instant} (h : t.IsPlain) : microseconds t =
    (t.seconds - epochSeconds) * 1000000 +
      if epochSeconds ≤ t.seconds then ((t.nanos / 1000 : Nat) : Int)
      else (((t.nanos + 999) / 1000 : Nat) : Int) := by
  rw [Instant.IsPlain] at h
  have hsign : Int.sign 1000 = 1 := rfl
  have hepoch : epochSeconds = 946684800 := rfl
  rw [microseconds, Int.tdiv_eq_ediv, hsign, hepoch]
  split <;> split <;> omega

theorem microseconds_fits (t : Instant) :
    -(256 ^ (8 : Nat) : Nat) ≤ 2 * microseconds t ∧ 2 * microseconds t < (256 ^ (8 : Nat) : Nat) := by
  have hmem := t.seconds_mem
  have hlt := t.nanos_lt
  have hsize : (256 : Nat) ^ (8 : Nat) = 18446744073709551616 := rfl
  have hsign : Int.sign 1000 = 1 := rfl
  rw [minSeconds_eq, maxSeconds_eq] at hmem
  rw [hsize, microseconds, Int.tdiv_eq_ediv, hsign, epochSeconds]
  split <;> omega

theorem dayCount_fits (t : Instant) :
    -(256 ^ (4 : Nat) : Nat) ≤ 2 * dayCount t ∧ 2 * dayCount t < (256 ^ (4 : Nat) : Nat) := by
  have hmem := t.seconds_mem
  have hsize : (256 : Nat) ^ (4 : Nat) = 4294967296 := rfl
  rw [minSeconds_eq, maxSeconds_eq] at hmem
  rw [hsize, dayCount, Instant.day, epochDays]
  omega

/-- An instant that is no leap second comes back in whole microseconds. -/
theorem ofMicroseconds?_microseconds {t : Instant} (h : t.IsPlain) :
    ofMicroseconds? (microseconds t) = some t.cutToMicros := by
  have hplain : t.nanos < 1000000000 := h
  rw [← Instant.ofParts?_eq_some t.cutToMicros, ofMicroseconds?, microseconds_eq h,
    Instant.cutToMicros]
  by_cases hlate : epochSeconds ≤ t.seconds
  · rw [if_pos hlate, if_pos hlate]
    exact congr (congrArg Instant.ofParts? (by dsimp only; omega)) (by dsimp only; omega)
  · rw [if_neg hlate, if_neg hlate]
    by_cases hroom : (t.nanos + 999) / 1000 * 1000 < 1000000000
    · rw [dif_pos hroom]
      exact congr (congrArg Instant.ofParts? (by dsimp only; omega)) (by dsimp only; omega)
    · rw [dif_neg hroom]
      exact congr (congrArg Instant.ofParts? (by dsimp only; omega)) (by dsimp only; omega)

/-- A date comes back as its beginning. -/
theorem ofDayCount?_dayCount (t : Instant) : ofDayCount? (dayCount t) = some t.midnight := by
  have hday : epochDays + (t.day - epochDays) = t.day := by omega
  rw [← Instant.ofParts?_eq_some t.midnight, ofDayCount?, dayCount, hday]
  rfl

/-- What is read as an instant is in whole microseconds, and no leap second. -/
theorem cutToMicros_of_ofMicroseconds? {count : Int} {t : Instant}
    (h : ofMicroseconds? count = some t) : t.IsPlain ∧ t.cutToMicros = t := by
  obtain ⟨-, hnanos⟩ := Instant.parts_of_ofParts? h
  have hplain : t.nanos < 1000000000 := by omega
  have hwhole : (t.nanos + 999) / 1000 * 1000 = t.nanos := by omega
  refine ⟨hplain, Instant.eq_of_parts ?_ ?_⟩
  · rw [Instant.cutToMicros]
    split
    · rfl
    · rw [dif_pos (hwhole.symm ▸ hplain)]
  · rw [Instant.cutToMicros]
    split
    · dsimp only
      omega
    · rw [dif_pos (hwhole.symm ▸ hplain)]
      exact hwhole

/-- What is read as a date is the beginning of a day. -/
theorem midnight_of_ofDayCount? {count : Int} {t : Instant} (h : ofDayCount? count = some t) :
    t.midnight = t := by
  obtain ⟨hseconds, hnanos⟩ := Instant.parts_of_ofParts? h
  refine Instant.eq_of_parts ?_ hnanos.symm
  have hday : t.seconds / 86400 * 86400 = t.seconds := by omega
  exact hday

end Wire

/-! ### Dates in texts -/

namespace Time

/-- The days in front of a year that begins in March. -/
def yearDays (year : Int) : Int :=
  year / 400 * 146097 + (year % 400 * 365 + year % 400 / 4 - year % 400 / 100)

theorem yearDays_mono {a b : Int} (h : a ≤ b) : yearDays a ≤ yearDays b := by
  have hpart : ∀ r s : Int, 0 ≤ r → r ≤ s →
      r * 365 + r / 4 - r / 100 ≤ s * 365 + s / 4 - s / 100 := by
    intro r s hr hrs
    omega
  have hera : ∀ r : Int, 0 ≤ r → r < 400 →
      0 ≤ r * 365 + r / 4 - r / 100 ∧ r * 365 + r / 4 - r / 100 < 146097 := by
    intro r hr hlt
    omega
  have ha := hera (a % 400) (by omega) (by omega)
  have hb := hera (b % 400) (by omega) (by omega)
  rw [yearDays, yearDays]
  by_cases hsame : a / 400 = b / 400
  · have hle := hpart (a % 400) (b % 400) (by omega) (by omega)
    omega
  · have hless : a / 400 + 1 ≤ b / 400 := by omega
    omega

/-- The day of a date within representable years is that of an instant. -/
theorem toDays_mem {date : Civil} (hvalid : date.isValid = true)
    (hlow : -262143 ≤ date.year) (hhigh : date.year ≤ 262142) :
    minSeconds ≤ date.toDays * 86400 ∧ date.toDays * 86400 ≤ maxSeconds := by
  obtain ⟨year, month, day⟩ := date
  have hlow : -262143 ≤ year := hlow
  have hhigh : year ≤ 262142 := hhigh
  simp only [Civil.isValid, Bool.and_eq_true, decide_eq_true_eq] at hvalid
  obtain ⟨⟨⟨hfirst, hlast⟩, hday⟩, hdays⟩ := hvalid
  have hshort : Civil.daysInMonth year month ≤ 31 := by
    unfold Civil.daysInMonth
    split
    · cases Civil.isLeapYear year <;> decide
    all_goals decide
  rw [minSeconds_eq, maxSeconds_eq]
  -- January and February are the last months of the year before
  by_cases hwinter : month ≤ 2
  · have hdate : Civil.toDays ⟨year, month, day⟩ = yearDays (year - 1) +
        ((153 * (((month + 9) % 12 : Nat) : Int) + 2) / 5 + day - 1) - 719468 := by
      simp only [Civil.toDays, if_pos hwinter, yearDays]
      omega
    have hmin : yearDays (-262144) ≤ yearDays (year - 1) := yearDays_mono (by omega)
    have hmax : yearDays (year - 1) ≤ yearDays 262141 := yearDays_mono (by omega)
    have hfirst : yearDays (-262144) = -95746130 := rfl
    have hlast : yearDays 262141 = 95745034 := rfl
    omega
  · have hdate : Civil.toDays ⟨year, month, day⟩ = yearDays year +
        ((153 * (((month + 9) % 12 : Nat) : Int) + 2) / 5 + day - 1) - 719468 := by
      simp only [Civil.toDays, if_neg hwinter, yearDays]
      omega
    have hmin : yearDays (-262143) ≤ yearDays year := yearDays_mono hlow
    have hmax : yearDays year ≤ yearDays 262142 := yearDays_mono hhigh
    have hfirst : yearDays (-262143) = -95745765 := rfl
    have hlast : yearDays 262142 = 95745399 := rfl
    omega

/-- The date that is read from a text is that of an instant. -/
theorem exists_midnight_of_parseDate? {text : String} {day : Int}
    (h : parseDate? text = some day) :
    ∃ t : Instant, Instant.ofParts? (day * 86400) 0 = some t ∧ t.day = day := by
  simp only [parseDate?, Option.bind_eq_bind, Option.bind_eq_some_iff] at h
  obtain ⟨⟨year, rest⟩, -, ⟨month, rest'⟩, -, ⟨day', rest''⟩, -, h⟩ := h
  rw [Option.ite_none_right_eq_some, Option.some_inj] at h
  obtain ⟨hchecks, rfl⟩ := h
  simp only [Bool.and_eq_true, decide_eq_true_eq] at hchecks
  obtain ⟨⟨⟨-, hvalid⟩, hlow⟩, hhigh⟩ := hchecks
  let t : Instant := ⟨_, 0, toDays_mem hvalid hlow hhigh, by decide⟩
  have hday : t.day = Civil.toDays ⟨year, month, day'⟩ := Int.mul_ediv_cancel _ (by decide)
  exact ⟨t, Instant.ofParts?_eq_some t, hday⟩

end Time

end PgToolkit
