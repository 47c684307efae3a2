import PgToolkit.Proofs.Sql.Scan
import PgToolkit.Session.Cut

/-!
# Cuts of reported SQL

A character has at most four bytes, and only the first one of them can stand behind a cut. So going
downwards from the limit, at most three offsets are passed, and the cut leaves every character that
is within the limit as a whole.
-/

namespace PgToolkit

namespace Sql

variable {bytes : List UInt8} {limit i n : Nat}

/-! ### Boundaries -/

/-- Of the bytes of a character, only the first one is told to be a first one. -/
theorem isLeading_getElem_utf8EncodeChar (c : Char) {k : Nat}
    (hk : k < (String.utf8EncodeChar c).length) :
    isLeading (String.utf8EncodeChar c)[k] = true ↔ k = 0 := by
  revert k
  fun_cases String.utf8EncodeChar c
  all_goals
    intro k hk
    simp only [List.length_cons, List.length_nil] at hk
    obtain rfl | rfl | rfl | rfl : k = 0 ∨ k = 1 ∨ k = 2 ∨ k = 3 := by omega
    all_goals simp [isLeading, UInt8.lt_iff_toNat_lt, UInt8.le_iff_toNat_le] at hk ⊢
    all_goals omega

theorem isBoundary_byteSize (front rest : List Char) :
    isBoundary (encoded (front ++ rest)) (byteSize front) = true := by
  cases rest with
  | nil => simp [isBoundary, byteSize]
  | cons c rest =>
    have hpos : 0 < (String.utf8EncodeChar c).length := by
      rw [String.length_utf8EncodeChar]
      exact Char.utf8Size_pos c
    have hbyte := getElem?_encoded_add front c rest hpos
    rw [Nat.add_zero] at hbyte
    simp only [isBoundary, hbyte, (isLeading_getElem_utf8EncodeChar c hpos).2, Bool.or_true]

theorem isBoundary_inside (front : List Char) (c : Char) (rest : List Char) {k : Nat}
    (hpos : 0 < k) (hk : k < c.utf8Size) :
    isBoundary (encoded (front ++ c :: rest)) (byteSize front + k) = false := by
  rw [← String.length_utf8EncodeChar] at hk
  have hleading : isLeading (String.utf8EncodeChar c)[k] = false := by
    rw [Bool.eq_false_iff, Ne, isLeading_getElem_utf8EncodeChar c hk]
    exact hpos.ne'
  simp only [isBoundary, getElem?_encoded_add front c rest hk, hleading, Bool.or_false,
    decide_eq_false_iff_not]
  omega

/-! ### Going back -/

theorem backOff_of_isBoundary (h : isBoundary bytes i = true) : backOff bytes i = i := by
  cases i with
  | zero => rfl
  | succ i => rw [backOff, if_pos h]

theorem backOff_of_not_isBoundary (h : isBoundary bytes (i + 1) = false) :
    backOff bytes (i + 1) = backOff bytes i := by
  rw [backOff, if_neg (Bool.eq_false_iff.1 h)]

/-- Offsets inside of characters are passed. -/
theorem backOff_add (h : ∀ k, 0 < k → k ≤ n → isBoundary bytes (i + k) = false) :
    backOff bytes (i + n) = backOff bytes i := by
  induction n with
  | zero => rfl
  | succ n ih =>
    have hlast : isBoundary bytes (i + n + 1) = false := h (n + 1) (Nat.succ_pos n) (Nat.le_refl _)
    rw [← Nat.add_assoc, backOff_of_not_isBoundary hlast]
    exact ih fun k hpos hle => h k hpos (Nat.le_succ_of_le hle)

end Sql

/-! ### The cut -/

variable {limit : Nat} {text front : List Char}

open Sql

theorem byteSize_takeBytes_le (limit : Nat) (text : List Char) :
    byteSize (takeBytes limit text) ≤ limit := by
  fun_induction takeBytes limit text with
  | case1 => simp
  | case2 limit c rest hle ih =>
    rw [byteSize_cons]
    omega
  | case3 => simp

theorem prefix_takeBytes (hfront : front <+: text) (hsize : byteSize front ≤ limit) :
    front <+: takeBytes limit text := by
  fun_induction takeBytes limit text generalizing front with
  | case1 => exact hfront
  | case2 limit c rest hle ih =>
    cases front with
    | nil => exact List.nil_prefix
    | cons a front =>
      obtain ⟨rfl, hrest⟩ := List.cons_prefix_cons.1 hfront
      rw [byteSize_cons] at hsize
      exact List.cons_prefix_cons.2 ⟨rfl, ih hrest (by omega)⟩
  | case3 limit c rest hlt =>
    cases front with
    | nil => exact List.nil_prefix
    | cons a front =>
      obtain ⟨rfl, -⟩ := List.cons_prefix_cons.1 hfront
      rw [byteSize_cons] at hsize
      omega

/-- Behind what is taken of a longer text, there is a character that would be too much. -/
theorem exists_eq_takeBytes_append (h : limit < byteSize text) : ∃ c rest,
    text = takeBytes limit text ++ c :: rest ∧
      limit < byteSize (takeBytes limit text) + c.utf8Size := by
  fun_induction takeBytes limit text with
  | case1 => simp at h
  | case2 limit c rest hle ih =>
    rw [byteSize_cons] at h
    obtain ⟨a, behind, hrest, hlt⟩ := ih (by omega)
    refine ⟨a, behind, congrArg (c :: ·) hrest, ?_⟩
    rw [byteSize_cons]
    omega
  | case3 limit c rest hlt => exact ⟨c, rest, rfl, by simpa using hlt⟩

theorem Sql.backOff_eq (h : limit < byteSize text) :
    backOff (encoded text) limit = byteSize (takeBytes limit text) := by
  obtain ⟨c, rest, htext, hlt⟩ := exists_eq_takeBytes_append h
  obtain ⟨n, hn⟩ := Nat.exists_eq_add_of_le (byteSize_takeBytes_le limit text)
  generalize takeBytes limit text = front at htext hlt hn
  subst htext hn
  rw [backOff_add fun k hpos hle => isBoundary_inside front c rest hpos (by omega)]
  exact backOff_of_isBoundary (isBoundary_byteSize front (c :: rest))

/-- No more than three offsets are passed. -/
theorem Sql.le_backOff_add_three (h : limit < byteSize text) :
    limit ≤ backOff (encoded text) limit + 3 := by
  obtain ⟨c, -, -, hlt⟩ := exists_eq_takeBytes_append h
  have hc := c.utf8Size_le_four
  rw [backOff_eq h]
  omega

/-- The cut never fails. -/
theorem Sql.takeBytes?_backOff (h : limit < byteSize text) :
    takeBytes? (backOff (encoded text) limit) text = some (takeBytes limit text) := by
  obtain ⟨c, rest, htext, -⟩ := exists_eq_takeBytes_append h
  have hcut := takeBytes?_byteSize (takeBytes limit text) (c :: rest)
  rwa [← htext, ← backOff_eq h] at hcut

theorem Sql.byteSize_toList (sql : String) : byteSize sql.toList = sql.utf8ByteSize := by
  rw [byteSize, encoded_toList]
  rfl

/-- A text is the longest beginning of another one, in whole characters, within some bytes. -/
structure IsCut (limit : Nat) (sql shown : String) : Prop where
  begins : shown.toList <+: sql.toList
  fits : shown.utf8ByteSize ≤ limit
  longest : ∀ front : String, front.toList <+: sql.toList → front.utf8ByteSize ≤ limit →
    front.toList <+: shown.toList

theorem isCut_takeBytes {sql : String} (h : limit < sql.utf8ByteSize) :
    IsCut limit sql (String.ofList (takeBytes limit sql.toList)) := by
  rw [← byteSize_toList] at h
  obtain ⟨c, rest, htext, -⟩ := exists_eq_takeBytes_append h
  constructor
  · rw [String.toList_ofList]
    exact ⟨c :: rest, htext.symm⟩
  · rw [← byteSize_toList, String.toList_ofList]
    exact byteSize_takeBytes_le limit sql.toList
  · intro front hfront hsize
    rw [← byteSize_toList] at hsize
    rw [String.toList_ofList]
    exact prefix_takeBytes hfront hsize

namespace LogConfig

variable {config : LogConfig} {sql : String}

theorem shownSql_of_le (hlimit : config.maxBytes? = some limit) (h : sql.utf8ByteSize ≤ limit) :
    config.shownSql sql = sql := by
  rw [shownSql, hlimit]
  exact if_pos h

theorem shownSql_of_lt (hlimit : config.maxBytes? = some limit) (h : limit < sql.utf8ByteSize) :
    config.shownSql sql = String.ofList (takeBytes limit sql.toList) ++ "..." := by
  rw [shownSql, hlimit]
  exact if_neg (Nat.not_le.2 h)

/-- What is found by the bytes of a text is what is reported. -/
theorem shownSql?_eq (config : LogConfig) (sql : String) :
    config.shownSql? sql = some (config.shownSql sql) := by
  cases hlimit : config.maxBytes? with
  | none => simp only [shownSql?, shownSql, hlimit]
  | some limit =>
    by_cases h : limit < sql.utf8ByteSize
    · have hcut := takeBytes?_backOff ((byteSize_toList sql).symm ▸ h)
      rw [shownSql_of_lt hlimit h]
      simp only [shownSql?, hlimit, if_pos h, truncated?, if_neg (Nat.not_le.2 h), hcut]
      rfl
    · rw [shownSql_of_le hlimit (Nat.not_lt.1 h)]
      simp only [shownSql?, hlimit, if_neg h]

/-- SQL is reported as it is if there is no limit, or if it is within the limit. Otherwise, what is
reported is its longest beginning within the limit, in whole characters, and three dots. The cut is
found going back from the limit, by three offsets at most, and never fails. -/
theorem shownSql_cut (config : LogConfig) (sql : String) :
    config.shownSql? sql = some (config.shownSql sql) ∧
    (config.maxBytes? = none → config.shownSql sql = sql) ∧
    ∀ limit, config.maxBytes? = some limit →
      (sql.utf8ByteSize ≤ limit → config.shownSql sql = sql) ∧
      (limit < sql.utf8ByteSize → ∃ shown, config.shownSql sql = shown ++ "..." ∧
        IsCut limit sql shown ∧ shown.utf8ByteSize = backOff (encoded sql.toList) limit ∧
        limit ≤ backOff (encoded sql.toList) limit + 3) := by
  refine ⟨shownSql?_eq config sql, fun hlimit => ?_, fun limit hlimit =>
    ⟨shownSql_of_le hlimit, fun h => ⟨_, shownSql_of_lt hlimit h, isCut_takeBytes h, ?_, ?_⟩⟩⟩
  · simp only [shownSql, hlimit]
  · rw [← byteSize_toList] at h
    rw [← byteSize_toList, String.toList_ofList, backOff_eq h]
  · exact le_backOff_add_three ((byteSize_toList sql).symm ▸ h)

/-- A limit inside of the second character. -/
theorem shownSql_cut_inside :
    let config : LogConfig := { maxBytes? := some 2 }
    2 < "h\u00e9llo".utf8ByteSize ∧ config.shownSql "h\u00e9llo" = "h..." ∧
      IsCut 2 "h\u00e9llo" "h" := by
  intro config
  have hlt : 2 < "h\u00e9llo".utf8ByteSize := by decide
  obtain ⟨shown, hshown, hcut, -⟩ := ((shownSql_cut config "h\u00e9llo").2.2 2 rfl).2 hlt
  have htext : config.shownSql "h\u00e9llo" = "h" ++ "..." := by decide +kernel
  obtain rfl : shown = "h" := (String.append_left_inj "...").1 (hshown.symm.trans htext)
  exact ⟨hlt, hshown, hcut⟩

end LogConfig

end PgToolkit
