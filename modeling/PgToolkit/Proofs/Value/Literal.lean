import PgToolkit.Proofs.Query.CallerSql
import PgToolkit.Proofs.Sql.Tidy
import PgToolkit.Value.Literal

/-!
# Literals are tidy

The literal of a value without raw SQL is tidy, however deep its arrays are: numbers are digits with
a sign, a point and an exponent, and everything else is a keyword or a quoted token.
-/

namespace PgToolkit

open Sql Number

/-! ### Digits and signs -/

namespace Sql

theorem isInert_of_isDigit {c : Char} (h : c.isDigit = true) : isInert c = true := by
  rw [isInert_iff]
  refine ⟨?_, ?_, ?_, ?_, ?_, ?_, ?_⟩
  all_goals
    rintro rfl
    revert h
    decide

theorem inert_toDigits (n : Nat) : Inert (Nat.toDigits 10 n) :=
  fun _ hc => isInert_of_isDigit (Nat.isDigit_of_mem_toDigits (by decide) (by decide) hc)

theorem inert_toString (n : Nat) : Inert (toString n).toList := by
  rw [Nat.toString_eq_ofList_toDigits, String.toList_ofList]
  exact inert_toDigits n

theorem Inert.append {s t : List Char} (hs : Inert s) (ht : Inert t) : Inert (s ++ t) :=
  List.forall_mem_append.2 ⟨hs, ht⟩

theorem inert_replicate {c : Char} (hc : isInert c = true) (n : Nat) :
    Inert (List.replicate n c) := by
  intro d hd
  rwa [List.eq_of_mem_replicate hd]

/-- A text that may stand behind a minus sign. -/
def Signable (text : List Char) : Prop :=
  Tidy text ∧ ∃ c rest, text = c :: rest ∧ isInert c = true ∧ Tidy rest

theorem Inert.signable {k : List Char} (hk : Inert k) (hne : k ≠ []) : Signable k := by
  obtain ⟨c, rest, rfl⟩ := List.exists_cons_of_ne_nil hne
  have hrest : Inert rest := fun d hd => hk d (List.mem_cons_of_mem c hd)
  exact ⟨hk.tidy, c, rest, rfl, hk c (by simp), hrest.tidy⟩

/-- A number with a minus sign in front, or with none. -/
theorem Signable.tidy_sign {text : List Char} (h : Signable text) (negative : Bool) :
    Tidy ((if negative then ['-'] else []) ++ text) := by
  obtain ⟨htidy, c, rest, rfl, hc, hrest⟩ := h
  cases negative with
  | false => exact htidy
  | true => exact .minus hc hrest

/-- An exponent with its sign, behind inert text. -/
theorem Inert.signable_exponent {k : List Char} (hk : Inert k) (hne : k ≠ []) {sign : Char}
    (hsign : sign = '-' ∨ isInert sign = true) {digits : List Char} (hdigits : Inert digits)
    (hsome : digits ≠ []) : Signable (k ++ sign :: digits) := by
  have htail : Tidy (sign :: digits) := by
    rcases hsign with rfl | hsign
    · exact (hdigits.signable hsome).tidy_sign true
    · exact .plain hsign hdigits.tidy
  obtain ⟨c, rest, rfl⟩ := List.exists_cons_of_ne_nil hne
  have hrest : Inert rest := fun d hd => hk d (List.mem_cons_of_mem c hd)
  exact ⟨hk.tidy_append htail, c, rest ++ sign :: digits, rfl, hk c (by simp),
    hrest.tidy_append htail⟩

end Sql

/-! ### Numbers -/

/-- The digits of an integer, behind its sign. -/
theorem toList_toString_int (i : Int) : (toString i).toList =
    (if decide (i < 0) = true then ['-'] else []) ++ Nat.toDigits 10 i.natAbs := by
  cases i with
  | ofNat n =>
    show (Nat.repr n).toList = _
    rw [Nat.toList_repr]
    simp
  | negSucc n =>
    have hsign : Int.negSucc n < 0 := Int.negSucc_lt_zero n
    show ("-" ++ Nat.repr (n + 1)).toList = _
    rw [String.toList_append, Nat.toList_repr]
    simp [hsign]

theorem tidy_toString_int (i : Int) : Tidy (toString i).toList := by
  have hdigits : Signable (Nat.toDigits 10 i.natAbs) :=
    (inert_toDigits i.natAbs).signable Nat.toDigits_ne_nil
  rw [toList_toString_int]
  exact hdigits.tidy_sign _

namespace Number.Decimal

theorem lt_length_paddedDigits (mantissa scale : Nat) :
    scale < (paddedDigits mantissa scale).length := by
  have hpos := List.length_pos_iff.2 (Nat.toDigits_ne_nil (n := mantissa) (b := 10))
  simp only [paddedDigits, List.length_append, List.length_replicate]
  omega

theorem tidy_text (d : Decimal) : Tidy d.text.toList := by
  have hdigits : Inert (paddedDigits d.mantissa d.scale) :=
    Inert.append (inert_replicate (by decide) _) (inert_toDigits _)
  have hlength := lt_length_paddedDigits d.mantissa d.scale
  simp only [text, String.toList_ofList]
  -- all that counts is that there are more digits than stand behind the point
  generalize paddedDigits d.mantissa d.scale = digits at hdigits hlength
  have hwhole : Inert (digits.take (digits.length - d.scale)) :=
    fun c hc => hdigits c (List.mem_of_mem_take hc)
  have hfraction : Inert (if d.scale = 0 then [] else
      '.' :: digits.drop (digits.length - d.scale)) := by
    split
    · intro c hc
      simp at hc
    · refine List.forall_mem_cons.2 ⟨by decide, fun c hc => ?_⟩
      exact hdigits c (List.mem_of_mem_drop hc)
  have hne : digits.take (digits.length - d.scale) ≠ [] := by
    rw [← List.length_pos_iff, List.length_take]
    omega
  rw [List.append_assoc]
  exact ((hwhole.append hfraction).signable (by simp [hne])).tidy_sign d.negative

end Number.Decimal

namespace Number.FloatLayout

variable {layout : FloatLayout} {digits : List Char}

/-- Without an exponent a number is inert, and it starts with a digit. -/
theorem signable_positionalText (hwhole : Inert layout.whole.toList) (hdigits : Inert digits)
    (hne : digits ≠ []) (exponent : Int) : Signable (layout.positionalText digits exponent) := by
  have hzeros (n : Nat) : Inert (List.replicate n '0') := inert_replicate (by decide) n
  unfold positionalText
  split
  · have hbody : Inert (['0', '.'] ++ (List.replicate (-exponent - 1).toNat '0' ++ digits)) :=
      Inert.append (by decide) (Inert.append (hzeros _) hdigits)
    exact hbody.signable (by simp)
  split
  · exact ((hdigits.append (hzeros _)).append hwhole).signable (by simp [hne])
  · have htake : Inert (digits.take (exponent.toNat + 1)) :=
      fun c hc => hdigits c (List.mem_of_mem_take hc)
    have hdrop : Inert ('.' :: digits.drop (exponent.toNat + 1)) :=
      List.forall_mem_cons.2 ⟨by decide, fun c hc => hdigits c (List.mem_of_mem_drop hc)⟩
    exact (htake.append hdrop).signable (by simp)

theorem signable_scientificText (hdigits : Inert digits) (hne : digits ≠ []) (exponent : Int) :
    Signable (scientificText digits exponent) := by
  have hexponent : (toString exponent.natAbs).toList = Nat.toDigits 10 exponent.natAbs := by
    rw [Nat.toString_eq_ofList_toDigits, String.toList_ofList]
  have hsign : (if exponent < 0 then '-' else '+') = '-' ∨
      isInert (if exponent < 0 then '-' else '+') = true := by
    split <;> decide
  simp only [scientificText, hexponent]
  -- a minus sign occurs between the mark and the digits of the exponent only
  have hmantissa (mantissa : List Char) (h : Inert mantissa) :
      Signable (mantissa ++ 'e' :: (if exponent < 0 then '-' else '+') ::
        Nat.toDigits 10 exponent.natAbs) := by
    have hmark : Inert (mantissa ++ ['e']) := h.append (by decide)
    simpa using hmark.signable_exponent (by simp) hsign (inert_toDigits _) Nat.toDigits_ne_nil
  split
  · next first second rest =>
    refine hmantissa _ ?_
    have hpoint : Inert ([first] ++ ['.'] ++ second :: rest) :=
      Inert.append (Inert.append (fun c hc => hdigits c (by simp_all)) (by decide))
        fun c hc => hdigits c (List.mem_cons_of_mem _ hc)
    exact hpoint
  · exact hmantissa _ hdigits

theorem signable_magnitude (hwhole : Inert layout.whole.toList) (x : Binary64) :
    Signable (layout.magnitude x) := by
  unfold magnitude
  split
  · have hzero : Inert (['0'] ++ layout.whole.toList) := Inert.append (by decide) hwhole
    exact hzero.signable (by simp)
  · have hdigits := inert_toDigits (shortest x layout.tie).1
    have hne : Nat.toDigits 10 (shortest x layout.tie).1 ≠ [] := Nat.toDigits_ne_nil
    simp only
    split
    · exact signable_positionalText hwhole hdigits hne _
    · exact signable_scientificText hdigits hne _

/-- A finite number is its magnitude, behind its sign. -/
theorem toList_text {x : Binary64} (hx : x.isFinite = true) : (layout.text x).toList =
    (if x.isNegative then ['-'] else []) ++ layout.magnitude x := by
  have hnan : x.isNaN = false := by simp [Binary64.isNaN, hx]
  have hinfinite : x.isInfinite = false := by simp [Binary64.isInfinite, hx]
  simp only [text, hnan, hinfinite, Bool.false_eq_true, if_false, String.toList_append,
    String.toList_ofList]
  cases x.isNegative
  all_goals rfl

theorem tidy_text (hwhole : Inert layout.whole.toList) {x : Binary64} (hx : x.isFinite = true) :
    Tidy (layout.text x).toList := by
  rw [toList_text hx]
  exact (signable_magnitude hwhole x).tidy_sign x.isNegative

end Number.FloatLayout

/-! ### Values -/

namespace Value

mutual

/-- The literal of a value without raw SQL is tidy, whatever its texts are. -/
theorem tidy_literal {value : Value} {sql : String} (hraw : value.rawTexts = [])
    (h : value.literal = .ok sql) : Tidy sql.toList := by
  match value with
  | .null =>
    obtain rfl := Except.ok.inj h
    exact Inert.tidy (by decide)
  | .bool true =>
    obtain rfl := Except.ok.inj h
    exact Inert.tidy (by decide)
  | .bool false =>
    obtain rfl := Except.ok.inj h
    exact Inert.tidy (by decide)
  | .int i =>
    obtain rfl := Except.ok.inj h
    exact tidy_toString_int _
  | .float x =>
    simp only [literal] at h
    split at h
    · next hfinite =>
      obtain rfl := Except.ok.inj h
      exact FloatLayout.tidy_text (by decide) hfinite
    · simp at h
  | .decimal d =>
    obtain rfl := Except.ok.inj h
    exact d.tidy_text
  | .text s =>
    obtain rfl := Except.ok.inj h
    split
    · exact Inert.tidy (by decide)
    · exact Sql.tidy_literal s
  | .array [] =>
    obtain rfl := Except.ok.inj h
    exact Sql.tidy_literal "\x7b\x7d"
  | .array (item :: rest) =>
    simp only [literal, bind_eq_ok_iff, pure_eq_ok_iff] at h
    obtain ⟨texts, htexts, rfl⟩ := h
    have hitems : ∀ s ∈ texts, Tidy s.toList := tidy_itemLiterals hraw htexts
    have hlist : Tidy (", ".intercalate texts).toList :=
      tidy_intercalate (by decide) (by decide) hitems
    simp only [String.toList_append]
    refine Tidy.append ?_ (Inert.tidy (by decide)) (by simp [Unquoted])
    exact Inert.tidy_append (by decide) hlist
  | .timestamp t =>
    obtain rfl := Except.ok.inj h
    exact Sql.tidy_literal _
  | .json document =>
    obtain rfl := Except.ok.inj h
    exact Sql.tidy_literal _
  | .raw sql => simp [rawTexts] at hraw

theorem tidy_itemLiterals {items : List Value} {texts : List String}
    (hraw : itemRawTexts items = []) (h : itemLiterals items = .ok texts) :
    ∀ s ∈ texts, Tidy s.toList := by
  match items with
  | [] =>
    obtain rfl := Except.ok.inj h
    simp
  | item :: rest =>
    simp only [itemLiterals, bind_eq_ok_iff, pure_eq_ok_iff] at h
    obtain ⟨first, hfirst, others, hothers, rfl⟩ := h
    obtain ⟨hitem, hrest⟩ := List.append_eq_nil_iff.1 hraw
    exact List.forall_mem_cons.2 ⟨tidy_literal hitem hfirst, tidy_itemLiterals hrest hothers⟩

end

end Value

end PgToolkit
