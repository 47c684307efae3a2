import PgToolkit.Proofs.Sql.Agreement

/-!
# Names with a word behind them

The names of constraints are those of a table and of a column with a word behind them. When such a
name is quoted, the word stays what it is and stands in front of the last quote.
-/

namespace PgToolkit.Sql

/-- What is put behind a name that holds no dot joins its last segment. -/
theorem exists_splitOn_append (name : List Char) : ∃ parts last, ∀ word, '.' ∉ word →
    (name ++ word).splitOn '.' = parts ++ [last ++ word] := by
  induction name with
  | nil => exact ⟨[], [], fun word hword => List.splitOn_eq_singleton hword⟩
  | cons c name ih =>
    obtain ⟨parts, last, hsplit⟩ := ih
    by_cases hc : c = '.'
    · refine ⟨[] :: parts, last, fun word hword => ?_⟩
      rw [List.cons_append, List.splitOn_cons_eq_if_modifyHead, if_pos (by simpa using hc),
        hsplit word hword, List.cons_append]
    · have hcons (word : List Char) (hword : '.' ∉ word) : (c :: name ++ word).splitOn '.' =
          (parts ++ [last ++ word]).modifyHead (c :: ·) := by
        rw [List.cons_append, List.splitOn_cons_eq_if_modifyHead, if_neg (by simpa using hc),
          hsplit word hword]
      cases parts with
      | nil => exact ⟨[], c :: last, hcons⟩
      | cons first parts => exact ⟨(c :: first) :: parts, last, hcons⟩

theorem quoteSegments_concat {last : String} (h : last ≠ "*") (parts : List String)
    (isFirst : Bool) :
    quoteSegments isFirst (parts ++ [last]) = parts.map quotedName ++ [quotedName last] := by
  induction parts generalizing isFirst with
  | nil => simp [quoteSegments, h]
  | cons part parts ih =>
    cases parts with
    | nil => simpa [quoteSegments] using ih false
    | cons => simpa [quoteSegments] using ih false

theorem intercalate_concat (separator last : List Char) (parts : List (List Char)) :
    separator.intercalate (parts ++ [last]) = (parts.map (· ++ separator)).flatten ++ last := by
  induction parts with
  | nil => simp
  | cons part parts ih =>
    cases parts with
    | nil => simp [List.intercalate_cons_cons]
    | cons => simp_all [List.intercalate_cons_cons]

theorem doubled_of_not_mem {quote : Char} {text : List Char} (h : quote ∉ text) :
    doubled quote text = text := by
  have hone : ∀ c ∈ text, (if c = quote then [quote, quote] else [c]) = [c] := fun c hc =>
    if_neg fun (heq : c = quote) => h (heq ▸ hc)
  rw [doubled, List.flatMap_congr hone, List.flatMap_singleton']

/-- A name with an underscore is none of the names that are not quoted. -/
theorem isVerbatim_of_underscore {name : String} (h : '_' ∈ name.toList) :
    isVerbatim name = false := by
  rw [isVerbatim, Bool.or_eq_false_iff, decide_eq_false_iff_not, decide_eq_false_iff_not]
  constructor
  · rintro rfl
    revert h
    decide
  · intro hlower
    have hmem : '_'.toLower ∈ "count(*)".toList := by
      rw [← hlower, String.toList_map]
      exact List.mem_map_of_mem h
    revert hmem
    decide

/-- A word behind a name stands in front of the last quote. -/
theorem exists_quoteIdentifier_append (name : String) : ∃ before : List Char,
    ∀ word quoted : String, '_' ∈ word.toList → '.' ∉ word.toList → '"' ∉ word.toList →
      quoteIdentifier (name ++ word) = .ok quoted →
      quoted.toList = before ++ (word.toList ++ ['"']) := by
  obtain ⟨parts, last, hsplit⟩ := exists_splitOn_append name.toList
  let quotedParts := parts.map fun part => (quotedName (String.ofList part)).toList
  refine ⟨(quotedParts.map (· ++ ['.'])).flatten ++ '"' :: doubled '"' last,
    fun word quoted hunderscore hdot hquote h => ?_⟩
  have hsegments : segments (name ++ word) =
      parts.map String.ofList ++ [String.ofList (last ++ word.toList)] := by
    rw [segments, String.toList_append, hsplit _ hdot]
    simp
  have hlast : String.ofList (last ++ word.toList) ≠ "*" := by
    intro hstar
    have hmem : '_' ∈ "*".toList := by
      rw [← hstar, String.toList_ofList]
      exact List.mem_append_right _ hunderscore
    revert hmem
    decide
  have hverbatim : isVerbatim (name ++ word) = false :=
    isVerbatim_of_underscore (by simp [hunderscore])
  obtain ⟨hname, -⟩ | ⟨-, rfl⟩ := quoteIdentifier_cases h
  · simp [hverbatim] at hname
  rw [hsegments, quoteSegments_concat hlast, String.toList_intercalate, List.map_append,
    List.map_singleton]
  have hquoted : (quotedName (String.ofList (last ++ word.toList))).toList =
      '"' :: doubled '"' last ++ (word.toList ++ ['"']) := by
    simp [quotedName, Sql.quoted, doubled_of_not_mem hquote]
  rw [intercalate_concat, hquoted]
  simp [quotedParts, Function.comp_def]

end PgToolkit.Sql
