import PgToolkit.Proofs.Sql.Quotable
import PgToolkit.Proofs.Sql.Statement

/-!
# Reading written names

What is written for a name is read again: quoted identifiers with single dots between them, and
possibly a star without quotes behind the last dot. So different names are written differently, and
whatever stands in a name stays between its quotes.
-/

namespace PgToolkit.Sql

/-- Reads quoted identifiers with single dots between them. A star without quotes may stand at the
end, but not alone. -/
def readSegments (isFirst : Bool) : List QuoteToken → Option (List String)
  | [.plain c] => if c = '*' ∧ isFirst = false then some ["*"] else none
  | [.quoted quote content] => if quote = '"' then some [String.ofList content] else none
  | .quoted quote content :: .plain c :: rest =>
    if quote = '"' ∧ c = '.' then (readSegments false rest).map (String.ofList content :: ·)
    else none
  | _ => none

/-- The segments of a written name, if the whole text is one. -/
def readName (sql : String) : Option (List String) :=
  readSegments true (quoteTokens sql.toList)

theorem readSegments_quoted_dot (isFirst : Bool) (content : List Char) (rest : List QuoteToken) :
    readSegments isFirst (.quoted '"' content :: .plain '.' :: rest) =
      (readSegments false rest).map (String.ofList content :: ·) := by
  rw [readSegments, if_pos ⟨rfl, rfl⟩]

/-! ### Reading what was written -/

theorem quoteTokens_quotedName (segment : String) :
    quoteTokens (quotedName segment).toList = [.quoted '"' segment.toList] := by
  rw [quotedName, quoted, String.toList_ofList, quoteTokens_token _ (.inr rfl) (by simp),
    quoteTokens]

theorem quoteTokens_quotedName_dot (segment : String) (rest : List Char) :
    quoteTokens ((quotedName segment ++ ".").toList ++ rest) =
      .quoted '"' segment.toList :: .plain '.' :: quoteTokens rest := by
  have htext : (quotedName segment ++ ".").toList ++ rest =
      '"' :: (doubled '"' segment.toList ++ '"' :: '.' :: rest) := by
    simp [quotedName, quoted]
  rw [htext, quoteTokens_token _ (.inr rfl) (by simp), quoteTokens_cons_of_isInert (by decide)]

/-- Written segments are read as the segments that they were written for. -/
theorem readSegments_quoteSegments (isFirst : Bool) {parts : List String} (hne : parts ≠ []) :
    readSegments isFirst (quoteTokens (".".intercalate (quoteSegments isFirst parts)).toList) =
      some parts := by
  fun_induction quoteSegments isFirst parts with
  | case1 => exact absurd rfl hne
  | case2 isFirst segment hstar =>
    have hread : quoteTokens "*".toList = [.plain '*'] := by
      rw [String.toList_ofList, quoteTokens_cons_of_isInert (by decide), quoteTokens]
    rw [String.intercalate_singleton, hread, readSegments, if_pos ⟨rfl, hstar.2⟩, hstar.1]
  | case3 isFirst segment hplain =>
    rw [String.intercalate_singleton, quoteTokens_quotedName, readSegments, if_pos rfl,
      String.ofList_toList]
  | case4 isFirst segment rest hrest ih =>
    obtain ⟨next, others, rfl⟩ := List.exists_cons_of_ne_nil hrest
    -- something is written for the segments behind the dot
    obtain ⟨written, more, hwritten⟩ : ∃ written more,
        quoteSegments false (next :: others) = written :: more := by
      cases others with
      | nil =>
        rw [quoteSegments]
        split
        · exact ⟨_, _, rfl⟩
        · exact ⟨_, _, rfl⟩
      | cons => exact ⟨_, _, rfl⟩
    have hbehind := ih (by simp)
    rw [hwritten] at hbehind ⊢
    rw [String.intercalate_cons_cons, String.toList_append, quoteTokens_quotedName_dot,
      readSegments_quoted_dot, hbehind, Option.map_some, String.ofList_toList]

theorem segments_ne_nil (name : String) : segments name ≠ [] := by
  simp [segments]

/-- A name is its segments with dots between them. -/
theorem intercalate_segments (name : String) : ".".intercalate (segments name) = name := by
  apply String.toList_injective
  have hlists : (segments name).map String.toList = name.toList.splitOn '.' := by
    simp [segments, Function.comp_def]
  rw [String.toList_intercalate, hlists]
  exact List.intercalate_splitOn '.'

/-- The segments of a name are the only parts without dots that make it up. -/
theorem eq_segments_iff {name : String} {parts : List String} : parts = segments name ↔
    parts ≠ [] ∧ (∀ part ∈ parts, '.' ∉ part.toList) ∧ ".".intercalate parts = name := by
  constructor
  · rintro rfl
    exact ⟨segments_ne_nil name, fun _ => dot_not_mem_of_mem_segments, intercalate_segments name⟩
  · rintro ⟨hne, hdots, rfl⟩
    have hsplit : (['.'].intercalate (parts.map String.toList)).splitOn '.' =
        parts.map String.toList :=
      List.splitOn_intercalate '.' (List.forall_mem_map.2 hdots) (by simpa using hne)
    have htext : (".".intercalate parts).toList = ['.'].intercalate (parts.map String.toList) :=
      String.toList_intercalate
    rw [segments, htext, hsplit, List.map_map]
    simp [Function.comp_def]

theorem segments_injective {name other : String} (h : segments name = segments other) :
    name = other := by
  rw [← intercalate_segments name, h, intercalate_segments]

/-! ### Names that are written as they are -/

theorem quoteTokens_of_inert {k : List Char} (hk : Inert k) : quoteTokens k = k.map .plain := by
  induction k with
  | nil => rw [quoteTokens, List.map_nil]
  | cons c k ih =>
    rw [quoteTokens_cons_of_isInert (hk c List.mem_cons_self),
      ih fun d hd => hk d (List.mem_cons_of_mem c hd), List.map_cons]

/-- A text without quotes is no written name that is read. -/
theorem readName_of_inert {text : String} (htext : Inert text.toList) : readName text = none := by
  rw [readName, quoteTokens_of_inert htext]
  rcases text.toList with _ | ⟨c, _ | ⟨d, rest⟩⟩
  · rfl
  · simp [readSegments]
  · rfl

theorem readName_quoteIdentifier {name sql : String} (h : quoteIdentifier name = .ok sql) :
    readName sql = if isVerbatim name = true then none else some (segments name) := by
  rcases quoteIdentifier_cases h with ⟨hverbatim, rfl⟩ | ⟨hquoted, rfl⟩
  · rw [if_pos hverbatim, readName_of_inert (inert_of_isVerbatim hverbatim)]
  · rw [if_neg (by simp [hquoted]), readName,
      readSegments_quoteSegments true (segments_ne_nil name)]

/-- What is written for a name tells the name. -/
theorem eq_of_quoteIdentifier_eq {name other sql : String} (hname : quoteIdentifier name = .ok sql)
    (hother : quoteIdentifier other = .ok sql) : other = name := by
  have hread := readName_quoteIdentifier hname
  rw [readName_quoteIdentifier hother] at hread
  -- both are written as they are, or both are read as their segments
  by_cases hn : isVerbatim name = true
  · by_cases ho : isVerbatim other = true
    · rcases quoteIdentifier_cases hname with ⟨-, rfl⟩ | ⟨hquoted, -⟩
      · rcases quoteIdentifier_cases hother with ⟨-, rfl⟩ | ⟨hquoted, -⟩
        · rfl
        · simp [hquoted] at ho
      · simp [hquoted] at hn
    · rw [if_pos hn, if_neg ho] at hread
      cases hread
  · by_cases ho : isVerbatim other = true
    · rw [if_neg hn, if_pos ho] at hread
      cases hread
    · rw [if_neg hn, if_neg ho] at hread
      exact segments_injective (Option.some.inj hread)

/-! ### Names and what is written for them -/

theorem isVerbatim_iff {name : String} :
    isVerbatim name = true ↔ name = "*" ∨ name.map Char.toLower = "count(*)" := by
  simp [isVerbatim]

/-- The segments of a name are the parts between its dots. A name is refused exactly if it is empty,
holds a NUL character or has an empty segment. What is written for any other name is the name itself
if that is a star or the count of all rows, and else it is read as the segments of the name. No
other name is written like that, and as a part of a statement it is closed and has no marks. -/
theorem quoteIdentifier_reversible (name : String) :
    (∀ parts, parts = segments name ↔ parts ≠ [] ∧ (∀ part ∈ parts, '.' ∉ part.toList) ∧
      ".".intercalate parts = name) ∧
    ((∃ e, quoteIdentifier name = .error e) ↔
      name = "" ∨ '\x00' ∈ name.toList ∨ "" ∈ segments name) ∧
    ∀ sql, quoteIdentifier name = .ok sql →
      (name = "*" ∨ name.map Char.toLower = "count(*)" → sql = name) ∧
      (¬ (name = "*" ∨ name.map Char.toLower = "count(*)") → readName sql = some (segments name)) ∧
      (∀ other, quoteIdentifier other = .ok sql → other = name) ∧
      Closed sql.toList ∧ countPlaceholders sql = 0 ∧ numberPlaceholders sql = sql := by
  refine ⟨fun _ => eq_segments_iff, ?_, ?_⟩
  · have hfaults : Quotable name ↔ name ≠ "" ∧ '\x00' ∉ name.toList ∧ "" ∉ segments name :=
      ⟨fun h => ⟨h.1, h.2, h.3⟩, fun h => ⟨h.1, h.2.1, h.2.2⟩⟩
    rw [exists_error_iff, quotable_iff, hfaults]
    tauto
  · intro sql hsql
    have htidy := tidy_quoteIdentifier hsql
    have hread := readName_quoteIdentifier hsql
    rw [← isVerbatim_iff]
    refine ⟨?_, ?_, fun other => eq_of_quoteIdentifier_eq hsql, htidy.closed, ?_, ?_⟩
    · intro hverbatim
      rcases quoteIdentifier_cases hsql with ⟨-, hsame⟩ | ⟨hquoted, -⟩
      · exact hsame
      · simp [hquoted] at hverbatim
    · intro hquoted
      rw [hread, if_neg hquoted]
    · exact List.count_eq_zero.2 htidy.markFree.1
    · rw [numberPlaceholders, htidy.markFree.renderFrom_lexemes, String.ofList_toList]

/-- Quotes, marks and comments in segments, and stars in the middle and at the end. -/
theorem quoteIdentifier_reversible_hostile :
    quoteIdentifier "a\"b.*.?--/*.$$'.*" = .ok "\"a\"\"b\".\"*\".\"?--/*\".\"$$'\".*" ∧
    readName "\"a\"\"b\".\"*\".\"?--/*\".\"$$'\".*" = some ["a\"b", "*", "?--/*", "$$'", "*"] ∧
    countPlaceholders "\"a\"\"b\".\"*\".\"?--/*\".\"$$'\".*" = 0 := by
  have hsql : quoteIdentifier "a\"b.*.?--/*.$$'.*" =
      .ok "\"a\"\"b\".\"*\".\"?--/*\".\"$$'\".*" := by decide +kernel
  obtain ⟨-, hread, -, -, hcount, -⟩ := (quoteIdentifier_reversible _).2.2 _ hsql
  have hsegments : segments "a\"b.*.?--/*.$$'.*" = ["a\"b", "*", "?--/*", "$$'", "*"] := by
    decide +kernel
  rw [hsegments] at hread
  exact ⟨hsql, hread (by decide +kernel), hcount⟩

end PgToolkit.Sql
