import PgToolkit.Proofs.Query.Spacing
import PgToolkit.Proofs.Sql.ArrayText
import PgToolkit.Proofs.Sql.WrittenName

/-!
# Paths of projected fields

What a projection is written as is read for its quoted tokens. The key of a field is a literal of
its name, and so is what stands behind the arrow. A dotted field is read by the path in a literal,
whose content the server reads as an array. Its items are the segments of the field if none of them
is empty, has a character with a meaning in arrays, begins or ends with a blank, or is the word for
null; the path of any other field is not read as its segments.
-/

namespace PgToolkit

namespace Sql

/-! ### Tokens -/

theorem quoteTokens_plain_append {k : List Char} (hk : Inert k) (rest : List Char) :
    quoteTokens (k ++ rest) = k.map .plain ++ quoteTokens rest := by
  rw [quoteTokens_inert_append hk, quoteTokens_of_inert hk]

theorem quoteTokens_literal_append (text : String) {rest : List Char} (h : Unquoted rest) :
    quoteTokens ((literal text).toList ++ rest) =
      .quoted '\'' text.toList :: quoteTokens rest := by
  rw [literal, quoted, String.toList_ofList, List.cons_append, List.append_assoc,
    List.singleton_append, quoteTokens_token _ (.inl rfl) h.1]

theorem quoteTokens_literal (text : String) :
    quoteTokens (literal text).toList = [.quoted '\'' text.toList] := by
  have hend : Unquoted [] := by simp [Unquoted]
  have htokens := quoteTokens_literal_append text hend
  rwa [List.append_nil, quoteTokens] at htokens

theorem quoteTokens_intercalate {separator : String} (hinert : Inert separator.toList)
    (hne : separator.toList ≠ []) {texts : List String} (htexts : ∀ s ∈ texts, Tidy s.toList) :
    quoteTokens (separator.intercalate texts).toList =
      (separator.toList.map .plain).intercalate (texts.map fun s => quoteTokens s.toList) := by
  induction texts with
  | nil => simp [quoteTokens]
  | cons s texts ih =>
    obtain ⟨hs, htexts⟩ := List.forall_mem_cons.1 htexts
    cases texts with
    | nil => simp
    | cons t texts =>
      rw [String.intercalate_cons_cons, String.toList_append, String.toList_append,
        List.append_assoc, hs.quoteTokens_append (hinert.unquoted_append hne _),
        quoteTokens_plain_append hinert, ih htexts]
      simp only [List.map_cons, List.intercalate_cons_cons, List.append_assoc]

end Sql

namespace Projection

open Sql

variable {p : Projection} {column sql : String}

/-- What is read for a field: its name as the key, and the column with what is read from it, which
is a path for a dotted field. -/
def fieldTokens (column : List QuoteToken) (field : String) : List QuoteToken :=
  .quoted '\'' field.toList :: (", ".toList.map .plain ++ (column ++
    if '.' ∈ field.toList then "#>".toList.map .plain ++ [.quoted '\'' (pathText field).toList]
    else "->".toList.map .plain ++ [.quoted '\'' field.toList]))

theorem quoteTokens_pair (hcolumn : Tidy column.toList) (field : String) :
    quoteTokens (pair column field).toList = fieldTokens (quoteTokens column.toList) field := by
  have hcomma : Unquoted (", ".toList ++ (access column field).toList) :=
    Inert.unquoted_append (by decide) (by decide) _
  rw [pair, String.toList_append, String.toList_append, List.append_assoc,
    quoteTokens_literal_append field hcomma, quoteTokens_plain_append (by decide), fieldTokens]
  by_cases hdot : '.' ∈ field.toList
  · have hpath : Unquoted ("#>".toList ++ (literal (pathText field)).toList) :=
      Inert.unquoted_append (by decide) (by decide) _
    rw [access, if_pos (List.contains_iff_mem.2 hdot), if_pos hdot, String.toList_append,
      String.toList_append, List.append_assoc, hcolumn.quoteTokens_append hpath,
      quoteTokens_plain_append (by decide), quoteTokens_literal]
  · have harrow : Unquoted ("->".toList ++ (literal field).toList) := by simp [Unquoted]
    have htokens : quoteTokens ("->".toList ++ (literal field).toList) =
        "->".toList.map .plain ++ [.quoted '\'' field.toList] := by
      rw [← quoteTokens_literal]
      exact quoteTokens_minus_cons (by decide) _
    rw [access, if_neg (mt List.contains_iff_mem.1 hdot), if_neg hdot, String.toList_append,
      String.toList_append, List.append_assoc, hcolumn.quoteTokens_append harrow, htokens]

theorem toList_pathText (field : String) :
    (pathText field).toList = arrayText ((segments field).map String.toList) := by
  simp only [pathText, arrayText, String.toList_append, String.toList_intercalate]
  rfl

/-- A path is read as the segments of its field exactly if all of them are plain. -/
theorem readArray_pathText_iff (field : String) :
    readArray (pathText field).toList = some ((segments field).map fun s => some s.toList) ↔
      ∀ segment ∈ segments field, PlainItem segment.toList := by
  have hne : (segments field).map String.toList ≠ [] := by simpa using segments_ne_nil field
  have hiff := readArray_eq_iff hne
  rwa [← toList_pathText, List.map_map, List.forall_mem_map] at hiff

/-- Whatever is in the names of a projection and of its fields, they are read as what they are. -/
theorem quoteTokens_toSql (h : p.toSql = .ok sql) : ∃ column name,
    quoteIdentifier p.column = .ok column ∧
    quoteIdentifier (p.alias?.getD (lastSegment p.column)) = .ok name ∧
    quoteTokens sql.toList = "jsonb_build_object(".toList.map .plain ++
      (", ".toList.map .plain).intercalate
        (p.fields.map (fieldTokens (quoteTokens column.toList))) ++
      ") AS ".toList.map .plain ++ quoteTokens name.toList := by
  simp only [toSql, ite_error_eq_ok_iff, bind_eq_ok_iff, pure_eq_ok_iff] at h
  obtain ⟨-, column, hcolumn, name, hname, rfl⟩ := h
  have htidy := tidy_quoteIdentifier hcolumn
  have hpairs : ∀ s ∈ p.fields.map (pair column), Tidy s.toList :=
    List.forall_mem_map.2 fun field _ => tidy_pair htidy field
  have htail : Unquoted (") AS ".toList ++ name.toList) :=
    Inert.unquoted_append (by decide) (by decide) _
  have hfields : (p.fields.map (pair column)).map (fun s => quoteTokens s.toList) =
      p.fields.map (fieldTokens (quoteTokens column.toList)) := by
    rw [List.map_map]
    exact List.map_congr_left fun field _ => quoteTokens_pair htidy field
  have hbody : Tidy (", ".intercalate (p.fields.map (pair column))).toList :=
    tidy_intercalate (by decide) (by decide) hpairs
  refine ⟨column, name, hcolumn, hname, ?_⟩
  simp only [String.toList_append, List.append_assoc]
  rw [quoteTokens_plain_append (by decide), hbody.quoteTokens_append htail,
    quoteTokens_plain_append (by decide), quoteTokens_intercalate (by decide) (by decide) hpairs,
    hfields]

/-- What is written for a projection has the names of its fields as keys, and reads a dotted field
by the path that stands for it, whatever is in the names. The path is the array of the segments of
the field exactly if all of them are plain. -/
theorem toSql_paths (h : p.toSql = .ok sql) :
    (∃ column name, quoteIdentifier p.column = .ok column ∧
      quoteIdentifier (p.alias?.getD (lastSegment p.column)) = .ok name ∧
      quoteTokens sql.toList = "jsonb_build_object(".toList.map .plain ++
        (", ".toList.map .plain).intercalate
          (p.fields.map (fieldTokens (quoteTokens column.toList))) ++
        ") AS ".toList.map .plain ++ quoteTokens name.toList) ∧
    ∀ field ∈ p.fields, '.' ∈ field.toList →
      (readArray (pathText field).toList = some ((segments field).map fun s => some s.toList) ↔
        ∀ segment ∈ segments field, PlainItem segment.toList) :=
  ⟨quoteTokens_toSql h, fun field _ _ => readArray_pathText_iff field⟩

/-- A nested path is read as its segments. -/
theorem toSql_paths_nested :
    let p : Projection := { column := "profile", fields := ["name", "address.city"] }
    ∃ sql, p.toSql = .ok sql ∧ readArray (pathText "address.city").toList =
      some [some "address".toList, some "city".toList] := by
  intro p
  have hsql : p.toSql = .ok ("jsonb_build_object('name', \"profile\"->'name', " ++
      "'address.city', \"profile\"#>'\x7baddress,city\x7d') AS \"profile\"") := by
    decide +kernel
  have hsegments : segments "address.city" = ["address", "city"] := by decide +kernel
  have hpath := (toSql_paths hsql).2 "address.city" (by simp [p]) (by decide)
  rw [hsegments] at hpath
  exact ⟨_, hsql, hpath.2 (by decide +kernel)⟩

/-- A comma in a segment makes two items of it. -/
theorem toSql_paths_comma :
    let p : Projection := { column := "profile", fields := ["address.city,zip"] }
    segments "address.city,zip" = ["address", "city,zip"] ∧
      ∃ sql, p.toSql = .ok sql ∧
        .quoted '\'' "\x7baddress,city,zip\x7d".toList ∈ quoteTokens sql.toList ∧
        readArray "\x7baddress,city,zip\x7d".toList =
          some [some "address".toList, some "city".toList, some "zip".toList] := by
  intro p
  have hsql : p.toSql = .ok ("jsonb_build_object('address.city,zip', " ++
      "\"profile\"#>'\x7baddress,city,zip\x7d') AS \"profile\"") := by
    decide +kernel
  exact ⟨by decide +kernel, _, hsql, by decide +kernel, by decide +kernel⟩

end Projection

end PgToolkit
