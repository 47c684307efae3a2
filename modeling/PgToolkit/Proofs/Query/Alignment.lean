import PgToolkit.Proofs.Query.Spacing

/-!
# Placeholders and parameters

The numbers that a statement is sent with are those of its parameters, in whatever way names,
aliases, fields and values are chosen.
-/

namespace PgToolkit.Query

open Sql

/-- A statement has as many placeholders as parameters. When it is sent, the value that has `k`
parameters in front of it is shown as the number `k + 1`, and its own text stays as it is; in SQL of
the caller an escaped mark is shown as one mark. -/
theorem positional_compile {q : Query} {command : Command} {c : Compiled}
    (h : q.compile command = .ok c)
    (hraw : ∀ sql ∈ q.rawTexts ++ command.rawTexts, SelfContained sql)
    (hfragment : ∀ sql ∈ q.fragments, Closed sql.toList) :
    countPlaceholders c.sql = c.params.length ∧
      ∃ pieces, q.pieces command = .ok pieces ∧
        c.sql.toList = Piece.written pieces ∧
        c.params = pieces.flatMap Piece.params ∧
        c.positional = String.ofList (Piece.numbered 0 pieces) := by
  rw [compile_eq_ofPieces] at h
  obtain ⟨pieces, hpieces, rfl⟩ := map_eq_ok_iff.1 h
  have hspaced := spaced_pieces hpieces hraw hfragment
  refine ⟨hspaced.countPlaceholders_sql, pieces, hpieces, ?_, rfl, hspaced.positional_eq⟩
  exact Piece.toList_sql_ofPieces pieces

/-- A query whose names, alias, field, raw SQL and fragment are full of marks and quotes. -/
def markedQuery : Query where
  table := .name "t?\"--"
  columns := [.column (.raw "/* ? */ n"),
    .json { column := "d$$", fields := ["f?'"], alias? := some "a/*" }]
  conditions := [.column (.name "k?") .isIn (some (.array [.int 1, .raw "'?'"])) .and,
    .raw "a ?? 'b' AND c = ?" [.int 2] .or]
  limit? := some 3

theorem positional_compile_markedQuery :
    (∀ sql ∈ markedQuery.rawTexts ++ Command.select.rawTexts, SelfContained sql) ∧
      (∀ sql ∈ markedQuery.fragments, Closed sql.toList) ∧
        ∃ c, markedQuery.compile .select = .ok c ∧
          countPlaceholders c.sql = c.params.length ∧
          (∃ pieces, markedQuery.pieces .select = .ok pieces ∧
            c.positional = String.ofList (Piece.numbered 0 pieces)) ∧
          c.positional =
            "SELECT /* ? */ n, jsonb_build_object('f?''', \"d$$\"->'f?''') AS \"a/*\"" ++
              " FROM \"t?\"\"--\" WHERE \"k?\" IN ($1, '?') OR (a ? 'b' AND c = $2) LIMIT $3" := by
  have hcomment : lexemes "/* ? */ n".toList =
      [.region "/* ? */".toList, .plain ' ', .plain 'n'] := by decide +kernel
  have hliteral : lexemes "'?'".toList = [.region "'?'".toList] := by decide +kernel
  have hmarks : lexemes "a ?? 'b' AND c = ?".toList =
      [.plain 'a', .plain ' ', .escapedMark, .plain ' ', .region "'b'".toList] ++
        " AND c = ".toList.map .plain ++ [.placeholder] := by decide +kernel
  have hraw : ∀ sql ∈ markedQuery.rawTexts ++ Command.select.rawTexts, SelfContained sql := by
    have htexts : markedQuery.rawTexts ++ Command.select.rawTexts = ["/* ? */ n", "'?'"] := by
      decide
    rw [htexts]
    refine List.forall_mem_cons.2 ⟨⟨?_, by decide +kernel⟩,
      List.forall_mem_singleton.2 ⟨?_, by decide +kernel⟩⟩
    · intro region hregion
      rw [hcomment] at hregion
      obtain rfl : region = "/* ? */".toList := by simpa using hregion
      exact .blockComment " ? ".toList
    · intro region hregion
      rw [hliteral] at hregion
      obtain rfl : region = "'?'".toList := by simpa using hregion
      exact .quoted "?".toList (.inl rfl)
  have hfragment : ∀ sql ∈ markedQuery.fragments, Closed sql.toList := by
    have htexts : markedQuery.fragments = ["a ?? 'b' AND c = ?"] := by decide
    rw [htexts]
    refine List.forall_mem_singleton.2 ?_
    intro region hregion
    rw [hmarks] at hregion
    obtain rfl : region = "'b'".toList := by simpa using hregion
    exact .quoted "b".toList (.inl rfl)
  have hshown : Compiled.positional <$> markedQuery.compile .select = .ok
      ("SELECT /* ? */ n, jsonb_build_object('f?''', \"d$$\"->'f?''') AS \"a/*\"" ++
        " FROM \"t?\"\"--\" WHERE \"k?\" IN ($1, '?') OR (a ? 'b' AND c = $2) LIMIT $3") := by
    decide +kernel
  obtain ⟨c, hc, htext⟩ := map_eq_ok_iff.1 hshown
  obtain ⟨hcount, pieces, hpieces, -, -, hpositional⟩ := positional_compile hc hraw hfragment
  exact ⟨hraw, hfragment, c, hc, hcount, ⟨pieces, hpieces, hpositional⟩, htext⟩

end PgToolkit.Query
