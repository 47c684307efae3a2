import PgToolkit.Proofs.Query.Operands
import PgToolkit.Proofs.Sql.Statement

/-!
# Raw SQL and parameters

Raw SQL has no value, so it belongs in the text of a statement and not to its parameters. The
operands of a statement are told apart one by one: an operand that is raw SQL is written, and any
other is bound as it is. What is inside of an array is not looked at.
-/

namespace PgToolkit.Query

/-- The text of a piece is a part of the statement. -/
theorem infix_sql_ofPieces {ps : List Piece} {p : Piece} (h : p ∈ ps) :
    p.sql.toList <:+: (Compiled.ofPieces ps).sql.toList := by
  obtain ⟨front, back, rfl⟩ := List.append_of_mem h
  rw [Piece.toList_sql_ofPieces, Piece.written_append, Piece.written_cons]
  exact ⟨Piece.written front, Piece.written back, by simp⟩

/-- The parameters of a statement are its operands in order, without those that are raw SQL. The
latter are written in the text. So raw SQL is bound, at whatever depth, exactly when an operand is
an array that holds some. -/
theorem params_compile {q : Query} {command : Command} {c : Compiled}
    (h : q.compile command = .ok c) (hfree : ∀ v ∈ q.fragmentParams, v.rawTexts = []) :
    (c.params = (q.operands command).filter fun v => !v.isRaw) ∧
      (∀ sql, .raw sql ∈ q.operands command → sql.toList <:+: c.sql.toList) ∧
      ((∀ v ∈ c.params, v.rawTexts = []) ↔
        ∀ items, .array items ∈ q.operands command → Value.itemRawTexts items = []) := by
  rw [compile_eq_ofPieces] at h
  obtain ⟨pieces, hpieces, rfl⟩ := map_eq_ok_iff.1 h
  have hwrites := writes_pieces hpieces hfree
  have hparams : (Compiled.ofPieces pieces).params =
      (q.operands command).filter fun v => !v.isRaw := hwrites.params
  refine ⟨hparams, fun sql hsql => infix_sql_ofPieces (hwrites.raw sql hsql), ?_⟩
  simp only [hparams, List.mem_filter, Bool.not_eq_true', and_imp]
  constructor
  · intro hall items hitems
    exact (Value.rawTexts_eq_nil_iff rfl).1 (hall _ hitems rfl) items rfl
  · intro hall v hv hraw
    refine (Value.rawTexts_eq_nil_iff hraw).2 ?_
    rintro items rfl
    exact hall items hv

/-- A query for the rows whose key is in a list, with a fragment. -/
def keyed (keys : List Value) : Query where
  table := .name "orders"
  conditions := [.column (.name "id") .isIn (some (.array keys)) .and,
    .raw "total > ?" [.int 10] .and]

theorem rawTexts_fragmentParams_keyed (keys : List Value) :
    ∀ v ∈ (keyed keys).fragmentParams, v.rawTexts = [] := by
  intro v hv
  obtain rfl : v = .int 10 := by simpa [keyed, fragmentParams, Condition.fragmentParams] using hv
  rfl

theorem params_compile_keyed :
    (∀ v ∈ (keyed [.int 1, .null]).fragmentParams, v.rawTexts = []) ∧
      ∃ c, (keyed [.int 1, .null]).compile
          (.update ⟨[("at", .raw "now()"), ("tags", .array [.text "new"])]⟩ ["id"]) = .ok c ∧
        (∀ v ∈ c.params, v.rawTexts = []) ∧ "now()".toList <:+: c.sql.toList ∧
        c.params.length = 3 := by
  have hfree := rawTexts_fragmentParams_keyed [.int 1, .null]
  have hcompiled : Compiled.sql <$> (keyed [.int 1, .null]).compile
      (.update ⟨[("at", .raw "now()"), ("tags", .array [.text "new"])]⟩ ["id"]) = .ok
        ("UPDATE \"orders\" SET \"at\" = now(), \"tags\" = ? WHERE \"id\" = ANY(?)" ++
          " AND (total > ?) RETURNING \"id\"") := by decide +kernel
  obtain ⟨c, hc, -⟩ := map_eq_ok_iff.1 hcompiled
  obtain ⟨hparams, hwritten, hclean⟩ := params_compile hc hfree
  refine ⟨hfree, c, hc, hclean.2 ?_, hwritten "now()" (.head _), ?_⟩
  · intro items hitems
    have hcases : items = [.text "new"] ∨ items = [.int 1, .null] := by
      simpa [operands, keyed, Condition.operands, ListMode.operands, Operator.isUnary,
        Operator.isList, Record.values] using hitems
    rcases hcases with rfl | rfl
    · rfl
    · rfl
  · rw [hparams]
    rfl

/-- A list with raw SQL in it is bound by an UPDATE, raw SQL and all. A SELECT with the same
condition writes the raw SQL and binds the rest. -/
theorem raw_mem_params_update :
    (∀ v ∈ (keyed [.raw "parent_id"]).fragmentParams, v.rawTexts = []) ∧
      (∃ c, (keyed [.raw "parent_id"]).compile (.update ⟨[("total", .int 0)]⟩ []) = .ok c ∧
        c.sql = "UPDATE \"orders\" SET \"total\" = ? WHERE \"id\" = ANY(?) AND (total > ?)" ∧
        ∃ v ∈ c.params, v.rawTexts = ["parent_id"]) ∧
      ∃ c, (keyed [.raw "parent_id"]).compile .select = .ok c ∧
        c.sql = "SELECT * FROM \"orders\" WHERE \"id\" IN (parent_id) AND (total > ?)" ∧
        ∀ v ∈ c.params, v.rawTexts = [] := by
  have hshown (command : Command) (shown : String × List (List String))
      (h : (fun c => (c.sql, c.params.map Value.rawTexts)) <$>
        (keyed [.raw "parent_id"]).compile command = .ok shown) :
      ∃ c, (keyed [.raw "parent_id"]).compile command = .ok c ∧ c.sql = shown.1 ∧
        c.params.map Value.rawTexts = shown.2 := by
    obtain ⟨c, hc, rfl⟩ := map_eq_ok_iff.1 h
    exact ⟨c, hc, rfl, rfl⟩
  obtain ⟨update, hupdate, hsql, hparams⟩ := hshown (.update ⟨[("total", .int 0)]⟩ [])
    ("UPDATE \"orders\" SET \"total\" = ? WHERE \"id\" = ANY(?) AND (total > ?)",
      [[], ["parent_id"], []]) (by decide +kernel)
  obtain ⟨select, hselect, hsql', hparams'⟩ := hshown .select
    ("SELECT * FROM \"orders\" WHERE \"id\" IN (parent_id) AND (total > ?)", [[]])
    (by decide +kernel)
  refine ⟨rawTexts_fragmentParams_keyed _, ⟨update, hupdate, hsql, ?_⟩, select, hselect, hsql', ?_⟩
  · have hmem : ["parent_id"] ∈ update.params.map Value.rawTexts := by simp [hparams]
    exact List.mem_map.1 hmem
  · intro v hv
    have hmem : v.rawTexts ∈ select.params.map Value.rawTexts := List.mem_map_of_mem hv
    simpa [hparams'] using hmem

end PgToolkit.Query
