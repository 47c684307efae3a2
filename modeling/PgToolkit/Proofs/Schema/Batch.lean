import PgToolkit.Proofs.Schema.Statements
import PgToolkit.Proofs.Sql.QuoteToken

/-!
# Cutting a batch into its statements

The statements of a queue are sent as one text with semicolons between them. Names and defaults may
hold semicolons, quotes and comment openers, but these are always inside of quoted tokens, so the
text falls apart into the statements again.
-/

namespace PgToolkit

open Sql

/-- The statement that a part of a batch holds, if it holds one. The line break behind the semicolon
of the part before it is not part of the statement. -/
def partStatement? (part : List QuoteToken) : Option String :=
  match part.flatMap QuoteToken.source with
  | [] => none
  | c :: rest => some (String.ofList (if c = '\n' then rest else c :: rest))

/-- The statements in a text, which is cut at the semicolons outside of its quoted tokens. -/
def cutStatements (sql : String) : List String :=
  ((quoteTokens sql.toList).splitOn (.plain ';')).filterMap partStatement?

/-- A text in which no quoted token is left open. -/
def QuotesClosed (sql : String) : Prop :=
  ∀ quote rest, .unclosed quote rest ∉ quoteTokens sql.toList

/-- A text in which no comment is opened outside of quoted tokens. -/
def CommentFree (sql : String) : Prop :=
  ¬ [.plain '-', .plain '-'] <:+: quoteTokens sql.toList ∧
    ¬ [.plain '/', .plain '*'] <:+: quoteTokens sql.toList

namespace StandsAlone

variable {s : String}

theorem quotesClosed (h : StandsAlone s) : QuotesClosed s := by
  intro quote rest hmem
  exact (h.tidy.forall_quoteTokens _ hmem).1 quote rest rfl

theorem commentFree (h : StandsAlone s) : CommentFree s := by
  refine ⟨h.tidy.no_minus_minus, fun hinfix => ?_⟩
  have hslash : .plain '/' ∈ quoteTokens s.toList := hinfix.subset (by simp)
  exact (h.tidy.forall_quoteTokens _ hslash).2.2 rfl

theorem semicolon_not_mem (h : StandsAlone s) : .plain ';' ∉ quoteTokens s.toList :=
  fun hmem => (h.tidy.forall_quoteTokens _ hmem).2.1 rfl

/-- A semicolon behind a statement stands outside of its tokens. -/
theorem quoteTokens_append_semicolon (h : StandsAlone s) (text : List Char) :
    quoteTokens (s.toList ++ ';' :: text) =
      quoteTokens s.toList ++ .plain ';' :: quoteTokens text := by
  rw [h.tidy.quoteTokens_append (by simp [Unquoted]), quoteTokens_plain (by decide) (by decide)]

/-- A statement is found in its part, with a line break in front of it or without one. -/
theorem partStatement?_eq (h : StandsAlone s) :
    partStatement? (quoteTokens s.toList) = some s ∧
      partStatement? (.plain '\n' :: quoteTokens s.toList) = some s := by
  have hstart := h.starts
  constructor
  · rw [partStatement?, source_quoteTokens]
    cases hlist : s.toList with
    | nil => simp [hlist] at hstart
    | cons c rest =>
      have hc : c ≠ '\n' := by simpa [hlist] using hstart
      simp only [if_neg hc, ← hlist, String.ofList_toList]
  · rw [partStatement?, List.flatMap_cons, source_quoteTokens]
    simp [QuoteToken.source]

end StandsAlone

/-- The parts of a batch: the first statement, every further one behind a line break, and nothing
behind the last semicolon. -/
theorem splitOn_batchText {s : String} {rest : List String} (hs : StandsAlone s)
    (hrest : ∀ t ∈ rest, StandsAlone t) :
    (quoteTokens (batchText (s :: rest)).toList).splitOn (.plain ';') =
      quoteTokens s.toList :: (rest.map fun t => .plain '\n' :: quoteTokens t.toList) ++ [[]] := by
  induction rest generalizing s with
  | nil =>
    have htext : (batchText [s]).toList = s.toList ++ [';'] := by simp [batchText]
    rw [htext, hs.quoteTokens_append_semicolon,
      List.splitOn_append_cons_self_of_not_mem hs.semicolon_not_mem]
    simp [quoteTokens]
  | cons t rest ih =>
    obtain ⟨ht, hrest⟩ := List.forall_mem_cons.1 hrest
    have htext : (batchText (s :: t :: rest)).toList =
        s.toList ++ ';' :: '\n' :: (batchText (t :: rest)).toList := by
      simp [batchText, String.toList_append, String.toList_intercalate]
    rw [htext, hs.quoteTokens_append_semicolon,
      List.splitOn_append_cons_self_of_not_mem hs.semicolon_not_mem,
      quoteTokens_plain (by decide) (by decide), List.splitOn_cons_eq_if_modifyHead, ih ht hrest]
    simp

/-- Statements that stand alone are found in their batch, in their order. -/
theorem cutStatements_batchText {statements : List String}
    (h : ∀ s ∈ statements, StandsAlone s) : cutStatements (batchText statements) = statements := by
  cases statements with
  | nil => decide +kernel
  | cons s rest =>
    obtain ⟨hs, hrest⟩ := List.forall_mem_cons.1 h
    have hothers : (rest.map fun t => .plain '\n' :: quoteTokens t.toList).filterMap
        partStatement? = rest := by
      rw [List.filterMap_map]
      calc rest.filterMap (partStatement? ∘ fun t => .plain '\n' :: quoteTokens t.toList)
          = rest.filterMap some :=
            List.filterMap_congr fun t ht => (hrest t ht).partStatement?_eq.2
        _ = rest := List.filterMap_some
    rw [cutStatements, splitOn_batchText hs hrest, List.filterMap_append, List.filterMap_cons,
      hs.partStatement?_eq.1, hothers]
    simp [partStatement?]

/-- The batch of a queue without SQL of the caller is cut into exactly its statements, whatever its
names and defaults are, and no statement leaves a quote open or opens a comment. -/
theorem SchemaQueue.cutStatements_batch {q : SchemaQueue} {statements : List String}
    (hraw : q.rawTexts = []) (h : q.toSql = .ok statements) :
    ∃ sql, q.batch = .ok sql ∧ cutStatements sql = statements ∧
      ∀ s ∈ statements, QuotesClosed s ∧ CommentFree s := by
  have halone := q.standsAlone_toSql hraw h
  refine ⟨batchText statements, map_eq_ok_iff.2 ⟨statements, h, rfl⟩, ?_, fun s hs => ?_⟩
  · exact cutStatements_batchText halone
  · exact ⟨(halone s hs).quotesClosed, (halone s hs).commentFree⟩

/-- A queue whose names and default hold semicolons, quotes, comment openers and line breaks. -/
def markedQueue : SchemaQueue where
  changes :=
    [.table
      { name := "app.\"x;--"
        mode := .create
        columns :=
          [("id", { type := .serial, primary := true }),
            ("a';\nb", { type := .text, default? := some (.array [.text "it's; --", .int (-1)]) })]
        indexes := [("i/*", { columns := ["a';\nb"], unique := true, method? := none })] },
      .dropTable "\n;" true]

theorem cutStatements_batch_markedQueue :
    markedQueue.rawTexts = [] ∧ ∃ statements, markedQueue.toSql = .ok statements ∧
      statements.length = 3 ∧ ∃ sql, markedQueue.batch = .ok sql ∧ cutStatements sql = statements ∧
        ∀ s ∈ statements, QuotesClosed s ∧ CommentFree s := by
  have hraw : markedQueue.rawTexts = [] := by decide
  have hlength : List.length <$> markedQueue.toSql = .ok 3 := by decide +kernel
  obtain ⟨statements, h, hthree⟩ := map_eq_ok_iff.1 hlength
  exact ⟨hraw, statements, h, hthree, SchemaQueue.cutStatements_batch hraw h⟩

end PgToolkit
