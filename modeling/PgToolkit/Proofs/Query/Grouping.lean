import PgToolkit.Proofs.Query.Nesting
import PgToolkit.Proofs.Query.Operands
import PgToolkit.Proofs.Query.Predicate
import PgToolkit.Proofs.Query.Spacing

/-!
# The grouping of conditions

Conditions are attached to each other without parentheses around them, so only the conjunctions
between them may stand outside of parentheses, quotes and comments. Names are quoted and values are
bound. A fragment stands in parentheses, and if its own belong together they cannot close these.
A clause is therefore cut back into the predicates that it was made of, whatever they hold.
-/

namespace PgToolkit

open Sql

/-! ### Tokens -/

/-- The lexemes of a piece. Raw SQL is one of them, whatever it holds. -/
def Piece.tokens : Piece → List Lexeme
  | .raw sql => [.region sql.toList]
  | p => lexemes p.sql.toList

theorem Piece.tokens_text_of_inert {sql : String} (h : Inert sql.toList) :
    (Piece.text sql).tokens = sql.toList.map .plain :=
  lexemes_of_inert h

theorem Piece.tokens_bind (value : Value) : (Piece.bind value).tokens = [.placeholder] :=
  lexemes_sql_bind value

/-- A value is one token. -/
theorem Piece.tokens_ofValue (value : Value) :
    ∃ l, (Piece.ofValue value).tokens = [l] ∧ (l = .placeholder ∨ ∃ text, l = .region text) := by
  cases value with
  | raw sql => exact ⟨_, rfl, .inr ⟨_, rfl⟩⟩
  | _ => exact ⟨_, Piece.tokens_bind _, .inl rfl⟩

/-! ### Names -/

namespace Sql

/-- The tokens of names: segments in quotes, stars and the dots between them. -/
def IsNameToken (l : Lexeme) : Prop :=
  (∃ text, l = .region text) ∨ l = .plain '.' ∨ l = .plain '*'

theorem lexemes_quotedName (text : String) :
    ∃ region, lexemes (quotedName text).toList = [.region region] := by
  rw [quotedName, quoted, String.toList_ofList, lexemes_token text.toList (.inr rfl) (by simp)]
  exact ⟨_, by rw [lexemes]⟩

theorem isNameToken_of_mem_intercalate {texts : List String}
    (htexts : ∀ s ∈ texts, s = "*" ∨ ∃ part, s = quotedName part) {l : Lexeme}
    (hl : l ∈ lexemes (".".intercalate texts).toList) : IsNameToken l := by
  have hsegment {s : String} (hs : s = "*" ∨ ∃ part, s = quotedName part) :
      Tidy s.toList ∧ ∀ l ∈ lexemes s.toList, IsNameToken l := by
    rcases hs with rfl | ⟨part, rfl⟩
    · rw [lexemes_of_inert (by decide)]
      exact ⟨Inert.tidy (by decide), List.forall_mem_singleton.2 (.inr (.inr rfl))⟩
    · obtain ⟨region, hregion⟩ := lexemes_quotedName part
      rw [hregion]
      exact ⟨tidy_quotedName part, List.forall_mem_singleton.2 (.inl ⟨region, rfl⟩)⟩
  rw [String.toList_intercalate] at hl
  induction texts with
  | nil => simp [lexemes] at hl
  | cons s texts ih =>
    obtain ⟨hs, hrest⟩ := List.forall_mem_cons.1 htexts
    obtain ⟨htidy, hsegment⟩ := hsegment hs
    cases texts with
    | nil => exact hsegment l (by simpa using hl)
    | cons t texts =>
      -- behind the segment stands a dot, which is read as itself
      rw [List.map_cons, List.map_cons, List.intercalate_cons_cons, List.append_assoc,
        htidy.lexemes_append (by simp [Unquoted])] at hl
      rcases List.mem_append.1 hl with hl | hl
      · exact hsegment l hl
      rw [lexemes_inert_append (by decide)] at hl
      rcases List.mem_append.1 hl with hl | hl
      · exact .inr (.inl (by simpa using hl))
      · exact ih hrest (by simpa using hl)

theorem IsNameToken.compact {ls : List Lexeme} (h : ∀ l ∈ ls, IsNameToken l) : Compact ls where
  noBlank l hl := by
    rcases h l hl with ⟨text, rfl⟩ | rfl | rfl <;> simp
  closes := by
    refine openBehind_of_forall (fun l hl => ?_) 0
    rcases h l hl with ⟨text, rfl⟩ | rfl | rfl <;> rfl

/-- What stands in front of the letters is the lower case of itself only. -/
theorem toLower_eq_iff {c d : Char} (hd : d.val < 'A'.val) : c.toLower = d ↔ c = d := by
  unfold Char.toLower
  split
  · next h =>
    simp only [UInt32.lt_iff_toNat_lt, UInt32.le_iff_toNat_le, ge_iff_le, Char.reduceVal,
      UInt32.reduceToNat] at hd h
    constructor
    · rintro rfl
      simp only [Char.reduceVal, UInt32.reduceSub, UInt32.toNat_add, UInt32.reduceToNat] at hd
      omega
    · rintro rfl
      omega
  · rfl

theorem openBehind_map_toLower (depth : Nat) (text : List Char) :
    openBehind depth ((text.map Char.toLower).map .plain) = openBehind depth (text.map .plain) := by
  induction text generalizing depth with
  | nil => rfl
  | cons c text ih =>
    have hc : Lexeme.openBehind depth (.plain c.toLower) = Lexeme.openBehind depth (.plain c) := by
      have hopening : c.toLower = '(' ↔ c = '(' := toLower_eq_iff (by decide)
      have hclosing : c.toLower = ')' ↔ c = ')' := toLower_eq_iff (by decide)
      simp only [Lexeme.openBehind_plain, hopening, hclosing]
    simp only [List.map_cons, openBehind, List.foldl_cons, hc]
    exact ih _

/-- A name that is written as it is holds no blank, and closes the parenthesis that it opens. -/
theorem compact_of_isVerbatim {name : String} (h : isVerbatim name = true) :
    Compact (name.toList.map .plain) := by
  simp only [isVerbatim, Bool.or_eq_true, decide_eq_true_eq] at h
  rcases h with rfl | h
  · exact IsNameToken.compact (List.forall_mem_singleton.2 (.inr (.inr rfl)))
  have hlower : name.toList.map Char.toLower = "count(*)".toList := by
    rw [← h, String.toList_map]
  refine ⟨fun l hl heq => ?_, ?_⟩
  · obtain ⟨c, hc, rfl⟩ := List.mem_map.1 hl
    obtain rfl := Lexeme.plain.inj heq
    have hmem : ' '.toLower ∈ "count(*)".toList := hlower ▸ List.mem_map_of_mem hc
    revert hmem
    decide
  · rw [← openBehind_map_toLower, hlower]
    rfl

/-- A name holds no blank outside of its quotes. -/
theorem compact_quoteIdentifier {name sql : String} (h : quoteIdentifier name = .ok sql) :
    Compact (lexemes sql.toList) := by
  rcases quoteIdentifier_cases h with ⟨hverbatim, rfl⟩ | ⟨-, rfl⟩
  · rw [lexemes_of_inert (inert_of_isVerbatim hverbatim)]
    exact compact_of_isVerbatim hverbatim
  · exact IsNameToken.compact fun l hl =>
      isNameToken_of_mem_intercalate (fun s hs => eq_of_mem_quoteSegments hs) hl

end Sql

theorem Piece.compact_ofIdentifier {name : Identifier} {p : Piece}
    (h : ofIdentifier name = .ok p) : Compact p.tokens := by
  cases name with
  | name text =>
    obtain ⟨sql, hsql, rfl⟩ := map_eq_ok_iff.1 h
    exact compact_quoteIdentifier hsql
  | raw sql =>
    obtain rfl := Except.ok.inj h
    exact IsNameToken.compact (List.forall_mem_singleton.2 (.inl ⟨_, rfl⟩))

/-! ### Predicates -/

namespace Condition

/-- The items of a list hold no parentheses. -/
theorem balanced_items (items : List Value) :
    Balanced ((Piece.separated ", " (items.map fun item => [Piece.ofValue item])).flatMap
      Piece.tokens) := by
  refine balanced_of_forall fun l hl => ?_
  obtain ⟨p, hp, hl⟩ := List.mem_flatMap.1 hl
  rcases Piece.mem_separated hp with rfl | ⟨group, hgroup, hp⟩
  · rw [Piece.tokens_text_of_inert (by decide)] at hl
    have hcomma : ∀ l ∈ ", ".toList.map Lexeme.plain, l.nesting = 0 := by decide
    exact hcomma l hl
  · obtain ⟨item, -, rfl⟩ := List.mem_map.1 hgroup
    obtain rfl := List.mem_singleton.1 hp
    obtain ⟨value, hvalue, hkind⟩ := Piece.tokens_ofValue item
    obtain rfl : l = value := by simpa [hvalue] using hl
    rcases hkind with rfl | ⟨text, rfl⟩ <;> rfl

/-- A predicate holds no conjunction outside of parentheses, quotes and comments, and closes all
parentheses that it opens. -/
theorem Rendered.undivided {mode : ListMode} {c : Condition} {ps : List Piece}
    (h : Rendered mode c ps) (hbalanced : ∀ sql ∈ c.fragments, Balanced (lexemes sql.toList)) :
    Undivided (ps.flatMap Piece.tokens) := by
  have hclosing : (Piece.text ")").tokens = [.plain ')'] :=
    Piece.tokens_text_of_inert (by decide)
  have hblank : (Piece.text " ").tokens = [.plain ' '] := Piece.tokens_text_of_inert (by decide)
  have hop (op : Operator) : (Piece.text op.sql).tokens = op.sql.toList.map .plain :=
    Piece.tokens_text_of_inert op.inert_sql
  cases h with
  | @fragment sql params conjunction piece hpiece =>
    obtain ⟨-, rfl⟩ := Piece.ofFragment_eq_ok_iff.1 hpiece
    have hopening : (Piece.text "(").tokens = [.plain '('] :=
      Piece.tokens_text_of_inert (by decide)
    simp only [List.flatMap_cons, List.flatMap_nil, List.append_nil, hopening, hclosing]
    exact .parenthesized (passes_of_isSteady (by decide) 0) (by decide)
      (hbalanced sql (by simp [fragments]))
  | @unary name op value conjunction column hunary hname =>
    simp only [List.flatMap_cons, List.flatMap_nil, List.append_nil, hblank, hop]
    refine (Piece.compact_ofIdentifier hname).undivided.append ?_
    cases op <;> cases hunary <;> exact ⟨passes_of_isSteady (by decide) 0, by decide⟩
  | @noItems name op conjunction hlist hmode =>
    simp only [List.flatMap_cons, List.flatMap_nil, List.append_nil]
    rw [Piece.tokens_text_of_inert (by split <;> decide)]
    split <;> exact ⟨passes_of_isSteady (by decide) 0, by decide⟩
  | @items name op items conjunction column hlist hmode hitems hname =>
    have hopening : (Piece.text " (").tokens = [.plain ' ', .plain '('] :=
      Piece.tokens_text_of_inert (by decide)
    simp only [List.flatMap_cons, List.flatMap_nil, List.append_nil, List.flatMap_append, hblank,
      hop, hopening, hclosing]
    refine (Piece.compact_ofIdentifier hname).undivided.append ?_
    rw [← List.append_assoc, ← List.append_assoc]
    refine .parenthesized ?_ ?_ (balanced_items items)
    · cases op <;> cases hlist <;> exact passes_of_isSteady (by decide) 0
    · cases op <;> cases hlist <;> decide
  | @whole name op items conjunction column hlist hmode hname =>
    simp only [List.flatMap_cons, List.flatMap_nil, List.append_nil, Piece.tokens_bind, hclosing]
    rw [Piece.tokens_text_of_inert (by split <;> decide)]
    refine (Piece.compact_ofIdentifier hname).undivided.append ?_
    refine .parenthesized ?_ ?_ (balanced_of_forall (List.forall_mem_singleton.2 rfl))
    · split <;> exact passes_of_isSteady (by decide) 0
    · split <;> decide
  | @operand name op value conjunction column hbinary hvalue hname =>
    obtain ⟨l, hl, hkind⟩ := Piece.tokens_ofValue value
    simp only [List.flatMap_cons, List.flatMap_nil, List.append_nil, hblank, hop, hl]
    refine (Piece.compact_ofIdentifier hname).undivided.append ?_
    rcases hkind with rfl | ⟨text, rfl⟩
    · cases op <;> exact ⟨passes_of_isSteady (by decide) 0, by decide⟩
    · cases op <;> exact ⟨passes_of_isSteady rfl 0, rfl⟩

/-! ### Clauses -/

/-- A text that a condition is written as, by itself. -/
def WrittenAs (mode : ListMode) (c : Condition) (text : List Char) : Prop :=
  ∃ ps, c.pieces mode = .ok ps ∧ Piece.written ps = text

/-- A condition with another conjunction. -/
def attachedBy (conjunction : Conjunction) : Condition → Condition
  | .column name op value _ => .column name op value conjunction
  | .raw sql params _ => .raw sql params conjunction

theorem pieces_attachedBy (mode : ListMode) (conjunction : Conjunction) (c : Condition) :
    (c.attachedBy conjunction).pieces mode = c.pieces mode := by
  cases c <;> rfl

theorem exists_mem_of_mem_joined {first : List Piece} {others : List (Conjunction × List Piece)}
    {p : Piece} (hp : p ∈ joined first others) (htext : ∀ sql, p ≠ .text sql) :
    p ∈ first ∨ ∃ other ∈ others, p ∈ other.2 := by
  rw [joined, List.mem_append, List.mem_flatMap] at hp
  rcases hp with hp | ⟨other, hother, hp⟩
  · exact .inl hp
  · exact .inr ⟨other, hother, (List.mem_cons.1 hp).resolve_left (htext _)⟩

section

variable {mode : ListMode} {c : Condition} {rest : List Condition} {first : List Piece}
  {others : List (Conjunction × List Piece)} (hfirst : Rendered mode c first)
  (hothers : List.Forall₂ (fun c other => other.1 = c.conjunction ∧ Rendered mode c other.2) rest
    others)

include hfirst hothers

/-- Joined predicates are cut where they were joined. -/
theorem cutFrom_joined
    (hbalanced : ∀ sql ∈ (c :: rest).flatMap fragments, Balanced (lexemes sql.toList)) :
    cutFrom 0 ((joined first others).flatMap Piece.tokens) =
      (first.flatMap Piece.tokens,
        others.map fun other => (other.1, other.2.flatMap Piece.tokens)) := by
  rw [List.flatMap_cons, List.forall_mem_append] at hbalanced
  let parts := others.map fun other => (other.1, other.2.flatMap Piece.tokens)
  have hread : (joined first others).flatMap Piece.tokens =
      first.flatMap Piece.tokens ++ parts.flatMap fun part => part.1.lexemes ++ part.2 := by
    rw [joined, List.flatMap_append, List.flatMap_assoc, List.flatMap_map]
    refine congrArg _ (List.flatMap_congr fun other _ => ?_)
    rw [List.flatMap_cons, Piece.tokens_text_of_inert other.1.inert_sql]
    rfl
  rw [hread]
  refine cutFrom_undivided (hfirst.undivided hbalanced.1) fun part hpart => ?_
  obtain ⟨other, hmem, rfl⟩ := List.mem_map.1 hpart
  obtain ⟨d, hd, -, hrendered⟩ := exists_mem_of_forall₂ hothers hmem
  exact hrendered.undivided fun sql hsql => hbalanced.2 sql (List.mem_flatMap.2 ⟨d, hd, hsql⟩)

/-- Predicates without raw SQL in them are read as their tokens. -/
theorem lexemes_joined (hplain : ∀ d ∈ c :: rest, d.inlined mode = [])
    (hclosed : ∀ sql ∈ (c :: rest).flatMap fragments, Closed sql.toList) :
    lexemes (Piece.written (joined first others)) = (joined first others).flatMap Piece.tokens := by
  have hraw : ∀ sql ∈ (c :: rest).flatMap (inlined mode), SelfContained sql := by
    rw [List.flatMap_eq_nil_iff.2 hplain]
    simp
  have hspaced := (trailing_whereClause (whereClause_eq_ok_iff.2 ⟨_, _, hfirst, hothers, rfl⟩) hraw
    hclosed).spaced.tail
  have hnone {d : Condition} (hd : d ∈ c :: rest) {ps : List Piece} (h : Rendered mode d ps)
      (sql : String) : .raw sql ∉ ps := fun hsql => by
    have hmem := h.mem_inlined hsql
    simp [hplain d hd] at hmem
  rw [hspaced.lexemes_written]
  refine List.flatMap_congr fun p hp => ?_
  cases p with
  | raw sql =>
    rcases exists_mem_of_mem_joined hp (by simp) with hp | ⟨other, hother, hp⟩
    · exact absurd hp (hnone List.mem_cons_self hfirst sql)
    · obtain ⟨d, hd, -, hrendered⟩ := exists_mem_of_forall₂ hothers hother
      exact absurd hp (hnone (List.mem_cons_of_mem c hd) hrendered sql)
  | _ => rfl

end

end Condition

/-- The text of pieces is what their tokens stand for. -/
theorem Piece.flatMap_source_tokens (ps : List Piece) :
    (ps.flatMap tokens).flatMap Lexeme.source = written ps := by
  rw [List.flatMap_assoc, written]
  refine List.flatMap_congr fun p _ => ?_
  cases p with
  | raw sql => exact List.append_nil sql.toList
  | _ => exact flatMap_source_lexemes _

namespace Condition

/-- The text of a clause is cut into one predicate for each condition, with its own conjunction in
front of all but the first. What the fragments, names and values hold has no effect on it. -/
theorem cutPredicates_whereClause {mode : ListMode} {c : Condition} {rest : List Condition}
    {ps : List Piece} (h : whereClause mode (c :: rest) = .ok ps)
    (hplain : ∀ d ∈ c :: rest, d.inlined mode = [])
    (hclosed : ∀ sql ∈ (c :: rest).flatMap fragments, Closed sql.toList)
    (hbalanced : ∀ sql ∈ (c :: rest).flatMap fragments, Balanced (lexemes sql.toList)) :
    (∃ text, Piece.written ps = " WHERE ".toList ++ text ∧
      c.WrittenAs mode (cutPredicates text).1 ∧
      List.Forall₂ (fun d predicate => predicate.1 = d.conjunction ∧ d.WrittenAs mode predicate.2)
        rest (cutPredicates text).2) ∧
    ∀ conjunction, whereClause mode (c.attachedBy conjunction :: rest) = .ok ps := by
  obtain ⟨first, others, hfirst, hothers, rfl⟩ := whereClause_eq_ok_iff.1 h
  refine ⟨⟨Piece.written (joined first others), Piece.written_cons _ _, ?_⟩, fun conjunction => ?_⟩
  · have hcut : cutPredicates (Piece.written (joined first others)) =
        (Piece.written first, others.map fun other => (other.1, Piece.written other.2)) := by
      rw [cutPredicates, lexemes_joined hfirst hothers hplain hclosed,
        cutFrom_joined hfirst hothers hbalanced]
      simp only [Piece.flatMap_source_tokens, List.map_map, Function.comp_def]
    rw [hcut, List.forall₂_map_right_iff]
    exact ⟨⟨first, hfirst.pieces_eq, rfl⟩, hothers.imp fun d other hother =>
      ⟨hother.1, other.2, hother.2.pieces_eq, rfl⟩⟩
  · simp only [whereClause, pieces_attachedBy] at h ⊢
    exact h

/-- Conditions whose names, fragment and value are full of conjunctions and parentheses. -/
def tangled : List Condition :=
  [.column (.name "a OR (b") .isIn (some (.array [.text "c) OR 1=1"])) .or,
    .raw "'(' OR (d = ? AND e)" [.int 1] .and,
    .column (.name "f AND g") .isNull none .or]

theorem cutPredicates_whereClause_tangled :
    (∀ d ∈ tangled, d.inlined .items = []) ∧
      (∀ sql ∈ tangled.flatMap fragments, Closed sql.toList) ∧
      (∀ sql ∈ tangled.flatMap fragments, Balanced (lexemes sql.toList)) ∧
      ∃ ps text, whereClause .items tangled = .ok ps ∧
        Piece.written ps = " WHERE ".toList ++ text ∧
        cutPredicates text = ("\"a OR (b\" IN (?)".toList,
          [(.and, "('(' OR (d = ? AND e))".toList), (.or, "\"f AND g\" IS NULL".toList)]) := by
  have hread : lexemes "'(' OR (d = ? AND e)".toList =
      .region "'('".toList :: (" OR (d = ".toList.map .plain ++
        .placeholder :: " AND e)".toList.map .plain) := by decide +kernel
  have hplain : ∀ d ∈ tangled, d.inlined .items = [] := by decide
  have hfragments : tangled.flatMap fragments = ["'(' OR (d = ? AND e)"] := by decide
  have hclosed : ∀ sql ∈ tangled.flatMap fragments, Closed sql.toList := by
    rw [hfragments]
    refine List.forall_mem_singleton.2 fun region hregion => ?_
    rw [hread] at hregion
    obtain rfl : region = "'('".toList := by simpa using hregion
    exact .quoted "(".toList (.inl rfl)
  have hbalanced : ∀ sql ∈ tangled.flatMap fragments, Balanced (lexemes sql.toList) := by
    rw [hfragments]
    exact List.forall_mem_singleton.2 (by decide +kernel)
  have hshown : (fun ps => String.ofList (Piece.written ps)) <$> whereClause .items tangled = .ok
      " WHERE \"a OR (b\" IN (?) AND ('(' OR (d = ? AND e)) OR \"f AND g\" IS NULL" := by
    decide +kernel
  obtain ⟨ps, hps, -⟩ := map_eq_ok_iff.1 hshown
  -- the predicate of each condition, by itself
  have hwritten {d : Condition} {text : List Char} {sql : String} (h : d.WrittenAs .items text)
      (hsql : (fun ps => String.ofList (Piece.written ps)) <$> d.pieces .items = .ok sql) :
      text = sql.toList := by
    obtain ⟨ps, hps, rfl⟩ := h
    obtain ⟨ps', hps', rfl⟩ := map_eq_ok_iff.1 hsql
    obtain rfl := Except.ok.inj (hps.symm.trans hps')
    exact String.toList_ofList.symm
  obtain ⟨⟨text, htext, hfirst, hothers⟩, -⟩ :=
    cutPredicates_whereClause hps hplain hclosed hbalanced
  obtain ⟨⟨k, second⟩, _, ⟨rfl, hsecond⟩, hrest, heq⟩ := List.forall₂_cons_left_iff.1 hothers
  obtain ⟨⟨l, third⟩, _, ⟨rfl, hthird⟩, hend, rfl⟩ := List.forall₂_cons_left_iff.1 hrest
  obtain rfl := List.forall₂_nil_left_iff.1 hend
  obtain rfl : second = "('(' OR (d = ? AND e))".toList := hwritten hsecond (by decide +kernel)
  obtain rfl : third = "\"f AND g\" IS NULL".toList := hwritten hthird (by decide +kernel)
  have hhead : (cutPredicates text).1 = "\"a OR (b\" IN (?)".toList :=
    hwritten hfirst (by decide +kernel)
  exact ⟨hplain, hclosed, hbalanced, ps, text, hps, htext, Prod.ext hhead heq⟩

end Condition

end PgToolkit
