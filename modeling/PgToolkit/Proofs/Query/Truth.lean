import PgToolkit.Proofs.Query.Grouping

/-!
# The rows that conditions select

A list is compared item by item, or bound as one array. Both ways select the same rows: the tests of
a value against a list are conjunctions and disjunctions of the same comparisons, of which each is
true, false or unknown. The parameters differ in number, so each predicate has to take its own.
-/

namespace PgToolkit

open Sql

/-! ### Truth values -/

/-- The truth of a predicate. A comparison with a missing value is unknown. -/
inductive Truth where
  | no | unknown | yes
  deriving DecidableEq, Repr

namespace Truth

protected def not : Truth → Truth
  | .no => .yes
  | .unknown => .unknown
  | .yes => .no

protected def and : Truth → Truth → Truth
  | .no, _ => .no
  | _, .no => .no
  | .yes, .yes => .yes
  | _, _ => .unknown

protected def or : Truth → Truth → Truth
  | .yes, _ => .yes
  | _, .yes => .yes
  | .no, .no => .no
  | _, _ => .unknown

/-- The disjunction of truth values. -/
def any (ts : List Truth) : Truth := ts.foldr Truth.or .no

/-- The conjunction of truth values. -/
def all (ts : List Truth) : Truth := ts.foldr Truth.and .yes

/-- The truth of predicates without parentheses around them: AND binds tighter than OR. -/
def joined (t : Truth) : List (Conjunction × Truth) → Truth
  | [] => t
  | (.and, u) :: rest => joined (t.and u) rest
  | (.or, u) :: rest => t.or (joined u rest)

theorem not_or (t u : Truth) : (t.or u).not = t.not.and u.not := by
  cases t <;> cases u <;> rfl

theorem not_any (ts : List Truth) : (any ts).not = all (ts.map Truth.not) := by
  induction ts with
  | nil => rfl
  | cons t ts ih =>
    show (t.or (any ts)).not = t.not.and (all (ts.map Truth.not))
    rw [not_or, ih]

end Truth

/-! ### Elements of arrays -/

namespace Value

mutual

/-- The values that the server finds in an array, also in the arrays inside of it. -/
def elements : Value → List Value
  | .array items => itemElements items
  | v => [v]

/-- The values that the server finds in the items of an array. -/
def itemElements : List Value → List Value
  | [] => []
  | item :: rest => elements item ++ itemElements rest

end

/-- An array without arrays inside has its items as elements. -/
theorem itemElements_eq_self {items : List Value} (h : ∀ item ∈ items, item.isArray = false) :
    itemElements items = items := by
  induction items with
  | nil => rfl
  | cons item rest ih =>
    obtain ⟨hitem, hrest⟩ := List.forall_mem_cons.1 h
    have hone : elements item = [item] := by
      cases item with
      | array items => cases hitem
      | _ => rfl
    rw [itemElements, hone, ih hrest, List.singleton_append]

end Value

/-! ### Tests against lists -/

/-- The tests of a value against a list. -/
inductive ListTest where
  /-- Against single parameters. -/
  | isIn | notIn
  /-- Against the elements of an array. -/
  | any | all
  deriving DecidableEq, Repr

namespace ListTest

/-- What stands between the tested value and the parameters. -/
def opening : ListTest → String
  | .isIn => " IN ("
  | .notIn => " NOT IN ("
  | .any => " = ANY("
  | .all => " <> ALL("

def placeholders (count : Nat) : List Lexeme :=
  (", ".toList.map Lexeme.plain).intercalate (List.replicate count [.placeholder])

/-- The lexemes behind the tested value. -/
def lexemes (test : ListTest) (count : Nat) : List Lexeme :=
  test.opening.toList.map .plain ++ (placeholders count ++ [.plain ')'])

/-- The truth of a test with given parameters, when it is known how each value compares. -/
def truth (equal : Value → Truth) (params : List Value) : ListTest → Truth
  | .isIn => Truth.any (params.map equal)
  | .notIn => (Truth.any (params.map equal)).not
  | .any => Truth.any ((params.flatMap Value.elements).map equal)
  | .all => Truth.all ((params.flatMap Value.elements).map fun v => (equal v).not)

/-- The test of a list operator, whose list is compared item by item or as a whole. -/
def ofOperator (op : Operator) : ListMode → ListTest
  | .items => if op = .isIn then .isIn else .notIn
  | .whole => if op = .isIn then .any else .all

/-- The test that lexemes behind a value stand for. -/
def ofLexemes? (ls : List Lexeme) : Option ListTest :=
  [ListTest.isIn, .notIn, .any, .all].find? fun test => ls = test.lexemes (ls.count .placeholder)

end ListTest

/-! ### Meaning -/

/-- What the predicates of a clause mean. Of the equality nothing is asked; that of the server is
unknown when one of its sides is missing. -/
structure Meaning where
  /-- The value of a column in the row at hand, by its name as it is written. -/
  column : List Lexeme → Value
  equal : Value → Value → Truth
  /-- The truth of any other predicate, with its parameters. -/
  other : List Lexeme → List Value → Truth

namespace Meaning

variable (m : Meaning)

/-- The truth of a predicate with its parameters. What is tested against a list stands in front of
the first blank. -/
def predicateTruth (ls : List Lexeme) (params : List Value) : Truth :=
  let column := ls.takeWhile (· ≠ .plain ' ')
  let behind := ls.dropWhile (· ≠ .plain ' ')
  match ListTest.ofLexemes? behind with
  | some test => test.truth (m.equal (m.column column)) params
  | none =>
    if ls = "1=0".toList.map .plain then .no
    else if ls = "1=1".toList.map .plain then .yes
    else m.other ls params

/-- The truth of predicates, of which each takes as many parameters as it has placeholders. -/
def truths : List (Conjunction × List Lexeme) → List Value → List (Conjunction × Truth)
  | [], _ => []
  | (k, ls) :: rest, params =>
    let count := ls.count .placeholder
    (k, m.predicateTruth ls (params.take count)) :: truths rest (params.drop count)

/-- The truth of a WHERE clause with its parameters. Without a clause all rows are selected. -/
def clauseTruth (ls : List Lexeme) (params : List Value) : Truth :=
  let keyword := " WHERE ".toList.map Lexeme.plain
  if keyword.isPrefixOf ls then
    let parts := cutFrom 0 (ls.drop keyword.length)
    let count := parts.1.count .placeholder
    Truth.joined (m.predicateTruth parts.1 (params.take count))
      (m.truths parts.2 (params.drop count))
  else .yes

end Meaning

/-! ### Reading a test -/

namespace ListTest

theorem placeholders_succ_succ (n : Nat) : placeholders (n + 2) =
    [.placeholder] ++ (", ".toList.map .plain ++ placeholders (n + 1)) := by
  rw [placeholders, List.replicate_succ, List.replicate_succ, List.intercalate_cons_cons,
    ← List.replicate_succ, List.append_assoc]
  rfl

theorem count_placeholders (count : Nat) : (placeholders count).count .placeholder = count := by
  induction count with
  | zero => rfl
  | succ n ih =>
    cases n with
    | zero => rfl
    | succ n =>
      rw [placeholders_succ_succ, List.count_append, List.count_append, ih]
      show 1 + (0 + (n + 1)) = _
      omega

theorem count_lexemes (test : ListTest) (count : Nat) :
    (test.lexemes count).count .placeholder = count := by
  have hopening : (test.opening.toList.map Lexeme.plain).count .placeholder = 0 :=
    List.count_eq_zero.2 (by cases test <;> decide)
  have hclosing : [Lexeme.plain ')'].count .placeholder = 0 := rfl
  rw [lexemes, List.count_append, List.count_append, hopening, hclosing, count_placeholders]
  omega

/-- A test is recognized by what stands between the value and the parameters. -/
theorem ofLexemes?_lexemes (test : ListTest) (count : Nat) :
    ofLexemes? (test.lexemes count) = some test := by
  rw [ofLexemes?, count_lexemes]
  cases test <;> simp [lexemes, opening, List.find?]

/-- A list that holds no arrays is tested item by item in the same way as in one array. -/
theorem truth_ofOperator (op : Operator) {items : List Value}
    (hitems : ∀ item ∈ items, item.isArray = false) (equal : Value → Truth) :
    (ofOperator op .items).truth equal items =
      (ofOperator op .whole).truth equal [.array items] := by
  have helements : [Value.array items].flatMap Value.elements = items := by
    simp [Value.elements, Value.itemElements_eq_self hitems]
  simp only [ofOperator]
  split
  · rw [truth, truth, helements]
  · rw [truth, truth, helements, Truth.not_any, List.map_map]
    rfl

end ListTest

namespace Meaning

variable (m : Meaning)

theorem predicateTruth_test {column : List Lexeme} (hcolumn : Compact column) (test : ListTest)
    (count : Nat) (params : List Value) :
    m.predicateTruth (column ++ test.lexemes count) params =
      test.truth (m.equal (m.column column)) params := by
  have hstay : ∀ l ∈ column, decide (l ≠ .plain ' ') = true :=
    fun l hl => decide_eq_true (hcolumn.noBlank l hl)
  obtain ⟨behind, hblank⟩ : ∃ behind, test.lexemes count = .plain ' ' :: behind := by
    cases test <;> exact ⟨_, rfl⟩
  have hread := ListTest.ofLexemes?_lexemes test count
  rw [hblank] at hread ⊢
  simp only [predicateTruth, List.takeWhile_append_of_pos hstay, List.dropWhile_append_of_pos hstay]
  simp [hread]

end Meaning

/-! ### Placeholders of predicates -/

namespace Piece

/-- A piece with one placeholder for each of its parameters. -/
def Aligned (p : Piece) : Prop :=
  p.tokens.count .placeholder = p.params.length

theorem aligned_text {sql : String} (h : Tidy sql.toList) : Aligned (.text sql) :=
  List.count_eq_zero.2 h.markFree.1

theorem aligned_ofIdentifier {name : Identifier} {p : Piece} (h : ofIdentifier name = .ok p) :
    Aligned p := by
  cases name with
  | name text =>
    obtain ⟨sql, hsql, rfl⟩ := map_eq_ok_iff.1 h
    exact aligned_text (tidy_quoteIdentifier hsql)
  | raw sql =>
    obtain rfl := Except.ok.inj h
    rfl

theorem aligned_bind (value : Value) : Aligned (.bind value) := by
  rw [Aligned, tokens_bind]
  rfl

theorem aligned_ofValue (value : Value) : Aligned (ofValue value) := by
  cases value with
  | raw sql => rfl
  | _ => exact aligned_bind _

theorem count_placeholders_of_aligned {ps : List Piece} (h : ∀ p ∈ ps, Aligned p) :
    (ps.flatMap tokens).count .placeholder = (ps.flatMap params).length := by
  induction ps with
  | nil => rfl
  | cons p ps ih =>
    obtain ⟨hp, hps⟩ := List.forall_mem_cons.1 h
    rw [List.flatMap_cons, List.flatMap_cons, List.count_append, List.length_append, hp, ih hps]

end Piece

namespace Condition

open Piece

theorem Rendered.aligned {mode : ListMode} {c : Condition} {ps : List Piece}
    (h : Rendered mode c ps) : ∀ p ∈ ps, Aligned p := by
  have hkeyword {sql : String} (hsql : Inert sql.toList) : Aligned (.text sql) :=
    aligned_text hsql.tidy
  have hblank : Aligned (.text " ") := hkeyword (by decide)
  have hclosing : Aligned (.text ")") := hkeyword (by decide)
  cases h with
  | fragment hpiece =>
    obtain ⟨hcount, rfl⟩ := ofFragment_eq_ok_iff.1 hpiece
    have hopening : Aligned (.text "(") := hkeyword (by decide)
    simp only [List.forall_mem_cons, List.not_mem_nil, false_implies, implies_true, and_true]
    exact ⟨hopening, hcount, hclosing⟩
  | @unary _ op _ _ _ _ hname =>
    simp only [List.forall_mem_cons, List.not_mem_nil, false_implies, implies_true, and_true]
    exact ⟨aligned_ofIdentifier hname, hblank, hkeyword op.inert_sql⟩
  | noItems => exact List.forall_mem_singleton.2 (hkeyword (by split <;> decide))
  | @items _ op items _ _ _ _ _ hname =>
    have hitems : ∀ p ∈ separated ", " (items.map fun item => [ofValue item]), Aligned p := by
      intro p hp
      rcases mem_separated hp with rfl | ⟨group, hgroup, hp⟩
      · exact hkeyword (by decide)
      · obtain ⟨item, -, rfl⟩ := List.mem_map.1 hgroup
        obtain rfl := List.mem_singleton.1 hp
        exact aligned_ofValue item
    have hopening : Aligned (.text " (") := hkeyword (by decide)
    simp only [List.forall_mem_cons, List.forall_mem_append, List.not_mem_nil, false_implies,
      implies_true, and_true]
    exact ⟨aligned_ofIdentifier hname, hblank, hkeyword op.inert_sql, hopening, hitems, hclosing⟩
  | whole _ _ hname =>
    simp only [List.forall_mem_cons, List.not_mem_nil, false_implies, implies_true, and_true]
    exact ⟨aligned_ofIdentifier hname, hkeyword (by split <;> decide), aligned_bind _, hclosing⟩
  | @operand _ op value _ _ _ _ hname =>
    simp only [List.forall_mem_cons, List.not_mem_nil, false_implies, implies_true, and_true]
    exact ⟨aligned_ofIdentifier hname, hblank, hkeyword op.inert_sql, hblank,
      aligned_ofValue value⟩

end Condition

/-! ### The same rows -/

namespace Meaning

/-- The truth of a predicate in pieces. -/
def truthOf (m : Meaning) (ps : List Piece) : Truth :=
  m.predicateTruth (ps.flatMap Piece.tokens) (ps.flatMap Piece.params)

end Meaning

open Piece

namespace Condition

theorem tokens_items {items : List Value} (h : ∀ item ∈ items, item.isRaw = false) :
    (separated ", " (items.map fun item => [ofValue item])).flatMap tokens =
      ListTest.placeholders items.length := by
  induction items with
  | nil => rfl
  | cons item items ih =>
    obtain ⟨hitem, hrest⟩ := List.forall_mem_cons.1 h
    have hone : (ofValue item).tokens = [.placeholder] := by
      cases item with
      | raw sql => cases hitem
      | _ => exact tokens_bind _
    cases items with
    | nil => simpa [separated, ListTest.placeholders] using hone
    | cons next items =>
      have hcomma : (Piece.text ", ").tokens = ", ".toList.map .plain :=
        tokens_text_of_inert (by decide)
      have hnext := ih hrest
      rw [List.map_cons] at hnext
      rw [List.map_cons, List.map_cons, separated, List.singleton_append, List.flatMap_cons,
        List.flatMap_cons, hnext, hone, hcomma]
      · exact (ListTest.placeholders_succ_succ items.length).symm
      · simp

theorem params_items {items : List Value} (h : ∀ item ∈ items, item.isRaw = false) :
    (separated ", " (items.map fun item => [ofValue item])).flatMap params = items := by
  rw [(Writes.ofValues ", " items).params, List.filter_eq_self]
  intro item hitem
  rw [h item hitem]
  rfl

/-- The list of a condition holds no raw SQL and no arrays. -/
def FlatList (c : Condition) : Prop :=
  ∀ name op items conjunction, c = .column name op (some (.array items)) conjunction →
    op.isList = true → ∀ item ∈ items, item.isRaw = false ∧ item.isArray = false

theorem tokens_itemwise {op : Operator} {items : List Value} (column : Piece)
    (hop : op.isList = true) (hitems : ∀ item ∈ items, item.isRaw = false) :
    (column :: .text " " :: .text op.sql :: .text " (" ::
        (separated ", " (items.map fun item => [ofValue item]) ++ [.text ")"])).flatMap tokens =
      column.tokens ++ (ListTest.ofOperator op .items).lexemes items.length := by
  have hopening : (Piece.text " ").tokens ++ ((Piece.text op.sql).tokens ++
      (Piece.text " (").tokens) = (ListTest.ofOperator op .items).opening.toList.map .plain := by
    rw [tokens_text_of_inert (by decide), tokens_text_of_inert op.inert_sql,
      tokens_text_of_inert (by decide)]
    cases op <;> cases hop <;> rfl
  have hclosing : (Piece.text ")").tokens = [.plain ')'] := tokens_text_of_inert (by decide)
  simp only [List.flatMap_cons, List.flatMap_append, List.flatMap_nil, List.append_nil,
    tokens_items hitems, hclosing, ListTest.lexemes, ← hopening, List.append_assoc]

theorem tokens_whole {op : Operator} (column : Piece) (value : Value) :
    [column, .text (if op = .isIn then " = ANY(" else " <> ALL("), .bind value,
        .text ")"].flatMap tokens =
      column.tokens ++ (ListTest.ofOperator op .whole).lexemes 1 := by
  have hopening : (Piece.text (if op = .isIn then " = ANY(" else " <> ALL(")).tokens =
      (ListTest.ofOperator op .whole).opening.toList.map .plain := by
    rw [tokens_text_of_inert (by split <;> decide)]
    simp only [ListTest.ofOperator]
    split <;> rfl
  have hclosing : (Piece.text ")").tokens = [.plain ')'] := tokens_text_of_inert (by decide)
  simp only [List.flatMap_cons, List.flatMap_nil, List.append_nil, tokens_bind, hopening, hclosing]
  rfl

/-- The known result of a comparison without items is that with an empty array. -/
theorem truthOf_noItems (m : Meaning) (op : Operator) (value : Value) :
    m.truthOf [.text (if op = .isIn then "1=0" else "1=1")] =
      (ListTest.ofOperator op .whole).truth (m.equal value) [.array []] := by
  rw [Meaning.truthOf, List.flatMap_singleton, tokens_text_of_inert (by split <;> decide)]
  simp only [ListTest.ofOperator]
  split <;> rfl

/-- A condition whose list is bound whole is also written item by item, and is as true. -/
theorem Rendered.exists_items (m : Meaning) {c : Condition} {qs : List Piece}
    (h : Rendered .whole c qs) (hflat : c.FlatList) :
    ∃ ps, Rendered .items c ps ∧ m.truthOf ps = m.truthOf qs := by
  cases h with
  | fragment hpiece => exact ⟨_, .fragment hpiece, rfl⟩
  | unary hop hname => exact ⟨_, .unary hop hname, rfl⟩
  | noItems _ hmode => cases hmode
  | items _ hmode => cases hmode
  | operand hop hvalue hname => exact ⟨_, .operand hop hvalue hname, rfl⟩
  | @whole name op items conjunction column hop hmode hname =>
    obtain ⟨hraw, harray⟩ := forall₂_and.1 (hflat name op items conjunction rfl hop)
    have hcolumn := compact_ofIdentifier hname
    have hwhole : m.truthOf [column, .text (if op = .isIn then " = ANY(" else " <> ALL("),
          .bind (.array items), .text ")"] =
        (ListTest.ofOperator op .whole).truth (m.equal (m.column column.tokens))
          [.array items] := by
      rw [Meaning.truthOf, tokens_whole, m.predicateTruth_test hcolumn, List.flatMap_cons,
        params_ofIdentifier hname]
      rfl
    by_cases hnil : items = []
    · subst hnil
      exact ⟨_, .noItems hop rfl, (truthOf_noItems m op _).trans hwhole.symm⟩
    · refine ⟨_, .items hop rfl hnil hname, ?_⟩
      rw [hwhole, ← ListTest.truth_ofOperator op harray, Meaning.truthOf,
        tokens_itemwise column hop hraw, m.predicateTruth_test hcolumn]
      simp only [List.flatMap_cons, List.flatMap_append, List.flatMap_nil,
        params_ofIdentifier hname, params_items hraw]
      simp only [Piece.params, List.nil_append, List.append_nil]

/-- The predicates of conditions in both ways, each of them as true as its counterpart. -/
theorem exists_items_others (m : Meaning) {rest : List Condition}
    {wholes : List (Conjunction × List Piece)}
    (h : List.Forall₂ (fun c other => other.1 = c.conjunction ∧ Rendered .whole c other.2) rest
      wholes) (hflat : ∀ c ∈ rest, c.FlatList) :
    ∃ others : List (Conjunction × List Piece),
      List.Forall₂ (fun c other => other.1 = c.conjunction ∧ Rendered .items c other.2) rest
        others ∧
      others.map (fun other => (other.1, m.truthOf other.2)) =
        wholes.map fun whole => (whole.1, m.truthOf whole.2) := by
  induction h with
  | nil => exact ⟨[], .nil, rfl⟩
  | @cons c whole rest wholes hwhole _ ih =>
    obtain ⟨hfirst, hrest⟩ := List.forall_mem_cons.1 hflat
    obtain ⟨ps, hps, htruth⟩ := hwhole.2.exists_items m hfirst
    obtain ⟨others, hothers, htruths⟩ := ih hrest
    refine ⟨(whole.1, ps) :: others, .cons ⟨hwhole.1, hps⟩ hothers, ?_⟩
    rw [List.map_cons, List.map_cons, htruths, htruth]

end Condition

namespace Meaning

variable (m : Meaning)

theorem truths_eq {others : List (Conjunction × List Piece)}
    (h : ∀ other ∈ others, ∀ p ∈ other.2, p.Aligned) :
    m.truths (others.map fun other => (other.1, other.2.flatMap tokens))
        (others.flatMap fun other => other.2.flatMap params) =
      others.map fun other => (other.1, m.truthOf other.2) := by
  induction others with
  | nil => rfl
  | cons other others ih =>
    obtain ⟨hother, hothers⟩ := List.forall_mem_cons.1 h
    rw [List.map_cons, List.flatMap_cons, truths, count_placeholders_of_aligned hother,
      List.take_left, List.drop_left, ih hothers]
    rfl

/-- The truth of a clause is that of its predicates, each with its own parameters. -/
theorem clauseTruth_joined {mode : ListMode} {c : Condition} {rest : List Condition}
    {first : List Piece} {others : List (Conjunction × List Piece)}
    (hfirst : Condition.Rendered mode c first)
    (hothers : List.Forall₂ (fun c other =>
      other.1 = c.conjunction ∧ Condition.Rendered mode c other.2) rest others)
    (hbalanced : ∀ sql ∈ (c :: rest).flatMap Condition.fragments, Balanced (lexemes sql.toList)) :
    m.clauseTruth ((.text " WHERE " :: Condition.joined first others).flatMap tokens)
        ((.text " WHERE " :: Condition.joined first others).flatMap params) =
      Truth.joined (m.truthOf first) (others.map fun other => (other.1, m.truthOf other.2)) := by
  have hkeyword : (Piece.text " WHERE ").tokens = " WHERE ".toList.map .plain :=
    tokens_text_of_inert (by decide)
  have hparams : (Condition.joined first others).flatMap params =
      first.flatMap params ++ others.flatMap fun other => other.2.flatMap params := by
    simp only [Condition.joined, List.flatMap_append, List.flatMap_assoc, List.flatMap_cons,
      Piece.params, List.nil_append]
  have haligned : ∀ other ∈ others, ∀ p ∈ other.2, p.Aligned := by
    intro other hother
    obtain ⟨d, -, -, hrendered⟩ := exists_mem_of_forall₂ hothers hother
    exact hrendered.aligned
  rw [List.flatMap_cons, List.flatMap_cons, hkeyword, hparams]
  rw [clauseTruth, if_pos (List.isPrefixOf_iff_prefix.2 (List.prefix_append _ _)), List.drop_left,
    Condition.cutFrom_joined hfirst hothers hbalanced]
  show Truth.joined (m.predicateTruth _ (List.take _ (first.flatMap params ++ _)))
    (m.truths _ (List.drop _ (first.flatMap params ++ _))) = _
  rw [count_placeholders_of_aligned hfirst.aligned, List.take_left, List.drop_left,
    m.truths_eq haligned]
  rfl

end Meaning

namespace Condition

theorem fragments_of_onColumn {name : Identifier} {op : Operator} {value : Option Value}
    {conjunction : Conjunction} {c : Condition} (h : onColumn name op value conjunction = .ok c) :
    c.fragments = [] := by
  simp only [onColumn] at h
  split at h
  · simp at h
  · obtain rfl := Except.ok.inj h
    rfl

/-- Only lists are written in two ways. -/
theorem pieces_of_not_isList {op : Operator} (hop : op.isList = false) (name : Identifier)
    (value : Option Value) (conjunction : Conjunction) :
    (column name op value conjunction).pieces .items =
      (column name op value conjunction).pieces .whole := by
  simp only [pieces, hop]

/-- The text of a clause without raw SQL is read as the tokens of its pieces. -/
theorem lexemes_whereClause {mode : ListMode} {cs : List Condition} {ps : List Piece}
    (h : whereClause mode cs = .ok ps) (hplain : ∀ c ∈ cs, c.inlined mode = [])
    (hclosed : ∀ sql ∈ cs.flatMap fragments, Closed sql.toList) :
    lexemes (written ps) = ps.flatMap tokens := by
  cases cs with
  | nil =>
    obtain rfl := Except.ok.inj h
    simp [lexemes]
  | cons c rest =>
    obtain ⟨first, others, hfirst, hothers, rfl⟩ := whereClause_eq_ok_iff.1 h
    have hkeyword : Inert " WHERE ".toList := by decide
    rw [written_cons]
    show lexemes (" WHERE ".toList ++ written (joined first others)) = _
    rw [lexemes_inert_append hkeyword, lexemes_joined hfirst hothers hplain hclosed,
      List.flatMap_cons, tokens_text_of_inert hkeyword]

/-- Conditions on columns select the same rows, whether their lists are bound whole or compared item
by item, each way with its own parameters. All other operators are written in one way only. -/
theorem clauseTruth_whereClause (m : Meaning) {cs : List Condition} {qs : List Piece}
    (hbuilt : ∀ c ∈ cs, ∃ name op value conjunction, onColumn name op value conjunction = .ok c)
    (hflat : ∀ c ∈ cs, c.FlatList) (h : whereClause .whole cs = .ok qs) :
    (∃ ps, whereClause .items cs = .ok ps ∧
      m.clauseTruth (ps.flatMap tokens) (ps.flatMap params) =
        m.clauseTruth (qs.flatMap tokens) (qs.flatMap params) ∧
      ((∀ c ∈ cs, ∀ mode, c.inlined mode = []) →
        lexemes (written ps) = ps.flatMap tokens ∧ lexemes (written qs) = qs.flatMap tokens)) ∧
    ∀ name op value conjunction, op.isList = false →
      (column name op value conjunction).pieces .items =
        (column name op value conjunction).pieces .whole := by
  refine ⟨?_, fun name op value conjunction hop => pieces_of_not_isList hop name value conjunction⟩
  have hnone : cs.flatMap fragments = [] := List.flatMap_eq_nil_iff.2 fun c hc => by
    obtain ⟨name, op, value, conjunction, hc⟩ := hbuilt c hc
    exact fragments_of_onColumn hc
  have hclosed : ∀ sql ∈ cs.flatMap fragments, Closed sql.toList := by simp [hnone]
  have hbalanced : ∀ sql ∈ cs.flatMap fragments, Balanced (lexemes sql.toList) := by simp [hnone]
  suffices hsame : ∃ ps, whereClause .items cs = .ok ps ∧
      m.clauseTruth (ps.flatMap tokens) (ps.flatMap params) =
        m.clauseTruth (qs.flatMap tokens) (qs.flatMap params) by
    obtain ⟨ps, hps, htruth⟩ := hsame
    exact ⟨ps, hps, htruth, fun hplain =>
      ⟨lexemes_whereClause hps (fun c hc => hplain c hc .items) hclosed,
        lexemes_whereClause h (fun c hc => hplain c hc .whole) hclosed⟩⟩
  cases cs with
  | nil => exact ⟨qs, h, rfl⟩
  | cons c rest =>
    obtain ⟨whole, wholes, hwhole, hwholes, rfl⟩ := whereClause_eq_ok_iff.1 h
    obtain ⟨hflatFirst, hflatRest⟩ := List.forall_mem_cons.1 hflat
    obtain ⟨first, hfirst, htruth⟩ := hwhole.exists_items m hflatFirst
    obtain ⟨others, hothers, htruths⟩ := exists_items_others m hwholes hflatRest
    refine ⟨_, whereClause_eq_ok_iff.2 ⟨first, others, hfirst, hothers, rfl⟩, ?_⟩
    rw [m.clauseTruth_joined hfirst hothers hbalanced,
      m.clauseTruth_joined hwhole hwholes hbalanced, htruth, htruths]

/-- Conditions on lists with a missing value and without any values, and another one. -/
def searched : List Condition :=
  [.column (.name "a") .notIn (some (.array [.int 1, .null])) .and,
    .column (.name "b") .isIn (some (.array [])) .or,
    .column (.name "c") .eq (some (.text "d")) .and]

/-- Every column holds a two, and what is no number is equal to nothing for certain. -/
def twos : Meaning where
  column _ := .int 2
  equal
    | .int i, .int j => if i = j then .yes else .no
    | _, _ => .unknown
  other _ _ := .yes

theorem clauseTruth_whereClause_searched :
    (∀ c ∈ searched, ∃ name op value conjunction, onColumn name op value conjunction = .ok c) ∧
      (∀ c ∈ searched, c.FlatList) ∧
      ∃ ps qs, whereClause .items searched = .ok ps ∧ whereClause .whole searched = .ok qs ∧
        written ps = " WHERE \"a\" NOT IN (?, ?) OR 1=0 AND \"c\" = ?".toList ∧
        written qs = " WHERE \"a\" <> ALL(?) OR \"b\" = ANY(?) AND \"c\" = ?".toList ∧
        twos.clauseTruth (ps.flatMap tokens) (ps.flatMap params) = .unknown ∧
        twos.clauseTruth (qs.flatMap tokens) (qs.flatMap params) = .unknown := by
  have hbuilt : ∀ c ∈ searched,
      ∃ name op value conjunction, onColumn name op value conjunction = .ok c := by
    simp only [searched, List.forall_mem_cons, List.not_mem_nil, false_implies, implies_true,
      and_true]
    exact ⟨⟨.name "a", .notIn, some (.array [.int 1, .null]), .and, rfl⟩,
      ⟨.name "b", .isIn, some (.array []), .or, rfl⟩,
      ⟨.name "c", .eq, some (.text "d"), .and, rfl⟩⟩
  have hflat : ∀ c ∈ searched, c.FlatList := by
    simp only [searched, List.forall_mem_cons, List.not_mem_nil, false_implies, implies_true,
      and_true]
    refine ⟨?_, ?_, ?_⟩ <;> intro name op items conjunction heq _ item hitem
    · cases heq
      revert item
      simp [Value.isRaw, Value.isArray, Value.kind]
    · cases heq
      cases hitem
    · cases heq
  have hshown (mode : ListMode) (shown : String)
      (h : (fun ps => String.ofList (written ps)) <$> whereClause mode searched = .ok shown) :
      ∃ ps, whereClause mode searched = .ok ps ∧ written ps = shown.toList := by
    obtain ⟨ps, hps, rfl⟩ := map_eq_ok_iff.1 h
    exact ⟨ps, hps, String.toList_ofList.symm⟩
  have hunknown : (fun qs => twos.clauseTruth (qs.flatMap tokens) (qs.flatMap params)) <$>
      whereClause .whole searched = .ok .unknown := by decide +kernel
  obtain ⟨qs, hqs, hwhole⟩ := hshown .whole
    " WHERE \"a\" <> ALL(?) OR \"b\" = ANY(?) AND \"c\" = ?" (by decide +kernel)
  obtain ⟨ps, hps, hitems⟩ := hshown .items
    " WHERE \"a\" NOT IN (?, ?) OR 1=0 AND \"c\" = ?" (by decide +kernel)
  obtain ⟨⟨ps', hps', hsame, -⟩, -⟩ := clauseTruth_whereClause twos hbuilt hflat hqs
  obtain rfl := Except.ok.inj (hps.symm.trans hps')
  have htruth : twos.clauseTruth (qs.flatMap tokens) (qs.flatMap params) = .unknown := by
    rw [hqs] at hunknown
    exact Except.ok.inj hunknown
  exact ⟨hbuilt, hflat, ps, qs, hps, hqs, hitems, hwhole, hsame.trans htruth, htruth⟩

end Condition

end PgToolkit
