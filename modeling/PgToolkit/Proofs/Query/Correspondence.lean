import PgToolkit.Proofs.Query.Shape
import PgToolkit.Proofs.Query.Spacing

/-!
# Queries of the same shape

Each clause of two queries of the same shape is made of corresponding pieces, so names and values
have no influence on the structure of a statement.
-/

namespace PgToolkit

open Sql

variable {d : Difference}

/-- Lists of pieces that correspond. -/
abbrev Correspond (d : Difference) (ps qs : List Piece) : Prop :=
  List.Forall₂ (Piece.Corresponds d) ps qs

namespace Correspond

variable {ps ps' qs qs' : List Piece}

theorem keyword {k : String} (hk : Inert k.toList) (h : Correspond d ps qs) :
    Correspond d (.text k :: ps) (.text k :: qs) :=
  .cons (Piece.corresponds_keyword hk) h

theorem append (hp : Correspond d ps qs) (hp' : Correspond d ps' qs') :
    Correspond d (ps ++ ps') (qs ++ qs') :=
  List.rel_append hp hp'

theorem separated {k : String} (hinert : Inert k.toList)
    {groups others : List (List Piece)} (h : List.Forall₂ (Correspond d) groups others) :
    Correspond d (Piece.separated k groups) (Piece.separated k others) := by
  induction h with
  | nil => exact .nil
  | cons hfirst hrest ih =>
    cases hrest with
    | nil => exact hfirst
    | cons => exact hfirst.append (.keyword hinert ih)

end Correspond

theorem rel_getD {α : Type} {R : α → α → Prop} {x y : Option α} {a b : α} (h : Option.Rel R x y)
    (hab : R a b) : R (x.getD a) (y.getD b) := by
  cases h with
  | none => exact hab
  | some hxy => exact hxy

/-! ### Names and values -/

namespace Piece

theorem corresponds_ofIdentifier {n m : Identifier} {p q : Piece} (h : n.SameShape d m)
    (hn : ofIdentifier n = .ok p) (hm : ofIdentifier m = .ok q) : Corresponds d p q := by
  cases h with
  | name h =>
    obtain ⟨s, hs, rfl⟩ := map_eq_ok_iff.1 hn
    obtain ⟨t, ht, rfl⟩ := map_eq_ok_iff.1 hm
    exact .text (.quoteIdentifier h hs ht)

/-- Without raw SQL a value is bound. -/
theorem ofValue_eq_bind {value : Value} (h : value.rawTexts = []) :
    ofValue value = .bind value := by
  cases value with
  | raw sql => simp [Value.rawTexts] at h
  | _ => rfl

theorem corresponds_ofValue {v w : Value} (hv : v.rawTexts = []) (hw : w.rawTexts = []) :
    Corresponds d (ofValue v) (ofValue w) := by
  rw [ofValue_eq_bind hv, ofValue_eq_bind hw]
  exact .bind v w

theorem correspond_values {vs ws : List Value} (hlength : vs.length = ws.length)
    (hvs : vs.flatMap Value.rawTexts = []) (hws : ws.flatMap Value.rawTexts = []) :
    Correspond d (separated ", " (vs.map fun v => [ofValue v]))
      (separated ", " (ws.map fun w => [ofValue w])) := by
  refine .separated (by decide) ?_
  rw [List.forall₂_map_left_iff, List.forall₂_map_right_iff, List.forall₂_iff_zip]
  refine ⟨hlength, fun {v w} hmem => .cons ?_ .nil⟩
  rw [List.flatMap_eq_nil_iff] at hvs hws
  exact corresponds_ofValue (hvs v (List.of_mem_zip hmem).1) (hws w (List.of_mem_zip hmem).2)

theorem correspond_returning {ns ms : List String} {ps qs : List Piece}
    (h : List.Forall₂ (SameName d) ns ms) (hn : returning ns = .ok ps)
    (hm : returning ms = .ok qs) : Correspond d ps qs := by
  cases h with
  | nil =>
    obtain rfl := Except.ok.inj hn
    obtain rfl := Except.ok.inj hm
    exact .nil
  | cons hfirst hrest =>
    simp only [returning_cons, bind_eq_ok_iff, pure_eq_ok_iff] at hn hm
    obtain ⟨s, hs, rfl⟩ := hn
    obtain ⟨t, ht, rfl⟩ := hm
    exact .keyword (by decide) (.cons (.text (.quoteIdentifiers (.cons hfirst hrest) hs ht)) .nil)

end Piece

open Piece

/-! ### Selected columns -/

namespace Projection

variable {s t f g : String}

/-- Equally many segments are a path in both cases or in none. -/
theorem contains_dot_eq_of_sameField (h : SameField d f g) :
    f.toList.contains '.' = g.toList.contains '.' := by
  cases d with
  | values => rw [show f = g from h]
  | names => rw [contains_dot_eq, contains_dot_eq, show _ = _ from h]

theorem eq_of_sameField (h : SameField d f g) (hd : d = .values) : f = g := by
  subst hd
  exact h

theorem matched_access (hcolumn : Matched d s.toList t.toList) (h : SameField d f g) :
    Matched d (access s f).toList (access t g).toList := by
  unfold access
  rw [contains_dot_eq_of_sameField h]
  split
  · simp only [String.toList_append]
    refine hcolumn.append_separator (by decide) (by decide) (.literal fun hd => ?_)
    rw [eq_of_sameField h hd]
  · have harrow : Matched d ("->".toList ++ (literal f).toList)
        ("->".toList ++ (literal g).toList) :=
      .arrow (.literal (eq_of_sameField h))
    simp only [String.toList_append, List.append_assoc]
    exact hcolumn.append harrow (by simp [Unquoted]) (by simp [Unquoted])

theorem matched_pair (hcolumn : Matched d s.toList t.toList) (h : SameField d f g) :
    Matched d (pair s f).toList (pair t g).toList := by
  simp only [pair, String.toList_append]
  exact (Matched.literal (eq_of_sameField h)).append_separator (by decide) (by decide)
    (matched_access hcolumn h)

theorem sameName_lastSegment {n m : String} (h : SameName d n m) :
    SameName d (lastSegment n) (lastSegment m) := by
  cases d with
  | values => exact congrArg lastSegment h
  | names =>
    have hlast (name : String) : lastSegment name ∈ segments name := by
      have hne : segments name ≠ [] := by simp [segments]
      rw [lastSegment, List.getLastD_eq_getLast?, List.getLast?_eq_getLast_of_ne_nil hne]
      exact List.getLast_mem hne
    have halone (name : String) : segments (lastSegment name) = [lastSegment name] :=
      segments_of_not_mem (dot_not_mem_of_mem_segments (hlast name))
    obtain ⟨-, hplain⟩ := h
    rw [List.forall_mem_append] at hplain
    refine ⟨by rw [halone, halone]; rfl, ?_⟩
    rw [halone, halone]
    refine List.forall_mem_append.2 ⟨?_, ?_⟩
    · exact List.forall_mem_singleton.2 (hplain.1 _ (hlast n))
    · exact List.forall_mem_singleton.2 (hplain.2 _ (hlast m))

theorem matched_toSql {p r : Projection} (h : p.SameShape d r) (hp : p.toSql = .ok s)
    (hr : r.toSql = .ok t) : Matched d s.toList t.toList := by
  simp only [toSql, ite_error_eq_ok_iff, bind_eq_ok_iff, pure_eq_ok_iff] at hp hr
  obtain ⟨-, column, hcolumn, name, hname, rfl⟩ := hp
  obtain ⟨-, column', hcolumn', name', hname', rfl⟩ := hr
  have hcolumns := Matched.quoteIdentifier h.column hcolumn hcolumn'
  have hpairs : Matched d (", ".intercalate (p.fields.map (pair column))).toList
      (", ".intercalate (r.fields.map (pair column'))).toList := by
    refine .intercalate (by decide) (by decide) ?_
    rw [List.forall₂_map_left_iff, List.forall₂_map_right_iff]
    exact h.fields.imp fun f g hfield => matched_pair hcolumns hfield
  have hlabel : SameName d (p.alias?.getD (lastSegment p.column))
      (r.alias?.getD (lastSegment r.column)) :=
    rel_getD h.label (sameName_lastSegment h.column)
  simp only [String.toList_append]
  refine Matched.append_separator ?_ (by decide) (by decide)
    (.quoteIdentifier hlabel hname hname')
  exact .inert_append (by decide) hpairs

end Projection

theorem SelectColumn.corresponds_piece {c e : SelectColumn} {p q : Piece} (h : c.SameShape d e)
    (hc : c.piece = .ok p) (he : e.piece = .ok q) : Corresponds d p q := by
  cases h with
  | column h => exact corresponds_ofIdentifier h hc he
  | json h =>
    obtain ⟨s, hs, rfl⟩ := map_eq_ok_iff.1 hc
    obtain ⟨t, ht, rfl⟩ := map_eq_ok_iff.1 he
    exact .text (Projection.matched_toSql h hs ht)

/-! ### Joins and orderings -/

theorem correspond_operand (op : Operator) {p q : Piece} (h : Corresponds d p q) :
    Correspond d [.text " ", .text op.sql, .text " ", p] [.text " ", .text op.sql, .text " ", q] :=
  .keyword (by decide) (.keyword op.inert_sql (.keyword (by decide) (.cons h .nil)))

namespace Join

theorem corresponds_pieces {j k : Join} {ps qs : List Piece} (h : j.SameShape d k)
    (hj : j.pieces = .ok ps) (hk : k.pieces = .ok qs) : Correspond d ps qs := by
  simp only [pieces, bind_eq_ok_iff, pure_eq_ok_iff] at hj hk
  obtain ⟨table, htable, left, hleft, right, hright, rfl⟩ := hj
  obtain ⟨table', htable', left', hleft', right', hright', rfl⟩ := hk
  have htables := corresponds_ofIdentifier h.table htable htable'
  have hlefts := corresponds_ofIdentifier h.left hleft hleft'
  have hrights := corresponds_ofIdentifier h.right hright hright'
  have hkind : Inert k.kind.sql.toList := by cases k.kind <;> decide
  rw [h.kind, h.op]
  have hon := Correspond.keyword (k := " ON ") (by decide)
    (.cons hlefts (correspond_operand k.op hrights))
  exact .keyword (by decide) (.keyword hkind (.keyword (by decide) (.cons htables hon)))

theorem corresponds_clause {joins others : List Join} {ps qs : List Piece}
    (h : List.Forall₂ (SameShape d) joins others) (hp : clause joins = .ok ps)
    (hq : clause others = .ok qs) : Correspond d ps qs := by
  simp only [clause, bind_eq_ok_iff, pure_eq_ok_iff] at hp hq
  obtain ⟨groups, hgroups, rfl⟩ := hp
  obtain ⟨groups', hgroups', rfl⟩ := hq
  exact List.rel_flatten
    (forall₂_of_mapM_eq_ok h hgroups hgroups' fun _ _ _ _ => corresponds_pieces)

end Join

namespace OrderItem

theorem corresponds_pieces {item other : OrderItem} {ps qs : List Piece}
    (h : item.SameShape d other) (hp : item.pieces = .ok ps) (hq : other.pieces = .ok qs) :
    Correspond d ps qs := by
  cases h with
  | column h direction =>
    simp only [pieces, bind_eq_ok_iff, pure_eq_ok_iff] at hp hq
    obtain ⟨name, hname, rfl⟩ := hp
    obtain ⟨name', hname', rfl⟩ := hq
    have hdirection : Inert direction.sql.toList := by cases direction <;> decide
    exact .cons (corresponds_ofIdentifier h hname hname')
      (Correspond.keyword (by decide) (.keyword hdirection .nil))

theorem corresponds_clause {orders others : List OrderItem} {ps qs : List Piece}
    (h : List.Forall₂ (SameShape d) orders others) (hp : clause orders = .ok ps)
    (hq : clause others = .ok qs) : Correspond d ps qs := by
  cases h with
  | nil =>
    obtain rfl := Except.ok.inj hp
    obtain rfl := Except.ok.inj hq
    exact .nil
  | cons hfirst hrest =>
    simp only [clause_cons, bind_eq_ok_iff, pure_eq_ok_iff] at hp hq
    obtain ⟨groups, hgroups, rfl⟩ := hp
    obtain ⟨groups', hgroups', rfl⟩ := hq
    refine .keyword (by decide) (.separated (by decide) ?_)
    exact forall₂_of_mapM_eq_ok (.cons hfirst hrest) hgroups hgroups'
      fun _ _ _ _ => corresponds_pieces

end OrderItem

/-! ### Conditions -/

namespace Condition

theorem corresponds_listPieces {mode : ListMode} {n m : Identifier} {op : Operator}
    {xs ys : List Value} {ps qs : List Piece} (hname : n.SameShape d m)
    (hlength : mode = .items → xs.length = ys.length) (hxs : xs.flatMap Value.rawTexts = [])
    (hys : ys.flatMap Value.rawTexts = []) (hp : listPieces mode n op xs = .ok ps)
    (hq : listPieces mode m op ys = .ok qs) : Correspond d ps qs := by
  cases mode with
  | items =>
    have hlength := hlength rfl
    -- both lists take the same branch
    have hempty : xs.isEmpty = ys.isEmpty := by
      rw [Bool.eq_iff_iff, List.isEmpty_iff_length_eq_zero, List.isEmpty_iff_length_eq_zero,
        hlength]
    simp only [listPieces, hempty] at hp hq
    split at hp
    · next h =>
      rw [if_pos h] at hq
      rw [Except.ok.inj hq] at hp
      obtain rfl := Except.ok.inj hp
      obtain rfl := Except.ok.inj hq
      refine .keyword ?_ .nil
      split <;> decide
    · next h =>
      rw [if_neg h] at hq
      simp only [bind_eq_ok_iff, pure_eq_ok_iff] at hp hq
      obtain ⟨column, hcolumn, rfl⟩ := hp
      obtain ⟨column', hcolumn', rfl⟩ := hq
      have hlist := (correspond_values (d := d) hlength hxs hys).append
        (.keyword (k := ")") (by decide) .nil)
      exact .cons (corresponds_ofIdentifier hname hcolumn hcolumn')
        (Correspond.keyword (by decide) (.keyword op.inert_sql (.keyword (by decide) hlist)))
  | whole =>
    simp only [listPieces, bind_eq_ok_iff, pure_eq_ok_iff] at hp hq
    obtain ⟨column, hcolumn, rfl⟩ := hp
    obtain ⟨column', hcolumn', rfl⟩ := hq
    have hend : Correspond d [.bind (.array xs), .text ")"] [.bind (.array ys), .text ")"] :=
      .cons (.bind _ _) (Correspond.keyword (by decide) .nil)
    refine .cons (corresponds_ofIdentifier hname hcolumn hcolumn') (Correspond.keyword ?_ hend)
    split <;> decide

/-- A condition on a column that is no list is the column, the operator and the bound value. -/
theorem pieces_single {mode : ListMode} {n : Identifier} {op : Operator} {v : Value}
    {conjunction : Conjunction} (hop : op.isUnary = false)
    (hlist : op.isList = true → v.isArray = false) :
    pieces mode (.column n op (some v) conjunction) = do
      return [← ofIdentifier n, .text " ", .text op.sql, .text " ", ofValue v] := by
  simp only [pieces, hop, Bool.false_eq_true, if_false]
  split
  · next items hop' =>
    exact absurd (hlist hop') (by simp [Value.isArray, Value.kind])
  · rfl

theorem corresponds_pieces {mode : ListMode} {c e : Condition} {ps qs : List Piece}
    (h : c.SameShape d mode e) (hc : c.rawTexts = []) (he : e.rawTexts = [])
    (hp : c.pieces mode = .ok ps) (hq : e.pieces mode = .ok qs) : Correspond d ps qs := by
  cases h with
  | @column n m hname op v w hvalue conjunction =>
    obtain ⟨-, hv⟩ := List.append_eq_nil_iff.1 hc
    obtain ⟨-, hw⟩ := List.append_eq_nil_iff.1 he
    by_cases hop : op.isUnary = true
    · simp only [pieces, hop, if_true, bind_eq_ok_iff, pure_eq_ok_iff] at hp hq
      obtain ⟨column, hcolumn, rfl⟩ := hp
      obtain ⟨column', hcolumn', rfl⟩ := hq
      exact .cons (corresponds_ofIdentifier hname hcolumn hcolumn')
        (Correspond.keyword (by decide) (.keyword op.inert_sql .nil))
    · have hbinary : op.isUnary = false := by simpa using hop
      -- by the kind of the operand; without one nothing is compiled
      cases hvalue with
      | none => simp [pieces, hbinary] at hp
      | @single v w hsingle =>
        rw [pieces_single hbinary fun hlist => (hsingle hlist).1] at hp
        rw [pieces_single hbinary fun hlist => (hsingle hlist).2] at hq
        simp only [bind_eq_ok_iff, pure_eq_ok_iff] at hp hq
        obtain ⟨column, hcolumn, rfl⟩ := hp
        obtain ⟨column', hcolumn', rfl⟩ := hq
        exact .cons (corresponds_ofIdentifier hname hcolumn hcolumn')
          (correspond_operand op (corresponds_ofValue hv hw))
      | @list xs ys hlist hlength =>
        simp only [pieces, hbinary, Bool.false_eq_true, if_false, hlist] at hp hq
        have hxs : xs.flatMap Value.rawTexts = [] := by
          rw [← Value.itemRawTexts_eq_flatMap]
          exact hv
        have hys : ys.flatMap Value.rawTexts = [] := by
          rw [← Value.itemRawTexts_eq_flatMap]
          exact hw
        exact corresponds_listPieces hname hlength hxs hys hp hq

theorem corresponds_attached {mode : ListMode} {cs es : List Condition} {ps qs : List Piece}
    (h : List.Forall₂ (SameShape d mode) cs es) (hcs : cs.flatMap rawTexts = [])
    (hes : es.flatMap rawTexts = []) (hp : attached mode cs = .ok ps)
    (hq : attached mode es = .ok qs) : Correspond d ps qs := by
  induction h generalizing ps qs with
  | nil =>
    obtain rfl := Except.ok.inj hp
    obtain rfl := Except.ok.inj hq
    exact .nil
  | cons hfirst _ ih =>
    rw [List.flatMap_cons, List.append_eq_nil_iff] at hcs hes
    simp only [attached, bind_eq_ok_iff, pure_eq_ok_iff] at hp hq
    obtain ⟨predicate, hpredicate, rest, hrest, rfl⟩ := hp
    obtain ⟨predicate', hpredicate', rest', hrest', rfl⟩ := hq
    have hpredicates := corresponds_pieces hfirst hcs.1 hes.1 hpredicate hpredicate'
    have hrests := ih hcs.2 hes.2 hrest hrest'
    cases hfirst with
    | column hname op hvalue conjunction =>
      exact .keyword conjunction.inert_sql (hpredicates.append hrests)

theorem corresponds_whereClause {mode : ListMode} {cs es : List Condition} {ps qs : List Piece}
    (h : List.Forall₂ (SameShape d mode) cs es) (hcs : cs.flatMap rawTexts = [])
    (hes : es.flatMap rawTexts = []) (hp : whereClause mode cs = .ok ps)
    (hq : whereClause mode es = .ok qs) : Correspond d ps qs := by
  cases h with
  | nil =>
    obtain rfl := Except.ok.inj hp
    obtain rfl := Except.ok.inj hq
    exact .nil
  | cons hfirst hothers =>
    rw [List.flatMap_cons, List.append_eq_nil_iff] at hcs hes
    simp only [whereClause, bind_eq_ok_iff, pure_eq_ok_iff] at hp hq
    obtain ⟨predicate, hpredicate, rest, hrest, rfl⟩ := hp
    obtain ⟨predicate', hpredicate', rest', hrest', rfl⟩ := hq
    have hpredicates := corresponds_pieces hfirst hcs.1 hes.1 hpredicate hpredicate'
    have hrests := corresponds_attached hothers hcs.2 hes.2 hrest hrest'
    exact .keyword (by decide) (hpredicates.append hrests)

end Condition

/-! ### Rows -/

theorem SamePattern.mem_iff {ns ms : List String} (h : SamePattern ns ms) {n m : String}
    (hname : (n, m) ∈ ns.zip ms) {xs ys : List String} (hlength : xs.length = ys.length)
    (hlist : ∀ y ∈ xs.zip ys, y ∈ ns.zip ms) : n ∈ xs ↔ m ∈ ys := by
  have hxs : (xs.zip ys).map Prod.fst = xs := List.map_fst_zip hlength.le
  have hys : (xs.zip ys).map Prod.snd = ys := List.map_snd_zip hlength.ge
  calc n ∈ xs ↔ ∃ y ∈ xs.zip ys, y.1 = n := by rw [← List.mem_map, hxs]
    _ ↔ ∃ y ∈ xs.zip ys, y.2 = m := by
      refine exists_congr fun y => and_congr_right fun hy => ?_
      exact h y (hlist y hy) (n, m) hname
    _ ↔ m ∈ ys := by rw [← List.mem_map, hys]

theorem mem_zip_append_left {xs ys : List String} (h : xs.length = ys.length)
    (xs' ys' : List String) {pair : String × String} (hpair : pair ∈ xs.zip ys) :
    pair ∈ (xs ++ xs').zip (ys ++ ys') := by
  rw [List.zip_append h]
  exact List.mem_append_left _ hpair

theorem mem_zip_append_right {xs ys : List String} (h : xs.length = ys.length)
    {xs' ys' : List String} {pair : String × String} (hpair : pair ∈ xs'.zip ys') :
    pair ∈ (xs ++ xs').zip (ys ++ ys') := by
  rw [List.zip_append h]
  exact List.mem_append_right _ hpair

namespace Upsert.SameShape

variable {rows others : List Record} {u v : Upsert}

/-- Whether an inserted column is overwritten depends on the pattern of the names only. -/
theorem forall₂_overwritten (hrows : SameRows d rows others) (h : u.SameShape d rows others v) :
    List.Forall₂ (SameName d) (u.overwritten (insertedColumns rows))
      (v.overwritten (insertedColumns others)) := by
  obtain ⟨conflict, update, returning⟩ := u
  obtain ⟨conflict', update', returning'⟩ := v
  obtain ⟨hconflict, hupdate, -, hpattern⟩ := h
  have hcolumns := hrows.columns.length_eq
  have hlengths : (insertedColumns rows ++ conflict).length =
      (insertedColumns others ++ conflict').length := by
    rw [List.length_append, List.length_append, hcolumns, hconflict.length_eq]
  -- the names are compared pair by pair, so every pair is kept together with its place
  have hpairs : List.Forall₂ (fun n m => SameName d n m ∧
      (n, m) ∈ (insertedColumns rows).zip (insertedColumns others))
      (insertedColumns rows) (insertedColumns others) := by
    rw [List.forall₂_iff_zip]
    exact ⟨hcolumns, fun hmem => ⟨List.forall₂_zip hrows.columns hmem, hmem⟩⟩
  refine List.Forall₂.imp (fun _ _ hpair => hpair.1) (List.rel_filter ?_ hpairs)
  rintro n m ⟨-, hmem⟩
  have hname := mem_zip_append_left hlengths (update.getD []) (update'.getD [])
    (mem_zip_append_left hcolumns conflict conflict' hmem)
  have hcontained : n ∈ conflict ↔ m ∈ conflict' :=
    hpattern.mem_iff hname hconflict.length_eq fun y hy =>
      mem_zip_append_left hlengths _ _ (mem_zip_append_right hcolumns hy)
  cases hupdate with
  | none => simp [hcontained]
  | @some only only' honly =>
    have hcontainedOnly : n ∈ only ↔ m ∈ only' :=
      hpattern.mem_iff hname honly.length_eq fun y hy => mem_zip_append_right hlengths hy
    simp [hcontained, hcontainedOnly]

end Upsert.SameShape

namespace Query

theorem corresponds_rowPieces {ns ms : List String} {i j : Nat} {row other : Record}
    {ps qs : List Piece} (hlength : ns.length = ms.length) (hrow : row.rawTexts = [])
    (hother : other.rawTexts = []) (hp : rowPieces ns i row = .ok ps)
    (hq : rowPieces ms j other = .ok qs) : Correspond d ps qs := by
  -- a column that a row does not have is NULL, which is no raw SQL either
  have hraw {r : Record} (h : r.rawTexts = []) (columns : List String) :
      (rowOperands columns r).flatMap Value.rawTexts = [] := by
    simp only [rowOperands, List.flatMap_map, List.flatMap_eq_nil_iff]
    intro column _
    rw [List.eq_nil_iff_forall_not_mem]
    exact Record.forall_rawTexts_get? (P := fun _ => False) (by simp [h]) column
  obtain ⟨-, rfl⟩ := rowPieces_eq_ok_iff.1 hp
  obtain ⟨-, rfl⟩ := rowPieces_eq_ok_iff.1 hq
  have hoperands : (rowOperands ns row).length = (rowOperands ms other).length := by
    simpa [rowOperands] using hlength
  have hcells := correspond_values (d := d) hoperands (hraw hrow ns) (hraw hother ms)
  exact .keyword (by decide) (hcells.append (.keyword (by decide) .nil))

theorem corresponds_rowsPieces {ns ms : List String} {i j : Nat} {rows others : List Record}
    {groups groups' : List (List Piece)} (hcolumns : ns.length = ms.length)
    (hlength : rows.length = others.length) (hrows : rows.flatMap Record.rawTexts = [])
    (hothers : others.flatMap Record.rawTexts = []) (hp : rowsPieces ns i rows = .ok groups)
    (hq : rowsPieces ms j others = .ok groups') :
    List.Forall₂ (Correspond d) groups groups' := by
  induction rows generalizing others i j groups groups' with
  | nil =>
    obtain rfl : others = [] := List.length_eq_zero_iff.1 hlength.symm
    obtain rfl := Except.ok.inj hp
    obtain rfl := Except.ok.inj hq
    exact .nil
  | cons row rows ih =>
    cases others with
    | nil => simp at hlength
    | cons other others =>
      rw [List.flatMap_cons, List.append_eq_nil_iff] at hrows hothers
      simp only [rowsPieces, bind_eq_ok_iff, pure_eq_ok_iff] at hp hq
      obtain ⟨pieces, hpieces, rest, hrest, rfl⟩ := hp
      obtain ⟨pieces', hpieces', rest', hrest', rfl⟩ := hq
      exact .cons (corresponds_rowPieces hcolumns hrows.1 hothers.1 hpieces hpieces')
        (ih (by simpa using hlength) hrows.2 hothers.2 hrest hrest')

theorem corresponds_rowInsertion {q r : Query} {rows others : List Record} {ps qs : List Piece}
    (htable : q.table.SameShape d r.table) (h : SameRows d rows others)
    (hrows : rows.flatMap Record.rawTexts = []) (hothers : others.flatMap Record.rawTexts = [])
    (hp : q.rowInsertion rows = .ok ps) (hq : r.rowInsertion others = .ok qs) :
    Correspond d ps qs := by
  obtain ⟨hlength, hcolumns⟩ := h
  cases rows with
  | nil => simp [rowInsertion] at hp
  | cons first rest =>
    cases others with
    | nil => simp at hlength
    | cons other rest' =>
      have hnames : List.Forall₂ (SameName d) first.columns other.columns := hcolumns
      -- equally many columns: both first rows have columns, or neither has
      have hempty : first.entries = [] ↔ other.entries = [] := by
        have := hnames.length_eq
        simp only [Record.columns, OrderedMap.keys, List.length_map] at this
        rw [← List.length_eq_zero_iff, this, List.length_eq_zero_iff]
      obtain ⟨table, hsql, hp⟩ := rowInsertion_cons_eq_ok_iff.1 hp
      obtain ⟨table', hsql', hq⟩ := rowInsertion_cons_eq_ok_iff.1 hq
      have htables := corresponds_ofIdentifier htable hsql hsql'
      rcases hp with ⟨hfirst, -, rfl⟩ | ⟨hfirst, columns, hquoted, groups, hgroups, rfl⟩
      · rcases hq with ⟨-, -, rfl⟩ | ⟨hother, -⟩
        · exact .keyword (by decide) (.cons htables (Correspond.keyword (by decide) .nil))
        · exact absurd (hempty.1 hfirst) hother
      · rcases hq with ⟨hother, -⟩ | ⟨-, columns', hquoted', groups', hgroups', rfl⟩
        · exact absurd (hempty.2 hother) hfirst
        have hlists : Corresponds d (.text columns) (.text columns') :=
          .text (.quoteIdentifiers hnames hquoted hquoted')
        have hvalues := Correspond.separated (k := ", ") (by decide)
          (corresponds_rowsPieces (d := d) hnames.length_eq hlength hrows hothers hgroups hgroups')
        have htail := Correspond.keyword (k := " (") (by decide)
          (.cons hlists (Correspond.keyword (k := ") VALUES ") (by decide) hvalues))
        exact .keyword (by decide) (.cons htables htail)

theorem matched_overwrite {n m s t : String} (h : SameName d n m) (hn : overwrite n = .ok s)
    (hm : overwrite m = .ok t) : Matched d s.toList t.toList := by
  simp only [overwrite, bind_eq_ok_iff, pure_eq_ok_iff] at hn hm
  obtain ⟨name, hname, rfl⟩ := hn
  obtain ⟨name', hname', rfl⟩ := hm
  have hnames := Matched.quoteIdentifier h hname hname'
  simp only [String.toList_append]
  exact hnames.append_separator (by decide) (by decide) hnames

theorem corresponds_conflictPieces {rows others : List Record} {u v : Upsert} {ps qs : List Piece}
    (hrows : SameRows d rows others) (h : u.SameShape d rows others v)
    (hp : conflictPieces u (insertedColumns rows) = .ok ps)
    (hq : conflictPieces v (insertedColumns others) = .ok qs) : Correspond d ps qs := by
  simp only [conflictPieces, bind_eq_ok_iff, pure_eq_ok_iff] at hp hq
  obtain ⟨target, htarget, assignments, hassignments, rfl⟩ := hp
  obtain ⟨target', htarget', assignments', hassignments', rfl⟩ := hq
  have htargets : Corresponds d (.text target) (.text target') :=
    .text (.quoteIdentifiers h.conflict htarget htarget')
  have hsets := forall₂_of_mapM_eq_ok (h.forall₂_overwritten hrows) hassignments hassignments'
    (S := fun s t => Matched d s.toList t.toList) fun _ _ _ _ => matched_overwrite
  have haction : Matched d
      (if assignments.isEmpty then " DO NOTHING"
        else " DO UPDATE SET " ++ ", ".intercalate assignments).toList
      (if assignments'.isEmpty then " DO NOTHING"
        else " DO UPDATE SET " ++ ", ".intercalate assignments').toList := by
    cases hsets with
    | nil => exact .inert (by decide)
    | cons hfirst hothers =>
      simp only [List.isEmpty_cons, Bool.false_eq_true, if_false, String.toList_append]
      exact .inert_append (by decide)
        (.intercalate (by decide) (by decide) (.cons hfirst hothers))
  exact .keyword (by decide)
    (.cons htargets (Correspond.keyword (by decide) (.cons (.text haction) .nil)))

/-! ### Statements -/

theorem rawTexts_eq_nil_iff {q : Query} : q.rawTexts = [] ↔
    (((q.table.rawTexts = [] ∧ q.columns.flatMap SelectColumn.rawTexts = []) ∧
      q.conditions.flatMap Condition.rawTexts = []) ∧ q.joins.flatMap Join.rawTexts = []) ∧
        q.orders.flatMap OrderItem.rawTexts = [] := by
  simp only [rawTexts, List.append_eq_nil_iff]

theorem corresponds_source {q r : Query} {ps qs : List Piece} (h : q.SameShape d .items r)
    (hq : q.rawTexts = []) (hr : r.rawTexts = []) (hp : q.source = .ok ps)
    (hs : r.source = .ok qs) : Correspond d ps qs := by
  obtain ⟨⟨⟨-, hconditions⟩, -⟩, -⟩ := rawTexts_eq_nil_iff.1 hq
  obtain ⟨⟨⟨-, hconditions'⟩, -⟩, -⟩ := rawTexts_eq_nil_iff.1 hr
  simp only [source, bind_eq_ok_iff, pure_eq_ok_iff] at hp hs
  obtain ⟨table, htable, joins, hjoins, clause, hclause, rfl⟩ := hp
  obtain ⟨table', htable', joins', hjoins', clause', hclause', rfl⟩ := hs
  have htables := corresponds_ofIdentifier h.table htable htable'
  have hjoined := Join.corresponds_clause h.joins hjoins hjoins'
  have hwhere := Condition.corresponds_whereClause h.conditions hconditions hconditions' hclause
    hclause'
  exact .keyword (by decide) (.cons htables (hjoined.append hwhere))

theorem corresponds_paging {k : String} (hinert : Inert k.toList)
    {limit limit' : Option Int64} (h : limit.isSome = limit'.isSome) :
    Correspond d (paging k limit) (paging k limit') := by
  cases limit with
  | none =>
    cases limit' with
    | none => exact .nil
    | some m => simp at h
  | some n =>
    cases limit' with
    | none => simp at h
    | some m => exact .keyword hinert (.cons (.bind _ _) .nil)

theorem corresponds_columnList {columns others : List SelectColumn} {ps qs : List Piece}
    (h : List.Forall₂ (SelectColumn.SameShape d) columns others)
    (hp : columnList columns = .ok ps) (hq : columnList others = .ok qs) :
    Correspond d ps qs := by
  cases h with
  | nil =>
    obtain rfl := Except.ok.inj hp
    obtain rfl := Except.ok.inj hq
    exact .keyword (by decide) .nil
  | cons hfirst hrest =>
    simp only [columnList_cons, bind_eq_ok_iff, pure_eq_ok_iff] at hp hq
    obtain ⟨pieces, hpieces, rfl⟩ := hp
    obtain ⟨pieces', hpieces', rfl⟩ := hq
    have hall := forall₂_of_mapM_eq_ok (.cons hfirst hrest) hpieces hpieces'
      (S := Corresponds d) fun _ _ _ _ => SelectColumn.corresponds_piece
    refine .separated (by decide) ?_
    rw [List.forall₂_map_left_iff, List.forall₂_map_right_iff]
    exact hall.imp fun p q hpiece => .cons hpiece .nil

theorem corresponds_selectPieces {q r : Query} {columns others : List SelectColumn}
    {limit limit' : Option Int64} {ps qs : List Piece} (h : q.SameShape d .items r)
    (hcolumns : List.Forall₂ (SelectColumn.SameShape d) columns others)
    (hlimit : limit.isSome = limit'.isSome) (hq : q.rawTexts = []) (hr : r.rawTexts = [])
    (hp : q.selectPieces columns limit = .ok ps) (hs : r.selectPieces others limit' = .ok qs) :
    Correspond d ps qs := by
  simp only [selectPieces, bind_eq_ok_iff, pure_eq_ok_iff] at hp hs
  obtain ⟨list, hlist, source, hsource, order, horder, rfl⟩ := hp
  obtain ⟨list', hlist', source', hsource', order', horder', rfl⟩ := hs
  have hlists := corresponds_columnList hcolumns hlist hlist'
  have hsources := corresponds_source h hq hr hsource hsource'
  have horders := OrderItem.corresponds_clause h.orders horder horder'
  have hlimits := corresponds_paging (d := d) (k := " LIMIT ") (by decide) hlimit
  have hoffsets := corresponds_paging (d := d) (k := " OFFSET ") (by decide) h.offset
  exact .keyword (by decide)
    ((((hlists.append hsources).append horders).append hlimits).append hoffsets)

theorem corresponds_insertPieces {q r : Query} {rows others : List Record} {ns ms : List String}
    {ps qs : List Piece} (htable : q.table.SameShape d r.table) (hrows : SameRows d rows others)
    (hreturning : List.Forall₂ (SameName d) ns ms) (hraw : rows.flatMap Record.rawTexts = [])
    (hraw' : others.flatMap Record.rawTexts = []) (hp : q.insertPieces rows ns = .ok ps)
    (hq : r.insertPieces others ms = .ok qs) : Correspond d ps qs := by
  simp only [insertPieces, bind_eq_ok_iff, pure_eq_ok_iff] at hp hq
  obtain ⟨insert, hinsert, returned, hreturned, rfl⟩ := hp
  obtain ⟨insert', hinsert', returned', hreturned', rfl⟩ := hq
  have hinserts := corresponds_rowInsertion htable hrows hraw hraw' hinsert hinsert'
  exact hinserts.append (correspond_returning hreturning hreturned hreturned')

theorem corresponds_upsertPieces {q r : Query} {rows others : List Record} {u v : Upsert}
    {ps qs : List Piece} (htable : q.table.SameShape d r.table) (hrows : SameRows d rows others)
    (h : u.SameShape d rows others v) (hraw : rows.flatMap Record.rawTexts = [])
    (hraw' : others.flatMap Record.rawTexts = []) (hp : q.upsertPieces rows u = .ok ps)
    (hq : r.upsertPieces others v = .ok qs) : Correspond d ps qs := by
  simp only [upsertPieces, ite_error_eq_ok_iff, bind_eq_ok_iff, pure_eq_ok_iff] at hp hq
  obtain ⟨-, insert, hinsert, conflict, hconflict, returned, hreturned, rfl⟩ := hp
  obtain ⟨-, insert', hinsert', conflict', hconflict', returned', hreturned', rfl⟩ := hq
  have hinserts := corresponds_rowInsertion htable hrows hraw hraw' hinsert hinsert'
  have hconflicts := corresponds_conflictPieces hrows h hconflict hconflict'
  exact (hinserts.append hconflicts).append
    (correspond_returning h.returning hreturned hreturned')

theorem corresponds_assignment {n m : String} {v w : Value} {ps qs : List Piece}
    (h : SameName d n m) (hv : v.rawTexts = []) (hw : w.rawTexts = [])
    (hp : assignment n v = .ok ps) (hq : assignment m w = .ok qs) : Correspond d ps qs := by
  simp only [assignment, bind_eq_ok_iff, pure_eq_ok_iff] at hp hq
  obtain ⟨name, hname, rfl⟩ := hp
  obtain ⟨name', hname', rfl⟩ := hq
  exact .cons (.text (.quoteIdentifier h hname hname'))
    (Correspond.keyword (by decide) (.cons (corresponds_ofValue hv hw) .nil))

theorem corresponds_updatePieces {q r : Query} {values others : Record} {ns ms : List String}
    {ps qs : List Piece} (h : q.SameShape d .whole r)
    (hcolumns : List.Forall₂ (SameName d) values.columns others.columns)
    (hreturning : List.Forall₂ (SameName d) ns ms) (hraw : values.rawTexts = [])
    (hraw' : others.rawTexts = []) (hq : q.rawTexts = []) (hr : r.rawTexts = [])
    (hp : q.updatePieces values ns = .ok ps) (hs : r.updatePieces others ms = .ok qs) :
    Correspond d ps qs := by
  obtain ⟨⟨⟨-, hconditions⟩, -⟩, -⟩ := rawTexts_eq_nil_iff.1 hq
  obtain ⟨⟨⟨-, hconditions'⟩, -⟩, -⟩ := rawTexts_eq_nil_iff.1 hr
  simp only [updatePieces, ite_error_eq_ok_iff, bind_eq_ok_iff, pure_eq_ok_iff] at hp hs
  obtain ⟨-, -, table, htable, sets, hsets, clause, hclause, returned, hreturned, rfl⟩ := hp
  obtain ⟨-, -, table', htable', sets', hsets', clause', hclause', returned', hreturned', rfl⟩ := hs
  have hentries : List.Forall₂ (fun e f => SameName d e.1 f.1 ∧ e.2.rawTexts = [] ∧
      f.2.rawTexts = []) values.entries others.entries := by
    have hnames : List.Forall₂ (fun e f => SameName d e.1 f.1) values.entries others.entries := by
      simpa only [Record.columns, OrderedMap.keys, List.forall₂_map_left_iff,
        List.forall₂_map_right_iff] using hcolumns
    rw [Record.rawTexts, Record.values, List.flatMap_map, List.flatMap_eq_nil_iff] at hraw hraw'
    rw [List.forall₂_iff_zip] at hnames ⊢
    refine ⟨hnames.1, fun hmem => ⟨hnames.2 hmem, ?_, ?_⟩⟩
    · exact hraw _ (List.of_mem_zip hmem).1
    · exact hraw' _ (List.of_mem_zip hmem).2
  have hassignments := forall₂_of_mapM_eq_ok hentries hsets hsets' (S := Correspond d)
    fun e f _ _ hentry => corresponds_assignment hentry.1 hentry.2.1 hentry.2.2
  have htables := corresponds_ofIdentifier h.table htable htable'
  have hwhere := Condition.corresponds_whereClause h.conditions hconditions hconditions' hclause
    hclause'
  have hlist := Correspond.separated (k := ", ") (by decide) hassignments
  have htail := (hlist.append hwhere).append (correspond_returning hreturning hreturned hreturned')
  exact .keyword (by decide) (.cons htables (Correspond.keyword (by decide) htail))

theorem corresponds_deletePieces {q r : Query} {ns ms : List String} {ps qs : List Piece}
    (h : q.SameShape d .items r) (hreturning : List.Forall₂ (SameName d) ns ms)
    (hq : q.rawTexts = []) (hr : r.rawTexts = []) (hp : q.deletePieces ns = .ok ps)
    (hs : r.deletePieces ms = .ok qs) : Correspond d ps qs := by
  obtain ⟨⟨⟨-, hconditions⟩, -⟩, -⟩ := rawTexts_eq_nil_iff.1 hq
  obtain ⟨⟨⟨-, hconditions'⟩, -⟩, -⟩ := rawTexts_eq_nil_iff.1 hr
  simp only [deletePieces, ite_error_eq_ok_iff, bind_eq_ok_iff, pure_eq_ok_iff] at hp hs
  obtain ⟨-, table, htable, clause, hclause, returned, hreturned, rfl⟩ := hp
  obtain ⟨-, table', htable', clause', hclause', returned', hreturned', rfl⟩ := hs
  have htables := corresponds_ofIdentifier h.table htable htable'
  have hwhere := Condition.corresponds_whereClause h.conditions hconditions hconditions' hclause
    hclause'
  have htail := hwhere.append (correspond_returning hreturning hreturned hreturned')
  exact .keyword (by decide) (.cons htables htail)

/-- The pieces of a statement of two queries of the same shape correspond. -/
theorem corresponds_pieces {q r : Query} {command other : Command} {ps qs : List Piece}
    (h : q.SameShape d command.listMode r) (hcommand : command.SameShape d other)
    (hraw : q.rawTexts ++ command.rawTexts = []) (hraw' : r.rawTexts ++ other.rawTexts = [])
    (hp : q.pieces command = .ok ps) (hs : r.pieces other = .ok qs) : Correspond d ps qs := by
  obtain ⟨hq, hargument⟩ := List.append_eq_nil_iff.1 hraw
  obtain ⟨hr, hargument'⟩ := List.append_eq_nil_iff.1 hraw'
  cases hcommand with
  | select => exact corresponds_selectPieces h h.columns h.limit hq hr hp hs
  | first => exact corresponds_selectPieces h h.columns rfl hq hr hp hs
  | count =>
    obtain ⟨source, hsource, hp⟩ := bind_eq_ok_iff.1 hp
    obtain ⟨source', hsource', hs⟩ := bind_eq_ok_iff.1 hs
    obtain rfl := pure_eq_ok_iff.1 hp
    obtain rfl := pure_eq_ok_iff.1 hs
    exact .keyword (by decide) (corresponds_source h hq hr hsource hsource')
  | pluck hname =>
    exact corresponds_selectPieces h (.cons (.column hname) .nil) h.limit hq hr hp hs
  | insert hrows hreturning =>
    exact corresponds_insertPieces h.table hrows hreturning hargument hargument' hp hs
  | upsert hrows hoptions =>
    exact corresponds_upsertPieces h.table hrows hoptions hargument hargument' hp hs
  | update hvalues hreturning =>
    exact corresponds_updatePieces h hvalues hreturning hargument hargument' hq hr hp hs
  | delete hreturning => exact corresponds_deletePieces h hreturning hq hr hp hs

end Query

end PgToolkit
