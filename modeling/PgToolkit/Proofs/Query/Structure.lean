import PgToolkit.Proofs.Query.Correspondence

/-!
# Names and values do not change a statement

Two runs are compared: the same statement is compiled for two queries of the same shape. Different
values do not change its text at all, and different names change nothing outside of the quoted
tokens that stand for them.
-/

namespace PgToolkit.Query

open Sql

variable {d : Difference}

/-- Fragments correspond to nothing, so queries of the same shape have none. -/
theorem SameShape.fragments_eq_nil {mode : ListMode} {q r : Query} (h : q.SameShape d mode r) :
    q.fragments = [] ∧ r.fragments = [] := by
  have hconditions {cs es : List Condition} (hc : List.Forall₂ (Condition.SameShape d mode) cs es) :
      cs.flatMap Condition.fragments = [] ∧ es.flatMap Condition.fragments = [] := by
    induction hc with
    | nil => exact ⟨rfl, rfl⟩
    | cons hfirst _ ih =>
      cases hfirst with
      | column => exact ih
  have horders {os es : List OrderItem} (ho : List.Forall₂ (OrderItem.SameShape d) os es) :
      os.flatMap OrderItem.fragments = [] ∧ es.flatMap OrderItem.fragments = [] := by
    induction ho with
    | nil => exact ⟨rfl, rfl⟩
    | cons hfirst _ ih =>
      cases hfirst with
      | column => exact ih
  have hleft := hconditions h.conditions
  have hright := horders h.orders
  exact ⟨List.append_eq_nil_iff.2 ⟨hleft.1, hright.1⟩,
    List.append_eq_nil_iff.2 ⟨hleft.2, hright.2⟩⟩

/-- Statements of two queries of the same shape agree. -/
theorem agree_compile {q r : Query} {command other : Command} {c e : Compiled}
    (h : q.SameShape d command.listMode r) (hcommand : command.SameShape d other)
    (hraw : q.rawTexts ++ command.rawTexts = []) (hraw' : r.rawTexts ++ other.rawTexts = [])
    (hq : q.compile command = .ok c) (hr : r.compile other = .ok e) :
    Agree d c.sql.toList e.sql.toList := by
  rw [compile_eq_ofPieces] at hq hr
  obtain ⟨ps, hps, rfl⟩ := map_eq_ok_iff.1 hq
  obtain ⟨qs, hqs, rfl⟩ := map_eq_ok_iff.1 hr
  obtain ⟨hnone, hnone'⟩ := h.fragments_eq_nil
  have hspaced : Spaced ps := spaced_pieces hps (by simp [hraw]) (by simp [hnone])
  have hspaced' : Spaced qs := spaced_pieces hqs (by simp [hraw']) (by simp [hnone'])
  rw [Piece.toList_sql_ofPieces, Piece.toList_sql_ofPieces]
  exact agree_written (corresponds_pieces h hcommand hraw hraw' hps hqs) hspaced hspaced'

/-- Take two queries of the same shape without SQL of the caller, and the same statement of both.
When only the values differ, the two texts are equal. When the names differ too, they are equal
after the contents of their quoted tokens are erased. -/
theorem compile_sameShape {q r : Query} {command other : Command} {c e : Compiled}
    (hraw : q.rawTexts ++ command.rawTexts = []) (hraw' : r.rawTexts ++ other.rawTexts = [])
    (hq : q.compile command = .ok c) (hr : r.compile other = .ok e) :
    (q.SameShape .values command.listMode r → command.SameShape .values other → c.sql = e.sql) ∧
      (q.SameShape .names command.listMode r → command.SameShape .names other →
        outline c.sql.toList = outline e.sql.toList) := by
  constructor
  · intro h hcommand
    exact String.toList_inj.1 (agree_compile h hcommand hraw hraw' hq hr)
  · intro h hcommand
    exact agree_compile h hcommand hraw hraw' hq hr

/-- A query for a field of a document, with its table, columns, field and value as parameters. -/
def lookup (table column field : String) (value : Value) : Query where
  table := .name table
  columns := [.json { column := column, fields := [field] }]
  conditions := [.column (.name column) .eq (some value) .and]

theorem sameShape_lookup {table table' column column' field field' : String} (value value' : Value)
    (htable : SameName d table table') (hcolumn : SameName d column column')
    (hfield : SameField d field field') :
    (lookup table column field value).SameShape d .items (lookup table' column' field' value') where
  table := .name htable
  columns := .cons (.json ⟨hcolumn, .cons hfield .nil, .none⟩) .nil
  conditions := .cons (.column (.name hcolumn) .eq (.single (by simp [Operator.isList])) .and) .nil
  joins := .nil
  orders := .nil
  limit := rfl
  offset := rfl

theorem compile_sameShape_lookup :
    ∃ c e f, (lookup "public.users" "doc" "a.b" (.int 1)).compile .select = .ok c ∧
      (lookup "public.users" "doc" "a.b" (.text "1 OR 1=1")).compile .select = .ok e ∧
      (lookup "x.\"; DROP TABLE t--" "d\"'" "'.--" .null).compile .select = .ok f ∧
      c.sql = e.sql ∧ outline c.sql.toList = outline f.sql.toList := by
  have hcompiled (table column field : String) (value : Value)
      (h : (Compiled.sql <$> (lookup table column field value).compile .select).isOk = true) :
      ∃ c, (lookup table column field value).compile .select = .ok c := by
    cases hc : (lookup table column field value).compile .select with
    | error fault => simp [hc, Functor.map, Except.map, Except.isOk, Except.toBool] at h
    | ok c => exact ⟨c, rfl⟩
  obtain ⟨c, hc⟩ := hcompiled "public.users" "doc" "a.b" (.int 1) (by decide +kernel)
  obtain ⟨e, he⟩ := hcompiled "public.users" "doc" "a.b" (.text "1 OR 1=1") (by decide +kernel)
  obtain ⟨f, hf⟩ := hcompiled "x.\"; DROP TABLE t--" "d\"'" "'.--" .null (by decide +kernel)
  have hvalues := compile_sameShape rfl rfl hc he
  have hnames := compile_sameShape rfl rfl hc hf
  refine ⟨c, e, f, hc, he, hf, ?_, ?_⟩
  · exact hvalues.1 (sameShape_lookup _ _ rfl rfl rfl) .select
  · exact hnames.2 (sameShape_lookup _ _ (by decide +kernel) (by decide +kernel)
      (by decide +kernel)) .select

end PgToolkit.Query
