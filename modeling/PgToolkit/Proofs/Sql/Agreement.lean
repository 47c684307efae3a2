import PgToolkit.Proofs.Sql.QuoteToken
import PgToolkit.Proofs.Sql.Statement

/-!
# Agreement of two statements

Two statements are compared that were put together in the same way from different names and values.
When only the values differ, their texts are equal. When the names differ too, they are equal up to
the contents of their quoted tokens.
-/

namespace PgToolkit

open Sql

/-- What may differ between two statements of one shape. -/
inductive Difference where
  | values
  /-- Names and values. -/
  | names
  deriving DecidableEq, Repr

/-- Names that correspond. Where names may differ, they have equally many segments, and no segment
is one of the texts that are not quoted. -/
def SameName : Difference → String → String → Prop
  | .values, n, m => n = m
  | .names, n, m => (segments n).length = (segments m).length ∧
      ∀ segment ∈ segments n ++ segments m, isVerbatim segment = false

/-- Fields of documents that correspond. Where names may differ, their paths are equally long. -/
def SameField : Difference → String → String → Prop
  | .values, f, g => f = g
  | .names, f, g => (segments f).length = (segments g).length

instance (d : Difference) (n m : String) : Decidable (SameName d n m) :=
  match d with
  | .values => inferInstanceAs (Decidable (n = m))
  | .names => inferInstanceAs (Decidable (_ ∧ _))

instance (d : Difference) (f g : String) : Decidable (SameField d f g) :=
  match d with
  | .values => inferInstanceAs (Decidable (f = g))
  | .names => inferInstanceAs (Decidable (_ = _))

def Agree : Difference → List Char → List Char → Prop
  | .values, s, t => s = t
  | .names, s, t => outline s = outline t

theorem Agree.refl (d : Difference) (s : List Char) : Agree d s s := by
  cases d <;> rfl

/-- Tidy texts that correspond. -/
structure Matched (d : Difference) (s t : List Char) : Prop where
  left : Tidy s
  right : Tidy t
  agree : Agree d s t

variable {d : Difference}

/-! ### Segments -/

namespace Sql

/-- The parts that a list is split into consist of its elements, without the one it is split at. -/
theorem subset_of_mem_splitOn {dot : Char} {text part : List Char} (h : part ∈ text.splitOn dot) :
    dot ∉ part ∧ part ⊆ text := by
  induction text generalizing part with
  | nil =>
    obtain rfl : part = [] := by simpa using h
    simp
  | cons c rest ih =>
    rw [List.splitOn_cons_eq_if_modifyHead] at h
    split at h
    · rcases List.mem_cons.1 h with rfl | h
      · simp
      · exact ⟨(ih h).1, List.Subset.trans (ih h).2 (List.subset_cons_self _ _)⟩
    · next hc =>
      -- the element joins the first of the parts that follow
      cases hrest : rest.splitOn dot with
      | nil => exact absurd hrest (List.splitOn_ne_nil _ _)
      | cons first others =>
        rw [hrest, List.modifyHead_cons] at h
        rcases List.mem_cons.1 h with rfl | h
        · have hdot : c ≠ dot := by simpa using hc
          obtain ⟨hfirst, hsubset⟩ := @ih first (by simp [hrest])
          exact ⟨by simp [hdot.symm, hfirst], List.cons_subset_cons _ hsubset⟩
        · obtain ⟨hpart, hsubset⟩ := @ih part (by simp [hrest, h])
          exact ⟨hpart, List.Subset.trans hsubset (List.subset_cons_self _ _)⟩

theorem dot_not_mem_of_mem_segments {name segment : String} (h : segment ∈ segments name) :
    '.' ∉ segment.toList := by
  obtain ⟨part, hpart, rfl⟩ := List.mem_map.1 h
  rw [String.toList_ofList]
  exact (subset_of_mem_splitOn hpart).1

theorem segments_of_not_mem {name : String} (h : '.' ∉ name.toList) : segments name = [name] := by
  simp [segments, List.splitOn_eq_singleton h]

theorem one_lt_length_segments {name : String} (h : '.' ∈ name.toList) :
    1 < (segments name).length := by
  obtain ⟨before, behind, hsplit, -⟩ := List.eq_append_cons_of_mem h
  have hone := List.length_pos_iff.2 (List.splitOn_ne_nil '.' before)
  have htwo := List.length_pos_iff.2 (List.splitOn_ne_nil '.' behind)
  rw [segments, List.length_map, hsplit, List.splitOn_append_cons_self, List.length_append]
  omega

theorem contains_dot_eq (name : String) :
    name.toList.contains '.' = decide (1 < (segments name).length) := by
  by_cases h : '.' ∈ name.toList
  · simp [h, one_lt_length_segments h]
  · simp [h, segments_of_not_mem h]

/-- The texts that are not quoted have one segment. -/
theorem mem_segments_of_isVerbatim {name : String} (h : isVerbatim name = true) :
    name ∈ segments name := by
  have hdot : '.' ∉ name.toList := by
    simp only [isVerbatim, Bool.or_eq_true, decide_eq_true_eq] at h
    rcases h with rfl | h
    · decide
    · intro hmem
      have hlower : '.'.toLower ∈ "count(*)".toList := by
        rw [← h, String.toList_map]
        exact List.mem_map_of_mem hmem
      revert hlower
      decide
  simp [segments_of_not_mem hdot]

theorem quoteSegments_of_not_mem {parts : List String} (h : "*" ∉ parts) (isFirst : Bool) :
    quoteSegments isFirst parts = parts.map quotedName := by
  fun_induction quoteSegments isFirst parts with
  | case1 => rfl
  | case2 isFirst segment hstar => simp_all
  | case3 isFirst segment hstar => rfl
  | case4 isFirst segment rest hrest ih => simp_all

/-- A name that has no segment like that is written as its quoted segments. -/
theorem eq_of_quoteIdentifier {name sql : String} (h : quoteIdentifier name = .ok sql)
    (hplain : ∀ segment ∈ segments name, isVerbatim segment = false) :
    sql = ".".intercalate ((segments name).map quotedName) := by
  rcases quoteIdentifier_cases h with ⟨hverbatim, -⟩ | ⟨-, rfl⟩
  · have := hplain name (mem_segments_of_isVerbatim hverbatim)
    simp [hverbatim] at this
  · have hstar : "*" ∉ segments name := by
      intro hmem
      exact absurd (hplain "*" hmem) (by decide)
    rw [quoteSegments_of_not_mem hstar]

end Sql

/-! ### Corresponding texts -/

namespace Matched

variable {s s' t t' : List Char}

theorem inert {k : List Char} (hk : Inert k) : Matched d k k :=
  ⟨hk.tidy, hk.tidy, .refl d k⟩

theorem append (hs : Matched d s s') (ht : Matched d t t') (hunquoted : Unquoted t)
    (hunquoted' : Unquoted t') : Matched d (s ++ t) (s' ++ t') where
  left := hs.left.append ht.left hunquoted
  right := hs.right.append ht.right hunquoted'
  agree := by
    cases d with
    | values => exact congrArg₂ (· ++ ·) hs.agree ht.agree
    | names =>
      show outline _ = outline _
      rw [hs.left.outline_append hunquoted, hs.right.outline_append hunquoted']
      exact congrArg₂ (· ++ ·) hs.agree ht.agree

theorem inert_append {k : List Char} (hk : Inert k) (ht : Matched d t t') :
    Matched d (k ++ t) (k ++ t') where
  left := hk.tidy_append ht.left
  right := hk.tidy_append ht.right
  agree := by
    cases d with
    | values => exact congrArg (k ++ ·) ht.agree
    | names =>
      show outline _ = outline _
      rw [outline_inert_append hk, outline_inert_append hk]
      exact congrArg (outline k ++ ·) ht.agree

theorem append_separator {k : List Char} (hs : Matched d s s') (hk : Inert k) (hne : k ≠ [])
    (ht : Matched d t t') : Matched d (s ++ k ++ t) (s' ++ k ++ t') := by
  rw [List.append_assoc, List.append_assoc]
  exact hs.append (inert_append hk ht) (hk.unquoted_append hne t) (hk.unquoted_append hne t')

theorem arrow (ht : Matched d t t') : Matched d ("->".toList ++ t) ("->".toList ++ t') where
  left := .minus (by decide) ht.left
  right := .minus (by decide) ht.right
  agree := by
    cases d with
    | values => exact congrArg ("->".toList ++ ·) ht.agree
    | names =>
      have harrow (u : List Char) : outline ("->".toList ++ u) = "->".toList ++ outline u := by
        simp [outline, quoteTokens_plain, QuoteToken.outline]
      show outline _ = outline _
      rw [harrow, harrow]
      exact congrArg ("->".toList ++ ·) ht.agree

/-- Quoted tokens correspond whatever their contents are, if names may differ. -/
theorem quoted {quote : Char} (hquote : quote = '\'' ∨ quote = '"') {n m : String}
    (h : d = .values → n = m) :
    Matched d (quoted quote n).toList (Sql.quoted quote m).toList where
  left := tidy_quoted hquote n
  right := tidy_quoted hquote m
  agree := by
    cases d with
    | values => rw [h rfl]; exact .refl _ _
    | names =>
      show outline _ = outline _
      rw [outline_quoted hquote, outline_quoted hquote]

theorem literal {n m : String} (h : d = .values → n = m) :
    Matched d (literal n).toList (Sql.literal m).toList :=
  quoted (.inl rfl) h

theorem intercalate {separator : String} (hinert : Inert separator.toList)
    (hne : separator.toList ≠ []) {ss ts : List String}
    (h : List.Forall₂ (fun s t => Matched d s.toList t.toList) ss ts) :
    Matched d (separator.intercalate ss).toList (separator.intercalate ts).toList := by
  rw [String.toList_intercalate, String.toList_intercalate]
  induction h with
  | nil => exact ⟨.nil, .nil, .refl d []⟩
  | @cons s t ss ts hfirst hrest ih =>
    cases hrest with
    | nil => simpa using hfirst
    | cons =>
      simp only [List.map_cons, List.intercalate_cons_cons] at ih ⊢
      exact hfirst.append_separator hinert hne ih

/-- Corresponding names are written as corresponding texts. -/
theorem quoteIdentifier {n m : String} {s t : String} (h : SameName d n m)
    (hn : quoteIdentifier n = .ok s) (hm : Sql.quoteIdentifier m = .ok t) :
    Matched d s.toList t.toList := by
  cases d with
  | values =>
    obtain rfl : n = m := h
    rw [hn] at hm
    obtain rfl := Except.ok.inj hm
    exact ⟨tidy_quoteIdentifier hn, tidy_quoteIdentifier hn, .refl _ _⟩
  | names =>
    obtain ⟨hlength, hplain⟩ := h
    rw [List.forall_mem_append] at hplain
    rw [eq_of_quoteIdentifier hn hplain.1, eq_of_quoteIdentifier hm hplain.2]
    refine intercalate (by decide) (by decide) ?_
    rw [List.forall₂_map_left_iff, List.forall₂_map_right_iff, List.forall₂_iff_zip]
    refine ⟨hlength, fun _ => ?_⟩
    exact quoted (.inr rfl) (by simp)

theorem quoteIdentifiers {ns ms : List String} {s t : String}
    (h : List.Forall₂ (SameName d) ns ms) (hn : quoteIdentifiers ns = .ok s)
    (hm : Sql.quoteIdentifiers ms = .ok t) : Matched d s.toList t.toList := by
  simp only [Sql.quoteIdentifiers, bind_eq_ok_iff, pure_eq_ok_iff] at hn hm
  obtain ⟨ss, hss, rfl⟩ := hn
  obtain ⟨ts, hts, rfl⟩ := hm
  exact intercalate (by decide) (by decide)
    (forall₂_of_mapM_eq_ok h hss hts fun n m _ _ => quoteIdentifier)

end Matched

/-! ### Corresponding pieces -/

/-- Pieces that correspond. Where a value is bound, any other one may be bound. -/
inductive Piece.Corresponds (d : Difference) : Piece → Piece → Prop
  | text {s t : String} (h : Matched d s.toList t.toList) : Piece.Corresponds d (.text s) (.text t)
  | bind (v w : Value) : Piece.Corresponds d (.bind v) (.bind w)

namespace Piece

theorem corresponds_keyword {k : String} (hk : Inert k.toList) :
    Piece.Corresponds d (.text k) (.text k) :=
  .text (.inert hk)

/-- The outline of a text in front of other pieces is that of the text. -/
theorem outline_written_cons {p p' : Piece} {rest : List Piece} (hp : Spaced (p :: rest))
    (hown : Piece.Corresponds d p p' ∨ Piece.Corresponds d p' p) :
    Spaced rest ∧
      outline (written (p :: rest)) = outline p.sql.toList ++ outline (written rest) := by
  have hbind (v : Value) (text : List Char) :
      outline ((bind v).sql.toList ++ text) = outline (bind v).sql.toList ++ outline text := by
    simp [Piece.sql, outline, quoteTokens_plain, quoteTokens]
  rw [written_cons]
  cases hp with
  | keyword hinert hrest => exact ⟨hrest, outline_inert_append hinert _⟩
  | piece hsound hbreaks hrest =>
    refine ⟨hrest, ?_⟩
    cases p with
    | text sql => exact Tidy.outline_append hsound hbreaks.unquoted
    | bind v => exact hbind v _
    | raw sql => rcases hown with h | h <;> cases h
    | fragment sql params => rcases hown with h | h <;> cases h

end Piece

theorem agree_written {ps qs : List Piece} (h : List.Forall₂ (Piece.Corresponds d) ps qs)
    (hp : Spaced ps) (hq : Spaced qs) : Agree d (Piece.written ps) (Piece.written qs) := by
  induction h with
  | nil => exact .refl d _
  | @cons p q ps qs hfirst _ ih =>
    obtain ⟨hps, hleft⟩ := Piece.outline_written_cons hp (.inl hfirst)
    obtain ⟨hqs, hright⟩ := Piece.outline_written_cons hq (.inr hfirst)
    have hagree : Agree d p.sql.toList q.sql.toList := by
      cases hfirst with
      | text h => exact h.agree
      | bind v w => exact .refl d _
    have hrest := ih hps hqs
    -- with different values the texts are equal; with different names their outlines are
    cases d with
    | values =>
      simp only [Piece.written_cons]
      exact congrArg₂ (· ++ ·) hagree hrest
    | names =>
      show outline _ = outline _
      rw [hleft, hright]
      exact congrArg₂ (· ++ ·) hagree hrest

end PgToolkit
