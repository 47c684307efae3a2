import PgToolkit.Proofs.Outcome
import PgToolkit.Query.Condition

/-!
# Predicates

A condition becomes one predicate of the WHERE clause. There are six forms of it: SQL of the caller
in parentheses, a column with a unary operator, a column beside an operand, and three forms for
lists, of which one has neither a column nor a value.
-/

namespace PgToolkit

open Sql

theorem Value.exists_items_of_isArray {v : Value} (h : v.isArray = true) :
    ∃ items, v = .array items := by
  cases v with
  | array items => exact ⟨items, rfl⟩
  | _ => cases h

theorem Operator.isUnary_of_isList {op : Operator} (h : op.isList = true) :
    op.isUnary = false := by
  cases op <;> first | rfl | cases h

theorem Piece.ofFragment_eq_ok_iff {sql : String} {params : List Value} {p : Piece} :
    ofFragment sql params = .ok p ↔
      countPlaceholders sql = params.length ∧ .fragment sql params = p := by
  simp only [ofFragment]
  split
  · next hcount => simp [hcount]
  · next hcount => simp [hcount]

namespace Condition

/-- The predicate that a condition is written as. -/
inductive Rendered (mode : ListMode) : Condition → List Piece → Prop
  | fragment {sql : String} {params : List Value} {conjunction : Conjunction} {piece : Piece}
    (hpiece : Piece.ofFragment sql params = .ok piece) :
    Rendered mode (.raw sql params conjunction) [.text "(", piece, .text ")"]
  | unary {name : Identifier} {op : Operator} {value : Option Value} {conjunction : Conjunction}
    {column : Piece} (hop : op.isUnary = true) (hname : Piece.ofIdentifier name = .ok column) :
    Rendered mode (.column name op value conjunction) [column, .text " ", .text op.sql]
  /-- Without items the result is known, and the column is not even looked at. -/
  | noItems {name : Identifier} {op : Operator} {conjunction : Conjunction}
    (hop : op.isList = true) (hmode : mode = .items) :
    Rendered mode (.column name op (some (.array [])) conjunction)
      [.text (if op = .isIn then "1=0" else "1=1")]
  | items {name : Identifier} {op : Operator} {items : List Value} {conjunction : Conjunction}
    {column : Piece} (hop : op.isList = true) (hmode : mode = .items) (hitems : items ≠ [])
    (hname : Piece.ofIdentifier name = .ok column) :
    Rendered mode (.column name op (some (.array items)) conjunction)
      (column :: .text " " :: .text op.sql :: .text " (" ::
        (Piece.separated ", " (items.map fun item => [Piece.ofValue item]) ++ [.text ")"]))
  | whole {name : Identifier} {op : Operator} {items : List Value} {conjunction : Conjunction}
    {column : Piece} (hop : op.isList = true) (hmode : mode = .whole)
    (hname : Piece.ofIdentifier name = .ok column) :
    Rendered mode (.column name op (some (.array items)) conjunction)
      [column, .text (if op = .isIn then " = ANY(" else " <> ALL("), .bind (.array items),
        .text ")"]
  | operand {name : Identifier} {op : Operator} {value : Value} {conjunction : Conjunction}
    {column : Piece} (hop : op.isUnary = false)
    (hvalue : op.isList = true → value.isArray = false)
    (hname : Piece.ofIdentifier name = .ok column) :
    Rendered mode (.column name op (some value) conjunction)
      [column, .text " ", .text op.sql, .text " ", Piece.ofValue value]

theorem rendered_of_listPieces {mode : ListMode} {name : Identifier} {op : Operator}
    {items : List Value} {conjunction : Conjunction} {ps : List Piece} (hop : op.isList = true)
    (h : listPieces mode name op items = .ok ps) :
    Rendered mode (.column name op (some (.array items)) conjunction) ps := by
  cases mode with
  | items =>
    simp only [listPieces] at h
    split at h
    · next hempty =>
      obtain rfl := Except.ok.inj h
      rw [List.isEmpty_iff.1 hempty]
      exact .noItems hop rfl
    · next hitems =>
      simp only [bind_eq_ok_iff, pure_eq_ok_iff] at h
      obtain ⟨column, hcolumn, rfl⟩ := h
      exact .items hop rfl (fun hnil => hitems (List.isEmpty_iff.2 hnil)) hcolumn
  | whole =>
    simp only [listPieces, bind_eq_ok_iff, pure_eq_ok_iff] at h
    obtain ⟨column, hcolumn, rfl⟩ := h
    exact .whole hop rfl hcolumn

theorem rendered_of_pieces {mode : ListMode} {c : Condition} {ps : List Piece}
    (h : c.pieces mode = .ok ps) : Rendered mode c ps := by
  cases c with
  | raw sql params conjunction =>
    simp only [pieces, bind_eq_ok_iff, pure_eq_ok_iff] at h
    obtain ⟨piece, hpiece, rfl⟩ := h
    exact .fragment hpiece
  | column name op value conjunction =>
    simp only [pieces] at h
    split at h
    · next hop =>
      simp only [bind_eq_ok_iff, pure_eq_ok_iff] at h
      obtain ⟨column, hcolumn, rfl⟩ := h
      exact .unary hop hcolumn
    next hop =>
    cases value with
    | none => cases h
    | some value =>
      simp only at h
      split at h
      · next items hlist => exact rendered_of_listPieces hlist h
      · next hother =>
        simp only [bind_eq_ok_iff, pure_eq_ok_iff] at h
        obtain ⟨column, hcolumn, rfl⟩ := h
        refine .operand (by simpa using hop) (fun hlist => ?_) hcolumn
        -- an array behind a list operator is written as a list
        refine Bool.eq_false_iff.2 fun harray => ?_
        obtain ⟨items, hitems⟩ := Value.exists_items_of_isArray harray
        exact hother items hlist hitems

theorem Rendered.pieces_eq {mode : ListMode} {c : Condition} {ps : List Piece}
    (h : Rendered mode c ps) : c.pieces mode = .ok ps := by
  cases h with
  | fragment hpiece => simp [pieces, hpiece, bind, Except.bind, pure, Except.pure]
  | unary hop hname => simp [pieces, hop, hname, bind, Except.bind, pure, Except.pure]
  | noItems hop hmode =>
    subst hmode
    simp [pieces, hop, Operator.isUnary_of_isList hop, listPieces]
  | items hop hmode hitems hname =>
    subst hmode
    simp [pieces, hop, Operator.isUnary_of_isList hop, listPieces, hitems, hname, bind,
      Except.bind, pure, Except.pure]
  | whole hop hmode hname =>
    subst hmode
    simp [pieces, hop, Operator.isUnary_of_isList hop, listPieces, hname, bind, Except.bind, pure,
      Except.pure]
  | @operand name op value conjunction column hop hvalue hname =>
    have hother : ∀ items, op.isList = true → value = .array items → False := by
      rintro items hlist rfl
      cases hvalue hlist
    simp only [pieces, hop]
    split
    · simp_all
    · simp [hname, bind, Except.bind, pure, Except.pure]

/-- A condition is written as one of these predicates and as nothing else. -/
theorem pieces_eq_ok_iff {mode : ListMode} {c : Condition} {ps : List Piece} :
    c.pieces mode = .ok ps ↔ Rendered mode c ps :=
  ⟨rendered_of_pieces, Rendered.pieces_eq⟩

/-! ### Clauses -/

/-- A first predicate and others, each of them with its conjunction in front of it. -/
def joined (first : List Piece) (others : List (Conjunction × List Piece)) : List Piece :=
  first ++ others.flatMap fun other => .text other.1.sql :: other.2

theorem attached_eq_ok_iff {mode : ListMode} {rest : List Condition} {ps : List Piece} :
    attached mode rest = .ok ps ↔ ∃ others : List (Conjunction × List Piece),
      List.Forall₂ (fun c other => other.1 = c.conjunction ∧ Rendered mode c other.2) rest others ∧
      ps = others.flatMap fun other => .text other.1.sql :: other.2 := by
  induction rest generalizing ps with
  | nil => simp [attached, eq_comm]
  | cons c rest ih =>
    simp only [attached, bind_eq_ok_iff, pure_eq_ok_iff, ih, List.forall₂_cons_left_iff,
      pieces_eq_ok_iff]
    constructor
    · rintro ⟨predicate, hpredicate, _, ⟨others, hothers, rfl⟩, rfl⟩
      exact ⟨_, ⟨(c.conjunction, predicate), others, ⟨rfl, hpredicate⟩, hothers, rfl⟩, by simp⟩
    · rintro ⟨_, ⟨⟨conjunction, predicate⟩, others, ⟨rfl, hpredicate⟩, hothers, rfl⟩, rfl⟩
      exact ⟨predicate, hpredicate, _, ⟨others, hothers, rfl⟩, by simp⟩

/-- The clause of conditions has one predicate for each of them, in order, and in front of each but
the first one its conjunction. -/
theorem whereClause_eq_ok_iff {mode : ListMode} {c : Condition} {rest : List Condition}
    {ps : List Piece} : whereClause mode (c :: rest) = .ok ps ↔
      ∃ (first : List Piece) (others : List (Conjunction × List Piece)), Rendered mode c first ∧
        List.Forall₂ (fun c other => other.1 = c.conjunction ∧ Rendered mode c other.2) rest
          others ∧
        ps = .text " WHERE " :: joined first others := by
  simp only [whereClause, bind_eq_ok_iff, pure_eq_ok_iff, attached_eq_ok_iff, pieces_eq_ok_iff,
    joined]
  constructor
  · rintro ⟨first, hfirst, _, ⟨others, hothers, rfl⟩, rfl⟩
    exact ⟨first, others, hfirst, hothers, rfl⟩
  · rintro ⟨first, others, hfirst, hothers, rfl⟩
    exact ⟨first, hfirst, _, ⟨others, hothers, rfl⟩, rfl⟩

end Condition

end PgToolkit
