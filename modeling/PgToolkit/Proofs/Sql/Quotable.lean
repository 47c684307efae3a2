import PgToolkit.Proofs.Outcome
import PgToolkit.Proofs.Sql.Agreement

/-!
# Names that can be quoted

A name is refused for three reasons: it is empty, it holds a NUL character, or one of its segments
is empty. The names that are written as they are have none of these faults.
-/

namespace PgToolkit

namespace Sql

/-- A name that is not empty, has no NUL character and no empty segment. -/
structure Quotable (name : String) : Prop where
  nonempty : name ≠ ""
  noNul : '\x00' ∉ name.toList
  noEmptySegment : "" ∉ segments name

instance (name : String) : Decidable (Quotable name) :=
  decidable_of_iff (name ≠ "" ∧ '\x00' ∉ name.toList ∧ "" ∉ segments name)
    ⟨fun ⟨hne, hnul, hsegment⟩ => ⟨hne, hnul, hsegment⟩,
      fun h => ⟨h.nonempty, h.noNul, h.noEmptySegment⟩⟩

/-- The names that are written as they are have one segment, which is not empty. -/
theorem empty_not_mem_segments_of_isVerbatim {name : String} (h : isVerbatim name = true)
    (hne : name ≠ "") : "" ∉ segments name := by
  have hdot : '.' ∉ name.toList := dot_not_mem_of_mem_segments (mem_segments_of_isVerbatim h)
  rw [segments_of_not_mem hdot, List.mem_singleton]
  exact hne.symm

theorem quotable_iff {name : String} : (∃ sql, quoteIdentifier name = .ok sql) ↔ Quotable name := by
  simp only [quoteIdentifier_eq_ok_iff]
  constructor
  · rintro ⟨_, hne, hnul, ⟨hverbatim, -⟩ | ⟨-, hsegment, -⟩⟩
    · exact ⟨hne, hnul, empty_not_mem_segments_of_isVerbatim hverbatim hne⟩
    · exact ⟨hne, hnul, hsegment⟩
  · rintro ⟨hne, hnul, hsegment⟩
    cases hverbatim : isVerbatim name with
    | true => exact ⟨_, hne, hnul, .inl ⟨rfl, rfl⟩⟩
    | false => exact ⟨_, hne, hnul, .inr ⟨rfl, hsegment, rfl⟩⟩

theorem quotable_quoteIdentifiers_iff {names : List String} :
    (∃ sql, quoteIdentifiers names = .ok sql) ↔ ∀ name ∈ names, Quotable name := by
  simp only [← quotable_iff, ← exists_mapM_eq_ok_iff, quoteIdentifiers, bind_eq_ok_iff,
    pure_eq_ok_iff]
  constructor
  · rintro ⟨_, texts, htexts, -⟩
    exact ⟨texts, htexts⟩
  · rintro ⟨texts, htexts⟩
    exact ⟨_, texts, htexts, rfl⟩

end Sql

/-- A name that can be quoted, or SQL in the place of a name. -/
def Identifier.Quotable : Identifier → Prop
  | .name text => Sql.Quotable text
  | .raw _ => True

theorem Identifier.quotable_iff {id : Identifier} :
    (∃ sql, id.toSql = .ok sql) ↔ id.Quotable := by
  cases id with
  | name text => exact Sql.quotable_iff
  | raw sql => simp [toSql, Identifier.Quotable]

end PgToolkit
