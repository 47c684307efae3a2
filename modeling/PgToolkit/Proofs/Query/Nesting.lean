import Mathlib.Data.List.Infix
import PgToolkit.Proofs.Sql.Tidy
import PgToolkit.Query.Condition

/-!
# Conjunctions outside of parentheses

A WHERE clause is grouped by the conjunctions that stand outside of quotes, comments and
parentheses. At these it is cut into predicates. A text that opens and closes its parentheses in
turn and has no conjunction outside of them is passed by without a cut.
-/

namespace PgToolkit

namespace Sql

/-! ### Parentheses -/

/-- The parentheses that a lexeme opens, less those that it closes. Those in a region do not
count. -/
def Lexeme.nesting : Lexeme → Int
  | .plain '(' => 1
  | .plain ')' => -1
  | _ => 0

/-- The parentheses that lexemes open, less those that they close. -/
def nesting : List Lexeme → Int
  | [] => 0
  | l :: ls => l.nesting + nesting ls

/-- Lexemes whose parentheses belong together: no part at the start closes more than it opens, and
in the end all are closed. -/
structure Balanced (ls : List Lexeme) : Prop where
  nonneg : ∀ front, front <+: ls → 0 ≤ nesting front
  closed : nesting ls = 0

theorem balanced_iff {ls : List Lexeme} :
    (∀ front ∈ ls.inits, 0 ≤ nesting front) ∧ nesting ls = 0 ↔ Balanced ls := by
  simp only [List.mem_inits]
  constructor
  · rintro ⟨hnonneg, hclosed⟩
    exact ⟨hnonneg, hclosed⟩
  · intro h
    exact ⟨h.nonneg, h.closed⟩

instance (ls : List Lexeme) : Decidable (Balanced ls) :=
  decidable_of_iff _ balanced_iff

theorem nesting_eq_zero {ls : List Lexeme} (h : ∀ l ∈ ls, l.nesting = 0) : nesting ls = 0 := by
  induction ls with
  | nil => rfl
  | cons l ls ih =>
    obtain ⟨hl, hls⟩ := List.forall_mem_cons.1 h
    rw [nesting, hl, ih hls, Int.add_zero]

/-- Lexemes without parentheses are balanced. -/
theorem balanced_of_forall {ls : List Lexeme} (h : ∀ l ∈ ls, l.nesting = 0) : Balanced ls where
  nonneg _ hfront :=
    Int.le_of_eq (nesting_eq_zero fun l hl => h l (hfront.subset hl)).symm
  closed := nesting_eq_zero h

/-- The number of open parentheses behind a lexeme. What was not opened cannot be closed. -/
def Lexeme.openBehind (depth : Nat) : Lexeme → Nat
  | .plain '(' => depth + 1
  | .plain ')' => depth - 1
  | _ => depth

theorem Lexeme.openBehind_of_nesting {l : Lexeme} (h : l.nesting = 0) (depth : Nat) :
    l.openBehind depth = depth := by
  unfold Lexeme.openBehind
  split
  · cases h
  · cases h
  · rfl

theorem Lexeme.openBehind_plain (depth : Nat) (c : Char) :
    Lexeme.openBehind depth (.plain c) =
      if c = '(' then depth + 1 else if c = ')' then depth - 1 else depth := by
  by_cases hopening : c = '('
  · rw [if_pos hopening, hopening]
    rfl
  by_cases hclosing : c = ')'
  · rw [if_neg hopening, if_pos hclosing, hclosing]
    rfl
  · simp [openBehind, hopening, hclosing]

/-- The number of open parentheses behind lexemes. -/
def openBehind (depth : Nat) (ls : List Lexeme) : Nat := ls.foldl Lexeme.openBehind depth

theorem openBehind_append (depth : Nat) (ls ms : List Lexeme) :
    openBehind depth (ls ++ ms) = openBehind (openBehind depth ls) ms :=
  List.foldl_append

theorem openBehind_of_forall {ls : List Lexeme} (h : ∀ l ∈ ls, l.nesting = 0) (depth : Nat) :
    openBehind depth ls = depth := by
  induction ls with
  | nil => rfl
  | cons l ls ih =>
    obtain ⟨hl, hls⟩ := List.forall_mem_cons.1 h
    show openBehind (l.openBehind depth) ls = depth
    rw [Lexeme.openBehind_of_nesting hl, ih hls]

/-- Inside of a parenthesis both counts agree. -/
theorem Lexeme.openBehind_eq {depth : Nat} (h : 0 < depth) (l : Lexeme) :
    (l.openBehind depth : Int) = depth + l.nesting := by
  unfold Lexeme.openBehind
  split
  · simp [Lexeme.nesting]
  · simp only [Lexeme.nesting]
    omega
  · next hopening hclosing =>
    have hnesting : l.nesting = 0 := by
      unfold Lexeme.nesting
      split
      · exact absurd rfl hopening
      · exact absurd rfl hclosing
      · rfl
    rw [hnesting, Int.add_zero]

end Sql

open Sql

/-! ### Cuts -/

/-- The lexemes of a conjunction, with the blanks around it. -/
def Conjunction.lexemes (k : Conjunction) : List Lexeme := k.sql.toList.map .plain

/-- The conjunction that lexemes start with. -/
def leadingConjunction? (ls : List Lexeme) : Option Conjunction :=
  [Conjunction.and, .or].find? fun k => k.lexemes.isPrefixOf ls

/-- Cuts lexemes at each conjunction outside of all parentheses, of which `depth` are open. -/
def cutFrom (depth : Nat) : List Lexeme → List Lexeme × List (Conjunction × List Lexeme)
  | [] => ([], [])
  | l :: rest =>
    match if depth = 0 then leadingConjunction? (l :: rest) else none with
    | some k =>
      let behind := cutFrom 0 ((l :: rest).drop k.lexemes.length)
      ([], (k, behind.1) :: behind.2)
    | none =>
      let behind := cutFrom (l.openBehind depth) rest
      (l :: behind.1, behind.2)
termination_by ls => ls.length
decreasing_by
  · have hlength : 0 < k.lexemes.length := by cases k <;> decide
    rw [List.length_drop, List.length_cons]
    omega
  · simp

/-- The first predicate of a text, and the others with the conjunctions in front of them. -/
def cutPredicates (text : List Char) : List Char × List (Conjunction × List Char) :=
  let parts := cutFrom 0 (lexemes text)
  (parts.1.flatMap Lexeme.source, parts.2.map fun (k, ls) => (k, ls.flatMap Lexeme.source))

theorem leadingConjunction?_append (k : Conjunction) (t : List Lexeme) :
    leadingConjunction? (k.lexemes ++ t) = some k := by
  cases k <;> rfl

theorem cutFrom_conjunction (k : Conjunction) (t : List Lexeme) :
    cutFrom 0 (k.lexemes ++ t) = ([], (k, (cutFrom 0 t).1) :: (cutFrom 0 t).2) := by
  have hlead := leadingConjunction?_append k t
  have hbehind : (k.lexemes ++ t).drop k.lexemes.length = t := List.drop_left
  obtain ⟨l, rest, hfront⟩ : ∃ l rest, k.lexemes ++ t = l :: rest := by
    cases k <;> exact ⟨_, _, rfl⟩
  rw [hfront] at hlead hbehind ⊢
  rw [cutFrom, if_pos rfl, hlead]
  simp only [hbehind]

/-- A conjunction starts with a blank. -/
theorem leadingConjunction?_of_ne {l : Lexeme} (h : l ≠ .plain ' ') (ls : List Lexeme) :
    leadingConjunction? (l :: ls) = none := by
  have hnot (k : Conjunction) : k.lexemes.isPrefixOf (l :: ls) = false := by
    cases k <;> simp [Conjunction.lexemes, Conjunction.sql, List.isPrefixOf, h.symm]
  exact List.find?_eq_none.2 fun k _ => by simp [hnot k]

/-! ### Lexemes that are not cut -/

/-- Lexemes that are not cut when `depth` parentheses are open in front of them, whatever stands
behind them. -/
def Passes (depth : Nat) (ls : List Lexeme) : Prop :=
  ∀ t, cutFrom depth (ls ++ t) =
    (ls ++ (cutFrom (openBehind depth ls) t).1, (cutFrom (openBehind depth ls) t).2)

theorem passes_nil (depth : Nat) : Passes depth [] := fun _ => rfl

theorem Passes.append {depth : Nat} {ls ms : List Lexeme} (hls : Passes depth ls)
    (hms : Passes (openBehind depth ls) ms) : Passes depth (ls ++ ms) := by
  intro t
  rw [List.append_assoc, hls, hms, openBehind_append, List.append_assoc]

/-- A lexeme is passed by inside of parentheses, and where it starts no conjunction. -/
theorem passes_cons {depth : Nat} {l : Lexeme} {ls : List Lexeme}
    (hl : depth = 0 → ∀ t, leadingConjunction? (l :: (ls ++ t)) = none)
    (hls : Passes (l.openBehind depth) ls) : Passes depth (l :: ls) := by
  intro t
  have hnone : (if depth = 0 then leadingConjunction? (l :: (ls ++ t)) else none) = none := by
    split
    · next hdepth => exact hl hdepth t
    · rfl
  rw [List.cons_append, cutFrom, hnone, hls]
  rfl

theorem passes_of_no_blank {ls : List Lexeme} (h : ∀ l ∈ ls, l ≠ .plain ' ') (depth : Nat) :
    Passes depth ls := by
  induction ls generalizing depth with
  | nil => exact passes_nil depth
  | cons l ls ih =>
    obtain ⟨hl, hls⟩ := List.forall_mem_cons.1 h
    exact passes_cons (fun _ _ => leadingConjunction?_of_ne hl _) (ih hls _)

/-- Nothing is cut inside of parentheses, and balanced lexemes leave as many open as there were. -/
theorem passes_of_balanced {ls : List Lexeme} (h : Balanced ls) {depth : Nat} (hdepth : 0 < depth) :
    Passes depth ls ∧ openBehind depth ls = depth := by
  suffices hopen : ∀ depth : Nat, (∀ front, front <+: ls → 0 < depth + nesting front) →
      Passes depth ls ∧ (openBehind depth ls : Int) = depth + nesting ls by
    obtain ⟨hpasses, heq⟩ := hopen depth fun front hfront => by
      have := h.nonneg front hfront
      omega
    rw [h.closed] at heq
    exact ⟨hpasses, by omega⟩
  clear h hdepth depth
  induction ls with
  | nil => exact fun depth _ => ⟨passes_nil depth, (Int.add_zero _).symm⟩
  | cons l ls ih =>
    intro depth hfront
    have hdepth : 0 < depth := by
      have hnone := hfront [] List.nil_prefix
      rw [nesting] at hnone
      omega
    have hl := l.openBehind_eq hdepth
    obtain ⟨hpasses, heq⟩ := ih (l.openBehind depth) fun front hprefix => by
      have := hfront (l :: front) ((List.prefix_cons_inj l).2 hprefix)
      rw [nesting] at this
      omega
    refine ⟨passes_cons (fun hzero => absurd hzero hdepth.ne') hpasses, ?_⟩
    change (openBehind (l.openBehind depth) ls : Int) = _
    rw [heq, hl, nesting]
    omega

/-- Whether no part at the end of lexemes is the start of a conjunction or starts with one, so that
none comes about when more lexemes follow. -/
def isSteady : List Lexeme → Bool
  | [] => true
  | l :: rest =>
    ([Conjunction.and, .or].all fun k =>
      !k.lexemes.isPrefixOf (l :: rest) && !(l :: rest).isPrefixOf k.lexemes) && isSteady rest

theorem passes_of_isSteady {ls : List Lexeme} (h : isSteady ls = true) (depth : Nat) :
    Passes depth ls := by
  induction ls generalizing depth with
  | nil => exact passes_nil depth
  | cons l ls ih =>
    simp only [isSteady, Bool.and_eq_true] at h
    refine passes_cons (fun _ t => List.find?_eq_none.2 fun k hk hleads => ?_) (ih h.2 _)
    have hnot := List.all_eq_true.1 h.1 k hk
    simp only [Bool.and_eq_true, Bool.not_eq_true', ← Bool.not_eq_true, List.isPrefixOf_iff_prefix]
      at hnot
    -- of two texts at the start of a third one, one is at the start of the other
    rcases List.prefix_or_prefix_of_prefix (List.isPrefixOf_iff_prefix.1 hleads)
      (List.prefix_append (l :: ls) t) with hfirst | hfirst
    · exact hnot.1 hfirst
    · exact hnot.2 hfirst

/-- Lexemes of a predicate: they are not cut, and close all parentheses that they open. -/
structure Undivided (ls : List Lexeme) : Prop where
  passes : Passes 0 ls
  closes : openBehind 0 ls = 0

/-- Lexemes without blanks that close all parentheses that they open, as those of a name. -/
structure Compact (ls : List Lexeme) : Prop where
  noBlank : ∀ l ∈ ls, l ≠ .plain ' '
  closes : openBehind 0 ls = 0

theorem Compact.undivided {ls : List Lexeme} (h : Compact ls) : Undivided ls :=
  ⟨passes_of_no_blank h.noBlank 0, h.closes⟩

theorem Undivided.append {ls ms : List Lexeme} (hls : Undivided ls) (hms : Undivided ms) :
    Undivided (ls ++ ms) where
  passes := hls.passes.append (by rw [hls.closes]; exact hms.passes)
  closes := by rw [openBehind_append, hls.closes, hms.closes]

/-- In parentheses stands anything that closes what it opens. -/
theorem Undivided.parenthesized {front ls : List Lexeme} (hfront : Passes 0 front)
    (hopen : openBehind 0 front = 1) (hls : Balanced ls) :
    Undivided (front ++ (ls ++ [.plain ')'])) := by
  obtain ⟨hpasses, hinside⟩ := passes_of_balanced hls Nat.one_pos
  have hend : Passes 1 [.plain ')'] := passes_of_no_blank (by simp) 1
  refine ⟨hfront.append ?_, ?_⟩
  · rw [hopen]
    exact hpasses.append (by rwa [hinside])
  · rw [openBehind_append, hopen, openBehind_append, hinside]
    rfl

/-- Predicates that are joined by conjunctions are found again by cutting. -/
theorem cutFrom_undivided {first : List Lexeme} {others : List (Conjunction × List Lexeme)}
    (hfirst : Undivided first) (hothers : ∀ other ∈ others, Undivided other.2) :
    cutFrom 0 (first ++ others.flatMap fun other => other.1.lexemes ++ other.2) =
      (first, others) := by
  induction others generalizing first with
  | nil =>
    have hcut := hfirst.passes []
    rw [hfirst.closes, cutFrom] at hcut
    simpa using hcut
  | cons other others ih =>
    obtain ⟨hother, hothers⟩ := List.forall_mem_cons.1 hothers
    rw [List.flatMap_cons, List.append_assoc, hfirst.passes, hfirst.closes,
      cutFrom_conjunction, ih hother hothers, List.append_nil]

end PgToolkit
