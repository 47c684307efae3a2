import PgToolkit.Proofs.Sql.Tidy
import PgToolkit.Sql.Statement

/-!
# Reading statements

The pieces of a statement are only written one behind the other, yet reading the whole finds the
lexemes of each piece. This holds when every piece ends outside of all regions and what stands
behind a piece starts with a breaking character. Keywords and separators need no such character.
-/

namespace PgToolkit

open Sql

/-! ### Numbering lexemes -/

namespace Sql

/-- The numbers of a second part go on where those of the first part end. -/
theorem renderFrom_append (used : Nat) (s t : List Lexeme) :
    renderFrom used (s ++ t) =
      renderFrom used s ++ renderFrom (used + s.count .placeholder) t := by
  induction s generalizing used with
  | nil => rfl
  | cons l s ih =>
    cases l with
    | plain c => simp [renderFrom, ih]
    | region text => simp [renderFrom, ih]
    | placeholder => simp [renderFrom, ih, Nat.add_assoc, Nat.add_comm 1]
    | escapedMark => simp [renderFrom, ih]

/-- The text of a lexeme in a statement that is sent: an escaped mark is a mark. -/
def Lexeme.shown : Lexeme → List Char
  | .escapedMark => ['?']
  | l => l.source

/-- A text as it is sent if none of its marks stands for a value. -/
def unescaped (text : List Char) : List Char :=
  (lexemes text).flatMap Lexeme.shown

theorem renderFrom_of_not_mem {s : List Lexeme} (hs : Lexeme.placeholder ∉ s) (used : Nat) :
    renderFrom used s = s.flatMap Lexeme.shown := by
  induction s with
  | nil => rfl
  | cons l s ih =>
    obtain ⟨hl, hrest⟩ := not_or.1 (mt List.mem_cons.2 hs)
    cases l with
    | plain c => simp [renderFrom, Lexeme.shown, Lexeme.source, ih hrest]
    | region text => simp [renderFrom, Lexeme.shown, Lexeme.source, ih hrest]
    | placeholder => exact absurd rfl hl
    | escapedMark => simp [renderFrom, Lexeme.shown, ih hrest]

/-- A text without marks is sent as it is. -/
theorem MarkFree.renderFrom_lexemes {text : List Char} (h : MarkFree text) (used : Nat) :
    renderFrom used (lexemes text) = text := by
  rw [renderFrom_of_not_mem h.1]
  calc (lexemes text).flatMap Lexeme.shown
      = (lexemes text).flatMap Lexeme.source := by
        refine List.flatMap_congr fun l hl => ?_
        cases l with
        | escapedMark => exact absurd hl h.2
        | _ => rfl
    _ = text := flatMap_source_lexemes text

/-- The text of a lexeme when it would be the placeholder of a given number. -/
def Lexeme.shownAs (number : Nat) : Lexeme → List Char
  | .placeholder => '$' :: (toString number).toList
  | l => l.shown

/-- Lexemes as they are sent: the number of a placeholder is one more than the numbers used before
and the placeholders in front of it. -/
def numberedMarks (used : Nat) (ls : List Lexeme) : List Char :=
  (ls.mapIdx fun i l => l.shownAs (used + (ls.take i).count .placeholder + 1)).flatten

theorem renderFrom_eq_numberedMarks (used : Nat) (ls : List Lexeme) :
    renderFrom used ls = numberedMarks used ls := by
  induction ls generalizing used with
  | nil => rfl
  | cons l ls ih =>
    have hrest : numberedMarks (used + [l].count .placeholder) ls =
        (ls.mapIdx fun i k =>
          k.shownAs (used + ((l :: ls).take (i + 1)).count .placeholder + 1)).flatten := by
      simp only [numberedMarks, List.take_succ_cons, List.count_cons, List.count_nil, Nat.zero_add,
        Nat.add_comm, Nat.add_left_comm]
    rw [numberedMarks, List.mapIdx_cons, List.flatten_cons, ← hrest, ← ih]
    cases l with
    | _ => simp [renderFrom, Lexeme.shownAs, Lexeme.shown, Lexeme.source]

/-- SQL that may stand in the place of a name or a value: its regions all end, and no mark in it
stands for a value. -/
structure SelfContained (sql : String) : Prop where
  closed : Closed sql.toList
  noPlaceholder : countPlaceholders sql = 0

end Sql

/-! ### Pieces -/

namespace Piece

/-- The text of pieces, one behind the other. -/
def written (pieces : List Piece) : List Char :=
  pieces.flatMap fun p => p.sql.toList

@[simp] theorem written_nil : written [] = [] := rfl

@[simp] theorem written_cons (p : Piece) (rest : List Piece) :
    written (p :: rest) = p.sql.toList ++ written rest := by
  simp [written]

@[simp] theorem written_append (ps qs : List Piece) :
    written (ps ++ qs) = written ps ++ written qs := by
  simp [written]

theorem toList_sql_ofPieces (pieces : List Piece) :
    (Compiled.ofPieces pieces).sql.toList = written pieces := by
  simp [Compiled.ofPieces, written, List.flatMap_map]

theorem mem_separated {separator : String} {groups : List (List Piece)} {p : Piece}
    (hp : p ∈ separated separator groups) :
    p = .text separator ∨ ∃ group ∈ groups, p ∈ group := by
  fun_induction separated separator groups with
  | case1 => simp at hp
  | case2 group => exact .inr ⟨group, by simp, hp⟩
  | case3 group rest hrest ih =>
    rw [List.mem_append, List.mem_cons] at hp
    rcases hp with hp | rfl | hp
    · exact .inr ⟨group, by simp, hp⟩
    · exact .inl rfl
    · rcases ih hp with heq | ⟨group, hgroup, hp⟩
      · exact .inl heq
      · exact .inr ⟨group, List.mem_cons_of_mem _ hgroup, hp⟩

theorem mem_separated_of_mem {separator : String} {groups : List (List Piece)} {group : List Piece}
    (hgroup : group ∈ groups) {p : Piece} (hp : p ∈ group) : p ∈ separated separator groups := by
  fun_induction separated separator groups with
  | case1 => simp at hgroup
  | case2 first => rwa [← List.mem_singleton.1 hgroup]
  | case3 first rest hrest ih =>
    rw [List.mem_append, List.mem_cons]
    rcases List.mem_cons.1 hgroup with rfl | hgroup
    · exact .inl hp
    · exact .inr (.inr (ih hgroup))

/-- A piece that can be read by itself and has one placeholder for each of its values. -/
def IsSound : Piece → Prop
  | .text sql => Tidy sql.toList
  | .raw sql => SelfContained sql
  | .fragment sql params => Closed sql.toList ∧ countPlaceholders sql = params.length
  | .bind _ => True

/-- A piece with its values as numbers, `used` numbers being taken already: text is shown as it is,
in SQL of the caller an escaped mark is shown as a mark, and a placeholder as its number. -/
def shown (used : Nat) : Piece → List Char
  | .text sql => sql.toList
  | .raw sql => unescaped sql.toList
  | .fragment sql _ => numberedMarks used (lexemes sql.toList)
  | .bind _ => '$' :: (toString (used + 1)).toList

/-- Pieces with their values as numbers, counted through from left to right. -/
def numbered (used : Nat) : List Piece → List Char
  | [] => []
  | p :: rest => p.shown used ++ numbered (used + p.params.length) rest

theorem lexemes_sql_bind (value : Value) :
    lexemes (bind value).sql.toList = [.placeholder] := by
  simp [Piece.sql, lexemes, Lexeme.next]

namespace IsSound

variable {p : Piece}

theorem closed (hp : p.IsSound) : Closed p.sql.toList := by
  cases p with
  | text sql => exact Tidy.closed hp
  | raw sql => exact SelfContained.closed hp
  | fragment sql params => exact hp.1
  | bind value =>
    intro region hregion
    simp [lexemes_sql_bind] at hregion

theorem count_lexemes (hp : p.IsSound) :
    (lexemes p.sql.toList).count .placeholder = p.params.length := by
  cases p with
  | text sql => exact List.count_eq_zero.2 (Tidy.markFree hp).1
  | raw sql => exact SelfContained.noPlaceholder hp
  | fragment sql params => exact hp.2
  | bind value =>
    rw [lexemes_sql_bind]
    rfl

theorem renderFrom_lexemes (hp : p.IsSound) (used : Nat) :
    renderFrom used (lexemes p.sql.toList) = p.shown used := by
  cases p with
  | text sql => exact (Tidy.markFree hp).renderFrom_lexemes used
  | raw sql =>
    exact renderFrom_of_not_mem (List.count_eq_zero.1 (SelfContained.noPlaceholder hp)) used
  | fragment sql params => exact renderFrom_eq_numberedMarks used _
  | bind value =>
    rw [lexemes_sql_bind]
    simp [renderFrom, shown]

end IsSound

end Piece

/-! ### Spaced pieces -/

open Piece

/-- Sound pieces that can be told apart in what they make up: behind each of them stands a breaking
text, unless the piece is a keyword or a separator. -/
inductive Spaced : List Piece → Prop
  | nil : Spaced []
  | keyword {sql : String} {rest : List Piece} (hinert : Inert sql.toList) (hrest : Spaced rest) :
    Spaced (.text sql :: rest)
  | piece {p : Piece} {rest : List Piece} (hp : p.IsSound) (hbreaks : Breaks (written rest))
    (hrest : Spaced rest) : Spaced (p :: rest)

/-- Spaced pieces that may stand behind any others. -/
structure Trailing (pieces : List Piece) : Prop where
  spaced : Spaced pieces
  breaks : Breaks (written pieces)

theorem Trailing.nil : Trailing [] :=
  ⟨.nil, breaks_nil⟩

/-- A keyword that starts with a breaking character may stand behind anything and in front of
anything. -/
theorem Trailing.keyword {sql : String} {rest : List Piece} (hinert : Inert sql.toList)
    (hbreaks : sql.toList.head?.any isBreak = true) (hrest : Spaced rest) :
    Trailing (.text sql :: rest) where
  spaced := .keyword hinert hrest
  breaks := by
    rw [written_cons]
    exact breaks_append_of_any hbreaks _

/-- A sound piece in front of others that may stand behind it. -/
theorem Trailing.piece {p : Piece} {rest : List Piece} (hrest : Trailing rest) (hp : p.IsSound) :
    Spaced (p :: rest) :=
  .piece hp hrest.breaks hrest.spaced

namespace Spaced

variable {ps qs : List Piece}

theorem append (hp : Spaced ps) (hq : Trailing qs) : Spaced (ps ++ qs) := by
  induction hp with
  | nil => exact hq.spaced
  | keyword hinert _ ih => exact .keyword hinert ih
  | piece hsound hbreaks _ ih =>
    refine .piece hsound ?_ ih
    show Breaks (written (_ ++ qs))
    rw [written_append]
    exact hbreaks.append hq.breaks

theorem separated {separator : String} (hinert : Inert separator.toList)
    (hbreaks : separator.toList.head?.any isBreak = true) {groups : List (List Piece)}
    (hgroups : ∀ group ∈ groups, Spaced group) : Spaced (separated separator groups) := by
  induction groups with
  | nil => exact .nil
  | cons group groups ih =>
    have hgroup := hgroups group (by simp)
    have hrest := ih fun g hg => hgroups g (List.mem_cons_of_mem _ hg)
    cases groups with
    | nil => exact hgroup
    | cons next groups => exact hgroup.append (.keyword hinert hbreaks hrest)

theorem tail {p : Piece} (h : Spaced (p :: ps)) : Spaced ps := by
  cases h with
  | keyword _ hrest => exact hrest
  | piece _ _ hrest => exact hrest

theorem isSound_of_mem (hp : Spaced ps) : ∀ p ∈ ps, p.IsSound := by
  induction hp with
  | nil => simp
  | keyword hinert _ ih =>
    refine List.forall_mem_cons.2 ⟨?_, ih⟩
    exact hinert.tidy
  | piece hsound _ _ ih => exact List.forall_mem_cons.2 ⟨hsound, ih⟩

/-- The reading of spaced pieces is the reading of each of them. -/
theorem lexemes_written (hp : Spaced ps) :
    lexemes (written ps) = ps.flatMap fun p => lexemes p.sql.toList := by
  induction hp with
  | nil => simp [lexemes]
  | @keyword sql rest hinert _ ih =>
    rw [written_cons, List.flatMap_cons, ← ih]
    show lexemes (sql.toList ++ _) = lexemes sql.toList ++ _
    rw [lexemes_inert_append hinert, lexemes_of_inert hinert]
  | piece hsound hbreaks _ ih =>
    rw [written_cons, List.flatMap_cons, lexemes_append hsound.closed hbreaks, ih]

theorem countPlaceholders_sql (hp : Spaced ps) :
    countPlaceholders (Compiled.ofPieces ps).sql = (Compiled.ofPieces ps).params.length := by
  have hsound := hp.isSound_of_mem
  rw [countPlaceholders, toList_sql_ofPieces, hp.lexemes_written]
  show _ = (ps.flatMap Piece.params).length
  clear hp
  induction ps with
  | nil => rfl
  | cons p ps ih =>
    obtain ⟨hfirst, hrest⟩ := List.forall_mem_cons.1 hsound
    rw [List.flatMap_cons, List.flatMap_cons, List.count_append, List.length_append,
      hfirst.count_lexemes, ih hrest]

/-- Numbering the placeholders of a statement numbers its values. -/
theorem positional_eq (hp : Spaced ps) :
    (Compiled.ofPieces ps).positional = String.ofList (numbered 0 ps) := by
  have hsound := hp.isSound_of_mem
  rw [Compiled.positional, numberPlaceholders, toList_sql_ofPieces, hp.lexemes_written]
  refine congrArg String.ofList ?_
  clear hp
  generalize 0 = used
  induction ps generalizing used with
  | nil => rfl
  | cons p ps ih =>
    obtain ⟨hfirst, hrest⟩ := List.forall_mem_cons.1 hsound
    rw [List.flatMap_cons, renderFrom_append, hfirst.renderFrom_lexemes, hfirst.count_lexemes,
      ih hrest, numbered]

end Spaced

theorem Trailing.append {ps qs : List Piece} (hp : Trailing ps) (hq : Trailing qs) :
    Trailing (ps ++ qs) where
  spaced := hp.spaced.append hq
  breaks := by
    rw [written_append]
    exact hp.breaks.append hq.breaks

/-- Parts that may stand behind any others, one after the other. -/
theorem Trailing.flatten {groups : List (List Piece)} (hgroups : ∀ group ∈ groups, Trailing group) :
    Trailing groups.flatten := by
  induction groups with
  | nil => exact .nil
  | cons group groups ih =>
    have hgroup := hgroups group (by simp)
    rw [List.flatten_cons]
    exact hgroup.append (ih fun g hg => hgroups g (List.mem_cons_of_mem _ hg))

end PgToolkit
