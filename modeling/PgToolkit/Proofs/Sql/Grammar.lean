import PgToolkit.Proofs.Sql.Region

/-!
# The grammar of a statement's text

What the elements of a text are, said without the way in which they are read: where an opaque
region begins, where it ends, and that everything else is a mark or a plain character. A text has
exactly one reading by these rules, and it is the one that `lexemes` finds.

## Main definitions

- `Delimited`, `QuotedRest` — what belongs to a region behind its opening, and what follows it
- `Opaque` — an opaque region, by the text behind it
- `Reading` — a text as a sequence of regions, marks and plain characters

## Main statements

- `delimited_splitAfter`, `splitQuoted_eq_iff` — cuts are made where regions end
- `reading_iff` — every text has one reading
-/

namespace PgToolkit.Sql

/-! ### Rules -/

/-- What belongs to a region that ends with `stop`, and what follows the region. The region ends at
the first `stop`, and at the end of the text when there is none. -/
inductive Delimited (stop : List Char) : List Char → List Char → Prop
  | closed (body rest : List Char)
    (hfirst : ∀ front back, body ++ stop = front ++ stop ++ back → back = []) :
    Delimited stop (body ++ stop) rest
  | unclosed (body : List Char) (hnone : ¬ stop <:+: body) : Delimited stop body []

/-- What belongs to a quoted token behind its first quote, and what follows the token. Two quotes
in a row belong to the token, so it ends with a quote that no other follows. -/
inductive QuotedRest (quote : Char) : List Char → List Char → Prop
  | closed (body rest : List Char) (hrest : rest.head? ≠ some quote) :
    QuotedRest quote (doubled quote body ++ [quote]) rest
  | unclosed (body : List Char) : QuotedRest quote (doubled quote body) []

/-- A character of a dollar quote's tag. -/
def IsTagCharacter (c : Char) : Prop :=
  ('a' ≤ c ∧ c ≤ 'z') ∨ ('A' ≤ c ∧ c ≤ 'Z') ∨ ('0' ≤ c ∧ c ≤ '9') ∨ c = '_'

/-- The tag of a dollar quote: nothing, or a name that starts with no digit. -/
structure IsTagName (tag : List Char) : Prop where
  characters : ∀ c ∈ tag, IsTagCharacter c
  first : ∀ c ∈ tag.head?, ¬ ('0' ≤ c ∧ c ≤ '9')

/-- An opaque region, in front of the text that follows it. -/
inductive Opaque : List Char → List Char → Prop
  | quoted {quote : Char} {cut rest : List Char} (hquote : quote = '\'' ∨ quote = '"')
    (hcut : QuotedRest quote cut rest) : Opaque (quote :: cut) rest
  | lineComment {cut rest : List Char} (hcut : Delimited ['\n'] cut rest) :
    Opaque ('-' :: '-' :: cut) rest
  | blockComment {cut rest : List Char} (hcut : Delimited ['*', '/'] cut rest) :
    Opaque ('/' :: '*' :: cut) rest
  | dollarQuoted {tag cut rest : List Char} (htag : IsTagName tag)
    (hcut : Delimited ('$' :: (tag ++ ['$'])) cut rest) : Opaque ('$' :: (tag ++ '$' :: cut)) rest

/-- A text, read from left to right: a region wherever one can begin, two question marks in a row as
one, a single one as a placeholder, and every other character as it is. -/
inductive Reading : List Char → List Lexeme → Prop
  | nil : Reading [] []
  | region {region rest : List Char} {ls : List Lexeme} (hregion : Opaque region rest)
    (hrest : Reading rest ls) : Reading (region ++ rest) (.region region :: ls)
  | escapedMark {rest : List Char} {ls : List Lexeme} (hrest : Reading rest ls) :
    Reading ('?' :: '?' :: rest) (.escapedMark :: ls)
  | placeholder {rest : List Char} {ls : List Lexeme} (hsingle : rest.head? ≠ some '?')
    (hrest : Reading rest ls) : Reading ('?' :: rest) (.placeholder :: ls)
  | plain {c : Char} {rest : List Char} {ls : List Lexeme} (hmark : c ≠ '?')
    (hnone : ∀ region behind, Opaque region behind → region ++ behind ≠ c :: rest)
    (hrest : Reading rest ls) : Reading (c :: rest) (.plain c :: ls)

/-! ### Where regions end -/

variable {stop text cut rest : List Char} {quote c : Char}

/-- The first part of a cut is a region's end. -/
theorem delimited_splitAfter (hstop : stop ≠ []) (text : List Char) :
    Delimited stop (splitAfter stop text).1 (splitAfter stop text).2 := by
  induction text with
  | nil => exact .unclosed [] fun h => hstop (List.eq_nil_of_infix_nil h)
  | cons c text ih =>
    by_cases hfirst : stop.isPrefixOf (c :: text) = true
    · have hcut : splitAfter stop (c :: text) = (stop, (c :: text).drop stop.length) := by
        rw [splitAfter, if_pos hfirst]
      rw [hcut]
      refine .closed [] _ fun front back h => ?_
      have hlength := congrArg List.length h
      simp only [List.nil_append, List.length_append] at hlength
      exact List.length_eq_zero_iff.1 (by omega)
    · have hcut : splitAfter stop (c :: text) =
          (c :: (splitAfter stop text).1, (splitAfter stop text).2) := by
        rw [splitAfter, if_neg hfirst]
      -- the delimiter does not stand at the first character
      have hfirst : ¬ stop <+: c :: text := fun h => hfirst (List.isPrefixOf_iff_prefix.2 h)
      have hpart : (splitAfter stop text).1 <+: text := ⟨_, splitAfter_append stop text⟩
      rw [hcut]
      generalize splitAfter stop text = parts at ih hpart
      obtain ⟨first, second⟩ := parts
      dsimp only at ih hpart ⊢
      cases ih with
      | closed body second honly =>
        refine .closed (c :: body) second fun front back h => ?_
        cases front with
        | nil =>
          refine absurd ?_ hfirst
          have hbegins : stop <+: c :: (body ++ stop) := ⟨back, h.symm⟩
          exact hbegins.trans ((List.prefix_cons_inj c).2 hpart)
        | cons d front => exact honly front back (List.cons.inj h).2
      | unclosed first hnone =>
        refine .unclosed (c :: first) fun h => ?_
        rcases List.infix_cons_iff.1 h with hbegins | hinfix
        · exact hfirst (hbegins.trans ((List.prefix_cons_inj c).2 hpart))
        · exact hnone hinfix

/-- The region's end is the first part of a cut. -/
theorem Delimited.splitAfter_append (h : Delimited stop cut rest) (hstop : stop ≠ []) :
    splitAfter stop (cut ++ rest) = (cut, rest) := by
  have htext := Sql.splitAfter_append stop (cut ++ rest)
  have hcut := delimited_splitAfter hstop (cut ++ rest)
  generalize splitAfter stop (cut ++ rest) = parts at htext hcut
  obtain ⟨first, second⟩ := parts
  dsimp only at htext hcut
  -- both parts in front are cut off the same text, so one begins with the other
  suffices hfirst : first = cut by
    subst hfirst
    rw [List.append_cancel_left htext]
  have hbegins : first <+: cut ++ rest := ⟨second, htext⟩
  cases h with
  | closed body rest honly =>
    cases hcut with
    | closed body' second honly' =>
      rcases List.prefix_or_prefix_of_prefix hbegins (List.prefix_append (body ++ stop) rest) with
        ⟨back, hback⟩ | ⟨back, hback⟩
      · rw [honly body' back hback.symm, List.append_nil] at hback
        exact hback
      · rw [honly' body back hback.symm, List.append_nil] at hback
        exact hback.symm
    | unclosed first hnone =>
      rw [List.append_nil] at htext
      exact absurd ⟨body, rest, htext.symm⟩ hnone
  | unclosed body hnone =>
    cases hcut with
    | closed body' second honly' =>
      rw [List.append_nil] at htext
      exact absurd ⟨body', second, htext⟩ hnone
    | unclosed first hnone' => simpa using htext

theorem quotedRest_splitQuoted (quote : Char) (text : List Char) :
    QuotedRest quote (splitQuoted quote text).1 (splitQuoted quote text).2 := by
  fun_induction splitQuoted quote text with
  | case1 => exact .unclosed []
  | case2 => exact .closed [] [] (by simp)
  | case3 rest ih =>
    generalize splitQuoted quote rest = parts at ih ⊢
    obtain ⟨first, second⟩ := parts
    dsimp only at ih ⊢
    have hpair (body : List Char) :
        quote :: quote :: doubled quote body = doubled quote (quote :: body) := by
      simp [doubled_cons]
    cases ih with
    | closed body second hrest =>
      have h := QuotedRest.closed (quote :: body) second hrest
      rwa [← hpair] at h
    | unclosed body =>
      have h : QuotedRest quote (doubled quote (quote :: body)) [] := .unclosed (quote :: body)
      rwa [← hpair] at h
  | case4 d rest hd => exact .closed [] (d :: rest) (by simpa using hd)
  | case5 c rest hc ih =>
    generalize splitQuoted quote rest = parts at ih ⊢
    obtain ⟨first, second⟩ := parts
    dsimp only at ih ⊢
    have hsingle (body : List Char) : c :: doubled quote body = doubled quote (c :: body) := by
      simp [doubled_cons, hc]
    cases ih with
    | closed body second hrest =>
      have h := QuotedRest.closed (c :: body) second hrest
      rwa [← hsingle] at h
    | unclosed body =>
      have h : QuotedRest quote (doubled quote (c :: body)) [] := .unclosed (c :: body)
      rwa [← hsingle] at h

theorem splitQuoted_eq_iff :
    splitQuoted quote text = (cut, rest) ↔ QuotedRest quote cut rest ∧ cut ++ rest = text := by
  constructor
  · intro h
    have hcut := quotedRest_splitQuoted quote text
    have htext := splitQuoted_append quote text
    rw [h] at hcut htext
    exact ⟨hcut, htext⟩
  · rintro ⟨hcut, rfl⟩
    cases hcut with
    | closed body rest hrest => simpa using splitQuoted_doubled body hrest
    | unclosed body => simpa [splitQuoted] using splitQuoted_doubled_append quote body []

/-! ### Tags -/

theorem isAlpha_iff : c.isAlpha = true ↔ ('A' ≤ c ∧ c ≤ 'Z') ∨ ('a' ≤ c ∧ c ≤ 'z') := by
  show (decide ('A' ≤ c ∧ c ≤ 'Z') || (decide ('a' ≤ c) && decide (c ≤ 'z'))) = true ↔ _
  simp only [Bool.or_eq_true, Bool.and_eq_true, decide_eq_true_eq]

theorem isTagPart_iff : isTagPart c = true ↔ IsTagCharacter c := by
  simp only [isTagPart, Char.isAlphanum, isAlpha_iff, Char.isDigit, IsTagCharacter,
    Bool.or_eq_true, Bool.and_eq_true, decide_eq_true_eq, Char.le_def, ge_iff_le]
  constructor
  · rintro (((hupper | hlower) | hdigit) | rfl)
    · exact .inr (.inl hupper)
    · exact .inl hlower
    · exact .inr (.inr (.inl hdigit))
    · exact .inr (.inr (.inr rfl))
  · rintro (hlower | hupper | hdigit | rfl)
    · exact .inl (.inl (.inr hlower))
    · exact .inl (.inl (.inl hupper))
    · exact .inl (.inr hdigit)
    · exact .inr rfl

/-- A tag starts with the characters that it goes on with, digits excepted. -/
theorem isTagStart_iff : isTagStart c = true ↔ isTagPart c = true ∧ ¬ ('0' ≤ c ∧ c ≤ '9') := by
  have hdigit : ('0' ≤ c ∧ c ≤ '9') ↔ c.isDigit = true := by
    simp only [Char.isDigit, Bool.and_eq_true, decide_eq_true_eq, Char.le_def, ge_iff_le]
  have hother : isTagStart c = true → c.isDigit = false := by
    intro h
    simp only [isTagStart, isAlpha_iff, Bool.or_eq_true, decide_eq_true_eq, Char.le_def,
      UInt32.le_iff_toNat_le] at h
    simp only [Char.isDigit, Bool.and_eq_false_iff, decide_eq_false_iff_not, ge_iff_le,
      UInt32.le_iff_toNat_le]
    rcases h with (⟨hlower, -⟩ | ⟨hlower, -⟩) | rfl
    · right
      change 65 ≤ c.val.toNat at hlower
      change ¬ c.val.toNat ≤ 57
      omega
    · right
      change 97 ≤ c.val.toNat at hlower
      change ¬ c.val.toNat ≤ 57
      omega
    · decide
  rw [hdigit]
  constructor
  · exact fun h => ⟨isTagPart_of_isTagStart h, by simp [hother h]⟩
  · rintro ⟨hpart, hnot⟩
    rw [isTagPart, Char.isAlphanum, Bool.eq_false_iff.2 hnot, Bool.or_false] at hpart
    exact hpart

theorem isTag_iff {tag : List Char} : isTag tag = true ↔ IsTagName tag := by
  cases tag with
  | nil => exact ⟨fun _ => ⟨by simp, by simp⟩, fun _ => rfl⟩
  | cons c rest =>
    simp only [isTag, Bool.and_eq_true, isTagStart_iff, List.all_eq_true, isTagPart_iff]
    constructor
    · rintro ⟨⟨hc, hdigit⟩, hrest⟩
      exact ⟨List.forall_mem_cons.2 ⟨hc, hrest⟩, by simpa using hdigit⟩
    · rintro ⟨hall, hfirst⟩
      obtain ⟨hc, hrest⟩ := List.forall_mem_cons.1 hall
      exact ⟨⟨hc, hfirst c rfl⟩, hrest⟩

/-! ### Regions -/

theorem Lexeme.next_quote (hquote : quote = '\'' ∨ quote = '"') (text : List Char) :
    Lexeme.next quote text =
      (.region (quote :: (splitQuoted quote text).1), (splitQuoted quote text).2) := by
  rw [Lexeme.next, if_pos hquote]

theorem Lexeme.next_minus (text : List Char) :
    Lexeme.next '-' ('-' :: text) = (.region ('-' :: '-' :: (splitAfter ['\n'] text).1),
      (splitAfter ['\n'] text).2) := by
  have hcut : splitAfter ['\n'] ('-' :: text) =
      ('-' :: (splitAfter ['\n'] text).1, (splitAfter ['\n'] text).2) := by
    simp [splitAfter]
  simp [Lexeme.next, hcut]

theorem Lexeme.next_slash (text : List Char) :
    Lexeme.next '/' ('*' :: text) = (.region ('/' :: '*' :: (splitAfter ['*', '/'] text).1),
      (splitAfter ['*', '/'] text).2) := by
  simp [Lexeme.next]

theorem Lexeme.next_dollar {tag : List Char} (htag : isTag tag = true) (text : List Char) :
    Lexeme.next '$' (tag ++ '$' :: text) =
      (.region ('$' :: (tag ++ '$' :: (splitAfter ('$' :: (tag ++ ['$'])) text).1)),
        (splitAfter ('$' :: (tag ++ ['$'])) text).2) := by
  have hopening := dollarOpening?_eq (dollar_not_mem_of_isTag htag) text
  rw [if_pos htag] at hopening
  simp [Lexeme.next, hopening]

theorem Opaque.next_eq {region : List Char} (h : Opaque region rest)
    (hsource : region ++ rest = c :: text) : Lexeme.next c text = (.region region, rest) := by
  cases h with
  | quoted hquote hcut =>
    obtain ⟨rfl, rfl⟩ := List.cons.inj (List.cons_append.symm.trans hsource)
    rw [Lexeme.next_quote hquote, splitQuoted_eq_iff.2 ⟨hcut, rfl⟩]
  | lineComment hcut =>
    obtain ⟨rfl, rfl⟩ := List.cons.inj (List.cons_append.symm.trans hsource)
    rw [List.cons_append, Lexeme.next_minus, hcut.splitAfter_append (by simp)]
  | blockComment hcut =>
    obtain ⟨rfl, rfl⟩ := List.cons.inj (List.cons_append.symm.trans hsource)
    rw [List.cons_append, Lexeme.next_slash, hcut.splitAfter_append (by simp)]
  | dollarQuoted htag hcut =>
    obtain ⟨rfl, rfl⟩ := List.cons.inj (List.cons_append.symm.trans hsource)
    rw [List.append_assoc, List.cons_append, Lexeme.next_dollar (isTag_iff.2 htag),
      hcut.splitAfter_append (by simp)]

/-- What is read at a character: a region, a mark, or the character when no region begins at it. -/
inductive Read (c : Char) (text : List Char) : Lexeme → List Char → Prop
  | region {region rest : List Char} (hregion : Opaque region rest)
    (hsource : region ++ rest = c :: text) : Read c text (.region region) rest
  | escapedMark {rest : List Char} (hmark : c = '?') (hrest : text = '?' :: rest) :
    Read c text .escapedMark rest
  | placeholder (hmark : c = '?') (hsingle : text.head? ≠ some '?') : Read c text .placeholder text
  | plain (hmark : c ≠ '?')
    (hnone : ∀ region behind, Opaque region behind → region ++ behind ≠ c :: text) :
    Read c text (.plain c) text

theorem opaque_of_quote (hquote : quote = '\'' ∨ quote = '"') (text : List Char) :
    Opaque (quote :: (splitQuoted quote text).1) (splitQuoted quote text).2 :=
  .quoted hquote (quotedRest_splitQuoted quote text)

theorem opaque_of_minus (text : List Char) :
    Opaque ('-' :: '-' :: (splitAfter ['\n'] text).1) (splitAfter ['\n'] text).2 :=
  .lineComment (delimited_splitAfter (by simp) text)

theorem opaque_of_slash (text : List Char) :
    Opaque ('/' :: '*' :: (splitAfter ['*', '/'] text).1) (splitAfter ['*', '/'] text).2 :=
  .blockComment (delimited_splitAfter (by simp) text)

theorem opaque_of_dollar {tag : List Char} (htag : isTag tag = true) (text : List Char) :
    Opaque ('$' :: (tag ++ '$' :: (splitAfter ('$' :: (tag ++ ['$'])) text).1))
      (splitAfter ('$' :: (tag ++ ['$'])) text).2 :=
  .dollarQuoted (isTag_iff.1 htag) (delimited_splitAfter (by simp) text)

/-- A character that opens no region in front of a text. -/
structure OpensNone (c : Char) (text : List Char) : Prop where
  quote : ¬ (c = '\'' ∨ c = '"')
  line : ¬ (c = '-' ∧ text.head? = some '-')
  block : ¬ (c = '/' ∧ text.head? = some '*')
  dollar : c = '$' → dollarOpening? text = none

/-- A region begins at every character that opens one, and at no other. -/
theorem opensNone_iff :
    OpensNone c text ↔ ∀ region behind, Opaque region behind → region ++ behind ≠ c :: text := by
  constructor
  · intro h region behind hregion hsource
    cases hregion with
    | quoted hopens _ =>
      obtain ⟨rfl, -⟩ := List.cons.inj (List.cons_append.symm.trans hsource)
      exact h.quote hopens
    | lineComment _ =>
      obtain ⟨rfl, rfl⟩ := List.cons.inj (List.cons_append.symm.trans hsource)
      exact h.line ⟨rfl, rfl⟩
    | blockComment _ =>
      obtain ⟨rfl, rfl⟩ := List.cons.inj (List.cons_append.symm.trans hsource)
      exact h.block ⟨rfl, rfl⟩
    | @dollarQuoted tag cut _ htag _ =>
      obtain ⟨rfl, rfl⟩ := List.cons.inj (List.cons_append.symm.trans hsource)
      have htag := isTag_iff.2 htag
      have hopening := dollarOpening?_eq (dollar_not_mem_of_isTag htag) (cut ++ behind)
      rw [if_pos htag] at hopening
      have hnone := h.dollar rfl
      rw [List.append_assoc, List.cons_append, hopening] at hnone
      cases hnone
  · intro h
    refine ⟨fun hquote => ?_, ?_, ?_, ?_⟩
    · refine h _ _ (opaque_of_quote hquote text) ?_
      rw [List.cons_append, splitQuoted_append]
    · rintro ⟨rfl, hline⟩
      obtain ⟨text, rfl⟩ := List.head?_eq_some_iff.1 hline
      refine h _ _ (opaque_of_minus text) ?_
      rw [List.cons_append, List.cons_append, splitAfter_append]
    · rintro ⟨rfl, hblock⟩
      obtain ⟨text, rfl⟩ := List.head?_eq_some_iff.1 hblock
      refine h _ _ (opaque_of_slash text) ?_
      rw [List.cons_append, List.cons_append, splitAfter_append]
    · rintro rfl
      by_contra hdollar
      obtain ⟨⟨delimiter, body⟩, hopening⟩ := Option.ne_none_iff_exists'.1 hdollar
      obtain ⟨tag, htag, -, rfl⟩ := exists_tag_of_dollarOpening? hopening
      refine h _ _ (opaque_of_dollar htag body) ?_
      rw [List.cons_append, List.append_assoc, List.cons_append, splitAfter_append]

theorem read_next (c : Char) (text : List Char) :
    Read c text (Lexeme.next c text).1 (Lexeme.next c text).2 := by
  by_cases hopens : OpensNone c text
  · by_cases hmark : c = '?'
    · subst hmark
      by_cases hdouble : text.head? = some '?'
      · obtain ⟨text, rfl⟩ := List.head?_eq_some_iff.1 hdouble
        have hnext : Lexeme.next '?' ('?' :: text) = (.escapedMark, text) := by simp [Lexeme.next]
        rw [hnext]
        exact .escapedMark rfl rfl
      · have hnext : Lexeme.next '?' text = (.placeholder, text) := by
          simp [Lexeme.next, hdouble]
        rw [hnext]
        exact .placeholder rfl hdouble
    · have hnext : Lexeme.next c text = (.plain c, text) := by
        rw [Lexeme.next, if_neg hopens.quote, if_neg hopens.line, if_neg hopens.block, if_neg hmark]
        by_cases hdollar : c = '$'
        · rw [if_pos hdollar, hopens.dollar hdollar]
        · rw [if_neg hdollar]
      rw [hnext]
      exact .plain hmark (opensNone_iff.1 hopens)
  · obtain ⟨region, behind, hregion, hsource⟩ : ∃ region behind, Opaque region behind ∧
        region ++ behind = c :: text := by
      simpa [opensNone_iff] using hopens
    rw [hregion.next_eq hsource]
    exact .region hregion hsource

/-! ### Readings -/

theorem reading_lexemes (text : List Char) : Reading text (lexemes text) := by
  fun_induction lexemes text with
  | case1 => exact .nil
  | case2 c rest ih =>
    have hread := read_next c rest
    generalize Lexeme.next c rest = next at hread ih
    obtain ⟨l, behind⟩ := next
    dsimp only at hread ih ⊢
    cases hread with
    | region hregion hsource => exact hsource ▸ .region hregion ih
    | escapedMark hmark hrest =>
      subst hmark hrest
      exact .escapedMark ih
    | placeholder hmark hsingle =>
      subst hmark
      exact .placeholder hsingle ih
    | plain hmark hnone => exact .plain hmark hnone ih

theorem Reading.eq_lexemes {ls : List Lexeme} (h : Reading text ls) : ls = lexemes text := by
  induction h with
  | nil => rw [lexemes]
  | @region region rest ls hregion _ ih =>
    cases hsource : region ++ rest with
    | nil =>
      have hnil := (List.append_eq_nil_iff.1 hsource).1
      cases hregion with
      | _ => cases hnil
    | cons c text => rw [lexemes, hregion.next_eq hsource, ih]
  | @escapedMark rest ls _ ih =>
    have hnext : Lexeme.next '?' ('?' :: rest) = (.escapedMark, rest) := by simp [Lexeme.next]
    rw [lexemes, hnext, ih]
  | @placeholder rest ls hsingle _ ih =>
    have hnext : Lexeme.next '?' rest = (.placeholder, rest) := by simp [Lexeme.next, hsingle]
    rw [lexemes, hnext, ih]
  | @plain c rest ls hmark hnone _ ih =>
    have hread := read_next c rest
    rw [lexemes]
    generalize Lexeme.next c rest = next at hread
    obtain ⟨l, behind⟩ := next
    cases hread with
    | region hregion hsource => exact absurd hsource (hnone _ _ hregion)
    | escapedMark hc _ => exact absurd hc hmark
    | placeholder hc _ => exact absurd hc hmark
    | plain _ _ => rw [ih]

theorem reading_iff {ls : List Lexeme} : Reading text ls ↔ ls = lexemes text :=
  ⟨Reading.eq_lexemes, fun h => h ▸ reading_lexemes text⟩

end PgToolkit.Sql
