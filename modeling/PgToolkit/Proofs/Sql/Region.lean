import Mathlib.Data.List.TakeWhile
import Mathlib.Tactic.ByContra
import PgToolkit.Sql.Placeholder
import PgToolkit.Sql.Quoted

/-!
# Opaque regions

When two texts are written one behind the other, the reading of the whole is the reading of the
parts, provided that the first part ends outside of every region and the second one starts with a
character that cannot continue anything.
-/

namespace PgToolkit.Sql

/-- A region that reaches its end: a quoted token, a comment, or a dollar-quoted body. -/
inductive Terminated : List Char → Prop
  | quoted {quote : Char} (body : List Char) (hquote : quote = '\'' ∨ quote = '"') :
    Terminated (quote :: (doubled quote body ++ [quote]))
  | lineComment (body : List Char) : Terminated ('-' :: '-' :: (body ++ ['\n']))
  | blockComment (body : List Char) : Terminated ('/' :: '*' :: (body ++ ['*', '/']))
  | dollarQuoted {tag : List Char} (body : List Char) (htag : isTag tag = true) :
    Terminated ('$' :: (tag ++ '$' :: (body ++ '$' :: (tag ++ ['$']))))

/-- A text of which every region reaches its end, so that reading it ends outside of all regions. -/
def Closed (text : List Char) : Prop :=
  ∀ region, Lexeme.region region ∈ lexemes text → Terminated region

/-- A blank, a comma or a closing parenthesis. None of these continues a quoted token, a mark, the
opening of a comment, or a dollar quote's tag. -/
def isBreak (c : Char) : Bool :=
  c = ' ' || c = ',' || c = ')'

/-- A text that is empty or starts with a breaking character. -/
def Breaks (text : List Char) : Prop :=
  ∀ c ∈ text.head?, isBreak c = true

theorem breaks_nil : Breaks [] := by
  simp [Breaks]

/-- Only the first character counts. -/
theorem breaks_append_of_any {s : List Char} (hs : s.head?.any isBreak = true) (t : List Char) :
    Breaks (s ++ t) := by
  cases s with
  | nil => simp at hs
  | cons c s => simpa [Breaks] using hs

theorem Breaks.append {s t : List Char} (hs : Breaks s) (ht : Breaks t) : Breaks (s ++ t) := by
  cases s with
  | nil => exact ht
  | cons c s => exact hs

/-- A breaking text starts with no other character. -/
theorem Breaks.head?_ne {t : List Char} (ht : Breaks t) {c : Char} (hc : isBreak c = false) :
    t.head? ≠ some c := by
  intro h
  have := ht c h
  simp [hc] at this

/-- A breaking text does not change which other character a text in front of it starts with. -/
theorem Breaks.head?_append_eq_some_iff {t : List Char} (ht : Breaks t) {c : Char}
    (hc : isBreak c = false) (s : List Char) : (s ++ t).head? = some c ↔ s.head? = some c := by
  cases s with
  | nil => simpa using ht.head?_ne hc
  | cons d s => simp

/-! ### Quoted tokens -/

theorem doubled_cons (quote c : Char) (s : List Char) :
    doubled quote (c :: s) = (if c = quote then [quote, quote] else [c]) ++ doubled quote s := by
  simp [doubled]

theorem splitQuoted_of_ne {quote c : Char} (hc : c ≠ quote) (rest : List Char) :
    splitQuoted quote (c :: rest) =
      (c :: (splitQuoted quote rest).1, (splitQuoted quote rest).2) := by
  rw [splitQuoted.eq_def]
  simp [hc]

/-- A doubled text stays inside the token that is cut off. -/
theorem splitQuoted_doubled_append (quote : Char) (body text : List Char) :
    splitQuoted quote (doubled quote body ++ text) =
      (doubled quote body ++ (splitQuoted quote text).1, (splitQuoted quote text).2) := by
  induction body with
  | nil => rfl
  | cons c body ih =>
    rw [doubled_cons]
    by_cases hc : c = quote
    · simp [hc, splitQuoted, ih]
    · simp [hc, splitQuoted_of_ne hc, ih]

theorem splitQuoted_quote {quote : Char} {rest : List Char} (hrest : rest.head? ≠ some quote) :
    splitQuoted quote (quote :: rest) = ([quote], rest) := by
  cases rest with
  | nil => simp [splitQuoted]
  | cons d rest =>
    have hd : d ≠ quote := by simpa using hrest
    simp [splitQuoted, hd]

theorem splitQuoted_doubled {quote : Char} (body : List Char) {rest : List Char}
    (hrest : rest.head? ≠ some quote) :
    splitQuoted quote (doubled quote body ++ quote :: rest) =
      (doubled quote body ++ [quote], rest) := by
  rw [splitQuoted_doubled_append, splitQuoted_quote hrest]

/-- Joined texts do not start with a character that neither of them starts with. -/
theorem head?_append_ne {s t : List Char} {c : Char} (hs : s.head? ≠ some c)
    (ht : t.head? ≠ some c) : (s ++ t).head? ≠ some c := by
  cases s with
  | nil => exact ht
  | cons d s => exact hs

theorem head?_ne_of_splitQuoted {quote : Char} {text body rest : List Char}
    (h : splitQuoted quote text = (doubled quote body ++ [quote], rest)) :
    text = doubled quote body ++ quote :: rest ∧ rest.head? ≠ some quote := by
  have htext : text = doubled quote body ++ quote :: rest := by
    have happend := splitQuoted_append quote text
    rw [h] at happend
    simpa using happend.symm
  refine ⟨htext, ?_⟩
  intro hhead
  cases rest with
  | nil => simp at hhead
  | cons d rest =>
    obtain rfl : d = quote := by simpa using hhead
    rw [htext, splitQuoted_doubled_append] at h
    have hlength := congrArg (fun cut => cut.1.length) h
    simp [splitQuoted] at hlength

/-- A token that reaches its end is cut off in the same way when more text follows. -/
theorem splitQuoted_append_right {quote : Char} {text body rest : List Char}
    (h : splitQuoted quote text = (doubled quote body ++ [quote], rest)) {t : List Char}
    (ht : t.head? ≠ some quote) :
    splitQuoted quote (text ++ t) = (doubled quote body ++ [quote], rest ++ t) := by
  obtain ⟨rfl, hrest⟩ := head?_ne_of_splitQuoted h
  simpa using splitQuoted_doubled body (head?_append_ne hrest ht)

/-! ### Comments and dollar quotes -/

theorem splitAfter_append_right {stop : List Char} (hstop : stop ≠ []) {text : List Char}
    (h : stop <:+ (splitAfter stop text).1) (t : List Char) :
    splitAfter stop (text ++ t) = ((splitAfter stop text).1, (splitAfter stop text).2 ++ t) := by
  induction text with
  | nil => exact absurd (List.suffix_nil.1 h) hstop
  | cons c rest ih =>
    by_cases hfirst : stop.isPrefixOf (c :: rest) = true
    · have hleads := List.isPrefixOf_iff_prefix.1 hfirst
      have hmore : stop.isPrefixOf (c :: (rest ++ t)) = true :=
        List.isPrefixOf_iff_prefix.2 (hleads.trans (List.prefix_append (c :: rest) t))
      have hdrop : (c :: (rest ++ t)).drop stop.length = (c :: rest).drop stop.length ++ t :=
        List.drop_append_of_le_length hleads.length_le
      simp [splitAfter, hfirst, hmore, hdrop]
    · have hpart : (splitAfter stop rest).1 <+: rest :=
        ⟨_, splitAfter_append stop rest⟩
      simp only [splitAfter, hfirst, Bool.false_eq_true, if_false] at h
      rcases List.suffix_cons_iff.1 h with heq | hsuffix
      · -- The end delimiter would be all that was cut off, so it would stand in front.
        refine absurd (List.isPrefixOf_iff_prefix.2 ?_) hfirst
        rw [heq]
        exact (List.prefix_cons_inj c).2 hpart
      · have hlength : stop.length ≤ (c :: rest).length :=
          Nat.le_succ_of_le (Nat.le_trans hsuffix.length_le hpart.length_le)
        have hmore : ¬ stop.isPrefixOf (c :: (rest ++ t)) = true := by
          intro hlater
          refine hfirst (List.isPrefixOf_iff_prefix.2 ?_)
          exact List.prefix_of_prefix_length_le (List.isPrefixOf_iff_prefix.1 hlater)
            (List.prefix_append (c :: rest) t) hlength
        simp [splitAfter, hfirst, hmore, ih hsuffix]

theorem isTagPart_of_isTagStart {c : Char} (h : isTagStart c = true) : isTagPart c = true := by
  simp only [isTagStart, isTagPart, Char.isAlphanum, Bool.or_eq_true] at h ⊢
  rcases h with h | h
  · exact .inl (.inl h)
  · exact .inr h

/-- Every character of a tag is a letter, a digit or an underscore. -/
theorem isTagPart_of_mem {tag : List Char} (htag : isTag tag = true) {c : Char} (hc : c ∈ tag) :
    isTagPart c = true := by
  cases tag with
  | nil => simp at hc
  | cons d rest =>
    simp only [isTag, Bool.and_eq_true] at htag
    rcases List.mem_cons.1 hc with rfl | hc
    · exact isTagPart_of_isTagStart htag.1
    · exact List.all_eq_true.1 htag.2 c hc

theorem isTagPart_eq_false_of_isBreak {c : Char} (h : isBreak c = true) : isTagPart c = false := by
  simp only [isBreak, Bool.or_eq_true, decide_eq_true_eq] at h
  rcases h with (rfl | rfl) | rfl <;> decide

/-- What stands before the first dollar sign decides whether it opens a dollar quote. -/
theorem dollarOpening?_eq {tag : List Char} (htag : '$' ∉ tag) (body : List Char) :
    dollarOpening? (tag ++ '$' :: body) =
      if isTag tag = true then some (tag ++ ['$'], body) else none := by
  have hpos : ∀ c ∈ tag, (c != '$') = true := by
    intro c hc
    simp only [bne_iff_ne]
    rintro rfl
    exact htag hc
  have htake : (tag ++ '$' :: body).takeWhile (· != '$') = tag := by
    rw [List.takeWhile_append_of_pos hpos]
    simp
  have hdrop : (tag ++ '$' :: body).dropWhile (· != '$') = '$' :: body := by
    rw [List.dropWhile_append_of_pos hpos]
    simp
  simp only [dollarOpening?, htake, hdrop]

theorem dollarOpening?_of_not_mem {text : List Char} (h : '$' ∉ text) :
    dollarOpening? text = none := by
  have hdrop : text.dropWhile (· != '$') = [] := by
    rw [List.dropWhile_eq_nil_iff]
    intro c hc
    simp only [bne_iff_ne]
    rintro rfl
    exact h hc
  simp only [dollarOpening?, hdrop]

/-- The delimiter of a dollar quote is found in the same way when more text follows; where there is
none, a text whose first character belongs to no delimiter does not bring one about. -/
theorem dollarOpening?_append_of_head? {t : List Char}
    (ht : ∀ c ∈ t.head?, c ≠ '$' ∧ isTagPart c = false) (text : List Char) :
    dollarOpening? (text ++ t) =
      (dollarOpening? text).map fun opening => (opening.1, opening.2 ++ t) := by
  by_cases hdollar : '$' ∈ text
  · -- The first dollar sign stands in the text itself.
    obtain ⟨tag, body, rfl, htag⟩ := List.eq_append_cons_of_mem hdollar
    rw [List.append_assoc, List.cons_append, dollarOpening?_eq htag, dollarOpening?_eq htag]
    split <;> rfl
  · rw [dollarOpening?_of_not_mem hdollar, Option.map_none]
    by_cases hlater : '$' ∈ t
    · -- The character that breaks stands before the dollar sign, and no tag holds it.
      obtain ⟨tag, body, rfl, htag⟩ := List.eq_append_cons_of_mem hlater
      have hall : '$' ∉ text ++ tag := by simp [hdollar, htag]
      cases tag with
      | nil => exact absurd rfl (ht '$' rfl).1
      | cons c tag =>
        have hnot : isTag (text ++ c :: tag) = false := by
          by_contra hyes
          have := isTagPart_of_mem (Bool.of_not_eq_false hyes) (c := c) (by simp)
          simp [(ht c rfl).2] at this
        rw [← List.append_assoc, dollarOpening?_eq hall, hnot]
        simp
    · exact dollarOpening?_of_not_mem (by simp [hdollar, hlater])

theorem dollarOpening?_append {t : List Char} (ht : Breaks t) (text : List Char) :
    dollarOpening? (text ++ t) =
      (dollarOpening? text).map fun opening => (opening.1, opening.2 ++ t) := by
  refine dollarOpening?_append_of_head? (fun c hc => ⟨?_, ?_⟩) text
  · rintro rfl
    exact ht.head?_ne (c := '$') (by decide) hc
  · exact isTagPart_eq_false_of_isBreak (ht c hc)

theorem dollar_not_mem_of_isTag {tag : List Char} (htag : isTag tag = true) : '$' ∉ tag := by
  intro h
  have := isTagPart_of_mem htag h
  revert this
  decide

theorem exists_tag_of_dollarOpening? {text delimiter body : List Char}
    (h : dollarOpening? text = some (delimiter, body)) :
    ∃ tag, isTag tag = true ∧ delimiter = tag ++ ['$'] ∧ text = tag ++ '$' :: body := by
  by_cases hdollar : '$' ∈ text
  · obtain ⟨tag, tail, rfl, htag⟩ := List.eq_append_cons_of_mem hdollar
    rw [dollarOpening?_eq htag] at h
    split at h
    · next hvalid =>
      obtain ⟨rfl, rfl⟩ := Prod.mk.inj (Option.some.inj h)
      exact ⟨tag, hvalid, rfl, rfl⟩
    · simp at h
  · simp [dollarOpening?_of_not_mem hdollar] at h

/-! ### What terminated regions end with -/

theorem Terminated.exists_body_of_quote {quote : Char} {cut : List Char}
    (hquote : quote = '\'' ∨ quote = '"') (h : Terminated (quote :: cut)) :
    ∃ body, cut = doubled quote body ++ [quote] := by
  generalize hregion : quote :: cut = region at h
  cases h with
  | quoted body _ =>
    obtain ⟨rfl, rfl⟩ := List.cons.inj hregion
    exact ⟨body, rfl⟩
  | lineComment body => rcases hquote with rfl | rfl <;> simp at hregion
  | blockComment body => rcases hquote with rfl | rfl <;> simp at hregion
  | dollarQuoted body _ => rcases hquote with rfl | rfl <;> simp at hregion

theorem Terminated.suffix_of_lineComment {cut : List Char} (h : Terminated ('-' :: cut)) :
    ['\n'] <:+ cut := by
  generalize hregion : '-' :: cut = region at h
  cases h with
  | quoted body hquote => rcases hquote with rfl | rfl <;> simp at hregion
  | lineComment body =>
    obtain rfl := (List.cons.inj hregion).2
    exact List.suffix_append ('-' :: body) _
  | blockComment body => simp at hregion
  | dollarQuoted body _ => simp at hregion

theorem Terminated.suffix_of_blockComment {cut : List Char}
    (h : Terminated ('/' :: '*' :: cut)) : ['*', '/'] <:+ cut := by
  generalize hregion : '/' :: '*' :: cut = region at h
  cases h with
  | quoted body hquote => rcases hquote with rfl | rfl <;> simp at hregion
  | lineComment body => simp at hregion
  | blockComment body =>
    obtain rfl := (List.cons.inj (List.cons.inj hregion).2).2
    exact List.suffix_append body _
  | dollarQuoted body _ => simp at hregion

theorem Terminated.suffix_of_dollarQuoted {tag cut : List Char} (htag : isTag tag = true)
    (h : Terminated ('$' :: (tag ++ '$' :: cut))) : '$' :: (tag ++ ['$']) <:+ cut := by
  generalize hregion : '$' :: (tag ++ '$' :: cut) = region at h
  cases h with
  | quoted body hquote => rcases hquote with rfl | rfl <;> simp at hregion
  | lineComment body => simp at hregion
  | blockComment body => simp at hregion
  | @dollarQuoted other body hother =>
    -- The delimiter that the region starts with is read from it, so both tags are the same.
    have hrest := List.tail_eq_of_cons_eq hregion
    have hleft := dollarOpening?_eq (dollar_not_mem_of_isTag htag) cut
    rw [hrest, dollarOpening?_eq (dollar_not_mem_of_isTag hother), if_pos hother,
      if_pos htag] at hleft
    obtain ⟨htags, rfl⟩ := Prod.mk.inj (Option.some.inj hleft)
    obtain rfl : other = tag := List.append_cancel_right htags
    exact List.suffix_append body _

/-! ### Reading a text and what stands behind it -/

/-- A lexeme that is complete is read in the same way when more text follows. -/
theorem Lexeme.next_append {t : List Char} (ht : Breaks t) {c : Char} {rest : List Char}
    (hregion : ∀ region, (Lexeme.next c rest).1 = .region region → Terminated region) :
    Lexeme.next c (rest ++ t) = ((Lexeme.next c rest).1, (Lexeme.next c rest).2 ++ t) := by
  have hhead {d : Char} (hd : isBreak d = false) := ht.head?_append_eq_some_iff hd rest
  -- one case for each kind of lexeme, in the order in which the reader tries them
  by_cases hquote : c = '\'' ∨ c = '"'
  · simp only [Lexeme.next, if_pos hquote] at hregion ⊢
    obtain ⟨body, hbody⟩ := (hregion _ rfl).exists_body_of_quote hquote
    have hcut : splitQuoted c rest = (doubled c body ++ [c], (splitQuoted c rest).2) :=
      Prod.ext hbody rfl
    have hnext : t.head? ≠ some c := by
      rcases hquote with rfl | rfl <;> exact ht.head?_ne (by decide)
    rw [splitQuoted_append_right hcut hnext, hbody]
  by_cases hline : c = '-' ∧ rest.head? = some '-'
  · obtain ⟨rfl, hline⟩ := hline
    simp only [Lexeme.next, hhead (d := '-') (by decide), hline] at hregion ⊢
    have hsuffix := (hregion _ rfl).suffix_of_lineComment
    simp [splitAfter_append_right (by simp) hsuffix]
  by_cases hblock : c = '/' ∧ rest.head? = some '*'
  · obtain ⟨rfl, hblock⟩ := hblock
    cases rest with
    | nil => simp at hblock
    | cons d rest =>
      obtain rfl : d = '*' := by simpa using hblock
      simp only [Lexeme.next, Char.reduceEq, or_self, if_false, false_and,
        List.head?_cons, List.cons_append, and_self, if_true, List.tail_cons] at hregion ⊢
      have hsuffix := (hregion _ rfl).suffix_of_blockComment
      simp [splitAfter_append_right (by simp) hsuffix]
  by_cases hdollar : c = '$'
  · subst hdollar
    simp only [Lexeme.next, Char.reduceEq, or_self, if_false, false_and, if_true,
      dollarOpening?_append ht] at hregion ⊢
    cases hopening : dollarOpening? rest with
    | none => rfl
    | some opening =>
      obtain ⟨delimiter, body⟩ := opening
      obtain ⟨tag, htag, rfl, -⟩ := exists_tag_of_dollarOpening? hopening
      rw [hopening] at hregion
      have hsuffix := (hregion _ rfl)
      simp only [List.append_assoc, List.singleton_append] at hsuffix
      have hcut := splitAfter_append_right (by simp) (hsuffix.suffix_of_dollarQuoted htag) t
      simp [hcut]
  by_cases hmark : c = '?'
  · subst hmark
    simp only [Lexeme.next, hhead (d := '?') (by decide), Char.reduceEq, or_self, if_false,
      false_and, if_true]
    by_cases hdouble : rest.head? = some '?'
    · cases rest with
      | nil => simp at hdouble
      | cons d rest => simp_all
    · simp [hdouble]
  · -- a character that starts nothing, not even together with the first one of `t`
    have hminus : ¬ (c = '-' ∧ (rest ++ t).head? = some '-') := by
      rwa [hhead (d := '-') (by decide)]
    have hslash : ¬ (c = '/' ∧ (rest ++ t).head? = some '*') := by
      rwa [hhead (d := '*') (by decide)]
    simp only [Lexeme.next, if_neg hquote, if_neg hline, if_neg hminus, if_neg hblock,
      if_neg hslash, if_neg hdollar, if_neg hmark]

/-- A closed text is read in the same way when a breaking text follows, which is then read as if
it stood alone. -/
theorem lexemes_append {s t : List Char} (hs : Closed s) (ht : Breaks t) :
    lexemes (s ++ t) = lexemes s ++ lexemes t := by
  fun_induction lexemes s with
  | case1 => rfl
  | case2 c rest ih =>
    have hnext : Lexeme.next c (rest ++ t) =
        ((Lexeme.next c rest).1, (Lexeme.next c rest).2 ++ t) := by
      refine Lexeme.next_append ht ?_
      intro region hregion
      refine hs region ?_
      rw [lexemes, hregion]
      exact List.mem_cons_self
    have hrest : Closed (Lexeme.next c rest).2 := by
      intro region hregion
      refine hs region ?_
      rw [lexemes]
      exact List.mem_cons_of_mem _ hregion
    rw [List.cons_append, lexemes, hnext, ih hrest, List.cons_append]

theorem Closed.append {s t : List Char} (hs : Closed s) (ht : Closed t) (hbreaks : Breaks t) :
    Closed (s ++ t) := by
  intro region hregion
  rw [lexemes_append hs hbreaks, List.mem_append] at hregion
  rcases hregion with hregion | hregion
  · exact hs region hregion
  · exact ht region hregion

end PgToolkit.Sql
