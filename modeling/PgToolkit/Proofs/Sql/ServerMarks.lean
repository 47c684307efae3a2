import PgToolkit.Proofs.Sql.ServerText

/-!
# Marks that the server would see

The reading of a text into opaque regions is compared with the reading by the server. Element by
element, the two find the same characters outside of every region, provided that the element is read
alike. So the marks that are numbered are the ones that the server would see as operators.
-/

namespace PgToolkit.Sql

variable {c quote : Char} {rest : List Char}

/-- The characters of a lexeme, each with whether it is outside of every opaque region. -/
def Lexeme.marked : Lexeme → List (Char × Bool)
  | .region text => text.map (·, false)
  | l => l.source.map (·, true)

/-- The characters of a text, each with whether it is outside of every opaque region. -/
def marked (text : List Char) : List (Char × Bool) :=
  (lexemes text).flatMap Lexeme.marked

/-! ### What becomes of the marks -/

theorem map_fst_marked (text : List Char) : (marked text).map Prod.fst = text := by
  have hfst (l : Lexeme) : l.marked.map Prod.fst = l.source := by
    cases l <;> simp [Lexeme.marked, Lexeme.source, Function.comp_def]
  simp only [marked, List.map_flatMap, hfst, flatMap_source_lexemes]

/-- A text that starts with no question mark does not start with one outside of every region. -/
theorem Reading.head?_marked_ne {text : List Char} {ls : List Lexeme} (h : Reading text ls)
    (hhead : text.head? ≠ some '?') : (ls.flatMap Lexeme.marked).head? ≠ some outsideMark := by
  intro hmark
  refine hhead ?_
  rw [← map_fst_marked text, List.head?_map, marked, ← h.eq_lexemes, hmark]
  rfl

theorem numberedFrom_region (used : Nat) (region : List Char) (rest : List (Char × Bool)) :
    numberedFrom used (region.map (·, false) ++ rest) = region ++ numberedFrom used rest := by
  induction region with
  | nil => rfl
  | cons c region ih =>
    rw [List.map_cons, List.cons_append, numberedFrom_cons (by simp [outsideMark]), ih]
    rfl

theorem singleMarks_region (region : List Char) (rest : List (Char × Bool)) :
    singleMarks (region.map (·, false) ++ rest) = singleMarks rest := by
  induction region with
  | nil => rfl
  | cons c region ih =>
    rw [List.map_cons, List.cons_append, singleMarks_cons (by simp [outsideMark]), ih]

/-- A text is rewritten at its marks outside of the opaque regions, and the single ones among them
are its placeholders. -/
theorem Reading.numberedFrom_marked {text : List Char} {ls : List Lexeme} (h : Reading text ls)
    (used : Nat) :
    renderFrom used ls = numberedFrom used (ls.flatMap Lexeme.marked) ∧
      ls.count .placeholder = singleMarks (ls.flatMap Lexeme.marked) := by
  induction h generalizing used with
  | nil => exact ⟨rfl, rfl⟩
  | @region region rest ls _ _ ih =>
    obtain ⟨hrender, hcount⟩ := ih used
    rw [renderFrom, hrender, List.count_cons_of_ne (by simp), hcount]
    exact ⟨(numberedFrom_region used region _).symm, (singleMarks_region region _).symm⟩
  | @escapedMark rest ls _ ih =>
    obtain ⟨hrender, hcount⟩ := ih used
    rw [renderFrom, hrender, List.count_cons_of_ne (by simp), hcount]
    exact ⟨(numberedFrom_pair used _).symm, (singleMarks_pair _).symm⟩
  | @placeholder rest ls hsingle hrest ih =>
    obtain ⟨hrender, hcount⟩ := ih (used + 1)
    have hhead := hrest.head?_marked_ne hsingle
    rw [renderFrom, hrender, List.count_cons_self, hcount]
    exact ⟨(numberedFrom_single hhead used).symm, (singleMarks_single hhead).symm⟩
  | @plain c rest ls hmark _ _ ih =>
    obtain ⟨hrender, hcount⟩ := ih used
    have hc : (c, true) ≠ outsideMark := by simp [outsideMark, hmark]
    rw [renderFrom, hrender, List.count_cons_of_ne (by simp), hcount]
    exact ⟨(numberedFrom_cons hc used _).symm, (singleMarks_cons hc _).symm⟩

/-! ### Reading one element -/

theorem marked_nil : marked [] = [] := by
  simp [marked, lexemes]

theorem marked_cons (c : Char) (rest : List Char) :
    marked (c :: rest) = (Lexeme.next c rest).1.marked ++ marked (Lexeme.next c rest).2 := by
  rw [marked, lexemes, List.flatMap_cons, marked]

/-- An opaque region is read as a whole. -/
theorem Opaque.marked_append {region : List Char} (h : Opaque region rest) :
    marked (region ++ rest) = region.map (·, false) ++ marked rest := by
  cases hsource : region ++ rest with
  | nil =>
    have hnil := (List.append_eq_nil_iff.1 hsource).1
    cases h with
    | _ => cases hnil
  | cons c text => rw [marked_cons, h.next_eq hsource, Lexeme.marked]

/-- A character that opens no region is outside of every region, a question mark too: what is read
together with it is another question mark. -/
theorem OpensNone.marked_cons {c : Char} {rest : List Char} (h : OpensNone c rest) :
    marked (c :: rest) = (c, true) :: marked rest := by
  have hread := read_next c rest
  rw [Sql.marked_cons]
  generalize Lexeme.next c rest = next at hread
  obtain ⟨l, behind⟩ := next
  cases hread with
  | region hregion hsource => exact absurd hsource (opensNone_iff.1 h _ _ hregion)
  | @escapedMark behind hmark hrest =>
    subst hmark hrest
    have hmark : OpensNone '?' behind := by constructor <;> simp
    rw [OpensNone.marked_cons hmark]
    rfl
  | placeholder hmark _ =>
    subst hmark
    rfl
  | plain _ _ => rfl
termination_by rest.length
decreasing_by simp_all

/-- Characters of which none opens a region, with `rest` behind them. -/
theorem marked_append_of_opensNone (text rest : List Char)
    (h : ∀ front c back, text = front ++ c :: back → OpensNone c (back ++ rest)) :
    marked (text ++ rest) = text.map (·, true) ++ marked rest := by
  induction text with
  | nil => rfl
  | cons c text ih =>
    have hc : OpensNone c (text ++ rest) := h [] c text rfl
    rw [List.cons_append, hc.marked_cons, ih]
    · rfl
    · rintro front d back rfl
      exact h (c :: front) d back rfl

/-! ### Words and numbers -/

theorem isNamePart_of_isTagPart (h : isTagPart c = true) : isNamePart c = true := by
  simp [isNamePart, h]

theorem isNamePart_of_isNameStart (h : isNameStart c = true) : isNamePart c = true := by
  simp only [isNameStart, isNamePart, Bool.or_eq_true] at h ⊢
  exact h.imp_left isTagPart_of_isTagStart

theorem isNamePart_of_isDigit (h : c.isDigit = true) : isNamePart c = true := by
  simp [isNamePart, isTagPart, Char.isAlphanum, h]

theorem isWordPart_of_isNamePart (h : isNamePart c = true) : isWordPart c = true := by
  simp [isWordPart, h]

theorem not_isWordPart (h : isWordPart c = false) : c ≠ '$' ∧ isTagPart c = false := by
  simp only [isWordPart, isNamePart, Bool.or_eq_false_iff, decide_eq_false_iff_not] at h
  exact ⟨h.2, h.1.1⟩

/-- A part of a name opens no region. -/
theorem opensNone_of_isNamePart (h : isNamePart c = true) (text : List Char) :
    OpensNone c text := by
  have hne (d : Char) (hd : isNamePart d = false) : c ≠ d := by
    rintro rfl
    simp [h] at hd
  exact {
    quote := by
      rintro (hc | hc)
      · exact hne '\'' (by decide) hc
      · exact hne '"' (by decide) hc
    line := fun hc => hne '-' (by decide) hc.1
    block := fun hc => hne '/' (by decide) hc.1
    dollar := fun hc => absurd hc (hne '$' (by decide)) }

theorem dollarOpening?_of_opensDollarQuote {front back : List Char}
    (h : opensDollarQuote (front ++ '$' :: back) = false) : dollarOpening? back = none := by
  induction front with
  | nil =>
    simp only [List.nil_append, opensDollarQuote, Bool.or_eq_false_iff] at h
    simpa using h.1
  | cons c front ih =>
    simp only [List.cons_append, opensDollarQuote, Bool.or_eq_false_iff] at h
    exact ih h.2

/-- In a word, no dollar sign opens a region if it does not within the word. -/
theorem marked_word {word : List Char} (hword : ∀ c ∈ word, isWordPart c = true)
    (hrest : ∀ c ∈ rest.head?, isWordPart c = false) (hdollar : opensDollarQuote word = false) :
    marked (word ++ rest) = word.map (·, true) ++ marked rest := by
  refine marked_append_of_opensNone word rest ?_
  rintro front c back rfl
  by_cases hc : c = '$'
  · subst hc
    have hnone : dollarOpening? (back ++ rest) = none := by
      rw [dollarOpening?_append_of_head? fun c hc => not_isWordPart (hrest c hc),
        dollarOpening?_of_opensDollarQuote hdollar]
      rfl
    constructor <;> simp [hnone]
  · refine opensNone_of_isNamePart ?_ _
    simpa [isWordPart, hc] using hword c (by simp)

theorem marked_number {number : List Char} (h : ∀ c ∈ number, isNamePart c = true)
    (rest : List Char) : marked (number ++ rest) = number.map (·, true) ++ marked rest := by
  refine marked_append_of_opensNone number rest ?_
  rintro front c back rfl
  exact opensNone_of_isNamePart (h c (by simp)) _

/-! ### Strings and comments -/

theorem hasEscapedQuote_cons (hc : c ≠ '\\') (text : List Char) :
    hasEscapedQuote (c :: text) = hasEscapedQuote text := by
  cases text <;> simp [hasEscapedQuote, hc]

/-- Without an escaped quote, a backslash makes no difference to where a string ends. -/
theorem splitEscaped_eq_splitQuoted {text : List Char}
    (h : hasEscapedQuote (splitEscaped text).1 = false) :
    splitEscaped text = splitQuoted '\'' text := by
  fun_induction splitEscaped text with
  | case1 => rfl
  | case2 c => by_cases hc : c = '\'' <;> simp [splitQuoted, hc]
  | case3 c d rest hpair ih =>
    rcases hpair with rfl | ⟨rfl, rfl⟩
    · simp only [hasEscapedQuote, if_true, Bool.or_eq_false_iff, decide_eq_false_iff_not] at h
      rw [splitQuoted_of_ne (by decide), splitQuoted_of_ne h.1, ih h.2]
    · simp only [hasEscapedQuote, Char.reduceEq, if_false] at h
      rw [hasEscapedQuote_cons (by decide)] at h
      simp [splitQuoted, ih h]
  | case4 d rest hpair => rw [splitQuoted_quote (by simpa using hpair)]
  | case5 c d rest hpair hc ih =>
    have hback : c ≠ '\\' := fun hc => hpair (.inl hc)
    rw [hasEscapedQuote_cons hback] at h
    rw [splitQuoted_of_ne hc, ih h]

theorem splitAfter_of_not_prefix {stop : List Char} (h : ¬ stop <+: c :: rest) :
    splitAfter stop (c :: rest) = (c :: (splitAfter stop rest).1, (splitAfter stop rest).2) := by
  rw [splitAfter, if_neg fun hfirst => h (List.isPrefixOf_iff_prefix.1 hfirst)]

/-- A line comment that ends with a line feed ends there for both readers. -/
theorem splitLine_eq_splitAfter {text : List Char}
    (h : (splitLine text).1.getLast? ≠ some '\r') : splitLine text = splitAfter ['\n'] text := by
  fun_induction splitLine text with
  | case1 => rfl
  | case2 c =>
    by_cases hc : c = '\n'
    · simp [splitAfter, hc]
    · simp [splitAfter, Ne.symm hc]
  | case3 c d rest hpair =>
    obtain ⟨rfl, rfl⟩ := hpair
    simp [splitAfter]
  | case4 c d rest _ hend =>
    have hc : c = '\n' := by
      simp only [isLineEnd, Bool.or_eq_true, decide_eq_true_eq] at hend
      exact hend.resolve_right (by simpa using h)
    simp [splitAfter, hc]
  | case5 c d rest _ hend ih =>
    have hc : c ≠ '\n' := by
      rintro rfl
      exact hend rfl
    have hlast : (splitLine (d :: rest)).1.getLast? ≠ some '\r' := by
      intro hlast
      refine h ?_
      rw [List.getLast?_cons, hlast]
      rfl
    have hfirst : ¬ ['\n'] <+: c :: d :: rest := by simpa using hc.symm
    rw [ih hlast, splitAfter_of_not_prefix hfirst]

/-- A comment without another one inside ends for both readers at its first end. -/
theorem splitComment_eq_splitAfter {text : List Char}
    (h : ¬ ['/', '*'] <:+: (splitComment 0 text).1) :
    splitComment 0 text = splitAfter ['*', '/'] text := by
  generalize hdepth : 0 = depth at h ⊢
  fun_induction splitComment depth text with
  | case1 => rfl
  | case2 depth c => simp [splitAfter]
  | case3 depth c d rest hpair _ =>
    obtain ⟨rfl, rfl⟩ := hpair
    exact absurd (List.prefix_append ['/', '*'] _).isInfix h
  | case4 c d rest _ hpair =>
    obtain ⟨rfl, rfl⟩ := hpair
    simp [splitAfter]
  | case5 c d rest _ _ outer _ => simp at hdepth
  | case6 depth c d rest _ hpair ih =>
    have hinside := ih hdepth fun hnested =>
      h (List.IsInfix.trans hnested (List.infix_cons List.infix_rfl))
    have hfirst : ¬ ['*', '/'] <+: c :: d :: rest := by
      intro hfirst
      refine hpair ?_
      simpa [eq_comm] using hfirst
    rw [hinside, splitAfter_of_not_prefix hfirst]

/-! ### Dollar quotes -/

theorem isServerTag_of_isTag {tag : List Char} (h : isTag tag = true) : isServerTag tag = true := by
  cases tag with
  | nil => rfl
  | cons c tag =>
    simp only [isTag, isServerTag, Bool.and_eq_true, List.all_eq_true] at h ⊢
    exact ⟨by simp [isNameStart, h.1], fun d hd => isNamePart_of_isTagPart (h.2 d hd)⟩

/-- Where the server finds no dollar quote, there is none. -/
theorem dollarOpening?_of_serverOpening? {text : List Char} (h : serverOpening? text = none) :
    dollarOpening? text = none := by
  by_contra hsome
  obtain ⟨⟨delimiter, body⟩, hopening⟩ := Option.ne_none_iff_exists'.1 hsome
  obtain ⟨tag, htag, -, rfl⟩ := exists_tag_of_dollarOpening? hopening
  have hfree : ∀ c ∈ tag, (c != '$') = true := by
    intro c hc
    simp only [bne_iff_ne]
    rintro rfl
    exact dollar_not_mem_of_isTag htag hc
  simp [serverOpening?, List.takeWhile_append_of_pos hfree, List.dropWhile_append_of_pos hfree,
    isServerTag_of_isTag htag] at h

/-! ### The two readings -/

/-- What the server reads at a character. A quote alone is read by what stands in front of it; what
is read as a plain character opens no region. -/
inductive ServerRead : Char → List Char → ServerLexeme → List Char → Prop
  | word {c : Char} {rest : List Char} (hc : isNameStart c = true) :
    ServerRead c rest (.word (c :: rest.takeWhile isWordPart)) (rest.dropWhile isWordPart)
  | number {c : Char} {rest : List Char} (hc : c.isDigit = true) :
    ServerRead c rest (.number (c :: rest.takeWhile isNamePart)) (rest.dropWhile isNamePart)
  | escapeString (rest : List Char) :
    ServerRead '\'' rest (.escapeString (splitEscaped rest).1) (splitEscaped rest).2
  | quoted {quote : Char} (hquote : quote = '\'' ∨ quote = '"') (rest : List Char) :
    ServerRead quote rest (.quoted quote (splitQuoted quote rest).1) (splitQuoted quote rest).2
  | lineComment (rest : List Char) :
    ServerRead '-' ('-' :: rest) (.lineComment (splitLine rest).1) (splitLine rest).2
  | blockComment (rest : List Char) :
    ServerRead '/' ('*' :: rest) (.blockComment (splitComment 0 rest).1) (splitComment 0 rest).2
  | dollarQuoted (tag body : List Char) :
    ServerRead '$' (tag ++ '$' :: body)
      (.dollarQuoted tag (splitAfter ('$' :: (tag ++ ['$'])) body).1)
      (splitAfter ('$' :: (tag ++ ['$'])) body).2
  | plain {c : Char} {rest : List Char} (h : OpensNone c rest) : ServerRead c rest (.plain c) rest

theorem serverRead_next (behind : Behind) (c : Char) (rest : List Char) :
    ServerRead c rest (ServerLexeme.next behind c rest).1 (ServerLexeme.next behind c rest).2 := by
  unfold ServerLexeme.next
  split
  · next hstart => exact .word hstart
  split
  · next hdigit => exact .number hdigit
  split
  · next hescapes =>
    obtain ⟨rfl, -⟩ := hescapes
    exact .escapeString rest
  split
  · next hquote => exact .quoted hquote rest
  split
  · next hline =>
    obtain ⟨rfl, hline⟩ := hline
    obtain ⟨rest, rfl⟩ := List.head?_eq_some_iff.1 hline
    exact .lineComment rest
  split
  · next hblock =>
    obtain ⟨rfl, hblock⟩ := hblock
    obtain ⟨rest, rfl⟩ := List.head?_eq_some_iff.1 hblock
    exact .blockComment rest
  next hquote hline hblock =>
  split
  · next hdollar =>
    subst hdollar
    split
    · next tag body hopening =>
      obtain ⟨-, -, rfl⟩ := serverOpening?_eq_some hopening
      exact .dollarQuoted tag body
    · next hnone =>
      exact .plain ⟨hquote, hline, hblock, fun _ => dollarOpening?_of_serverOpening? hnone⟩
  · next hdollar => exact .plain ⟨hquote, hline, hblock, fun hc => absurd hc hdollar⟩

/-- Both readers come to the same end of an element that is read alike, and see the same in it. -/
theorem ServerRead.marked_cons {l : ServerLexeme} {text : List Char}
    (h : ServerRead c rest l text) (halike : l.ReadAlike) :
    marked (c :: rest) = l.marked ++ marked text := by
  cases h with
  | word hc =>
    have hword : ∀ d ∈ c :: rest.takeWhile isWordPart, isWordPart d = true := by
      refine List.forall_mem_cons.2 ⟨?_, fun d hd => List.mem_takeWhile_imp hd⟩
      exact isWordPart_of_isNamePart (isNamePart_of_isNameStart hc)
    have hrest : ∀ d ∈ (rest.dropWhile isWordPart).head?, isWordPart d = false := by
      intro d hd
      simpa [Option.mem_def.1 hd] using List.head?_dropWhile_not isWordPart rest
    have hmarked := marked_word hword hrest halike
    rwa [List.cons_append, List.takeWhile_append_dropWhile] at hmarked
  | number hc =>
    have hnumber : ∀ d ∈ c :: rest.takeWhile isNamePart, isNamePart d = true :=
      List.forall_mem_cons.2 ⟨isNamePart_of_isDigit hc, fun d hd => List.mem_takeWhile_imp hd⟩
    have hmarked := marked_number hnumber (rest.dropWhile isNamePart)
    rwa [List.cons_append, List.takeWhile_append_dropWhile] at hmarked
  | escapeString =>
    have hmarked := (opaque_of_quote (.inl rfl) rest).marked_append
    rwa [← splitEscaped_eq_splitQuoted halike, List.cons_append, splitEscaped_append] at hmarked
  | quoted hquote =>
    have hmarked := (opaque_of_quote hquote rest).marked_append
    rwa [List.cons_append, splitQuoted_append] at hmarked
  | lineComment rest =>
    have hmarked := (opaque_of_minus rest).marked_append
    rwa [← splitLine_eq_splitAfter halike, List.cons_append, List.cons_append,
      splitLine_append] at hmarked
  | blockComment rest =>
    have hmarked := (opaque_of_slash rest).marked_append
    rwa [← splitComment_eq_splitAfter halike, List.cons_append, List.cons_append,
      splitComment_append] at hmarked
  | dollarQuoted tag body =>
    have hmarked := (opaque_of_dollar halike body).marked_append
    rwa [List.cons_append, List.append_assoc, List.cons_append, splitAfter_append] at hmarked
  | plain hnone => exact hnone.marked_cons

/-- Both readers see the same marks outside of every region in a text whose elements are all read
alike. -/
theorem marked_eq_serverMarked {text : List Char}
    (h : ∀ l ∈ serverLexemes text, l.ReadAlike) : marked text = serverMarked text := by
  unfold serverLexemes at h
  rw [serverMarked, serverLexemes]
  generalize Behind.other = behind at h ⊢
  fun_induction serverLexemesFrom behind text with
  | case1 => exact marked_nil
  | case2 behind c rest ih =>
    rw [List.forall_mem_cons] at h
    rw [List.flatMap_cons, (serverRead_next behind c rest).marked_cons h.1, ih h.2]

/-! ### The text that is sent -/

/-- If no element of a text is read differently by the server, the marks that are changed are
exactly the ones that the server sees outside of every string, quoted name, comment and
dollar-quoted body, and the placeholders are the single ones among them. -/
theorem numberPlaceholders_serverMarked {sql : String}
    (h : ∀ l ∈ serverLexemes sql.toList, l.ReadAlike) :
    marked sql.toList = serverMarked sql.toList ∧
      numberPlaceholders sql = serverNumbered sql ∧
      countPlaceholders sql = singleMarks (serverMarked sql.toList) := by
  have hmarked := marked_eq_serverMarked h
  obtain ⟨hrender, hcount⟩ := (reading_lexemes sql.toList).numberedFrom_marked 0
  rw [← marked, hmarked] at hrender hcount
  exact ⟨hmarked, congrArg String.ofList hrender, hcount⟩

/-- A text with an element of every kind. -/
def mixedText : String :=
  "SELECT é$1, E'a\\\\?''' -- ?\n '\\\\', \"?\" /* '?' */, " ++
    "$t$ ? $t$, b ?? '?' FROM t WHERE c = 1e3?"

theorem numberPlaceholders_serverMarked_mixedText :
    (∀ l ∈ serverLexemes mixedText.toList, l.ReadAlike) ∧
      numberPlaceholders mixedText = "SELECT é$1, E'a\\\\?''' -- ?\n '\\\\', \"?\" /* '?' */, " ++
        "$t$ ? $t$, b ? '?' FROM t WHERE c = 1e3$1" ∧
      countPlaceholders mixedText = 1 := by
  have halike : ∀ l ∈ serverLexemes mixedText.toList, l.ReadAlike := by decide +kernel
  obtain ⟨-, hsql, hcount⟩ := numberPlaceholders_serverMarked halike
  refine ⟨halike, ?_, ?_⟩
  · rw [hsql]
    decide +kernel
  · rw [hcount]
    decide +kernel

/-- The marks that are changed are other ones than the server sees outside of every region where a
comment stands in a comment, a backslash escapes a quote, a dollar sign belongs to a name, the tag
of a dollar quote is not ASCII, or a line ends with a carriage return. -/
theorem numberPlaceholders_ne_serverNumbered :
    (numberPlaceholders "/* /* */ ? */ ?" = "/* /* */ $1 */ $2" ∧
      serverNumbered "/* /* */ ? */ ?" = "/* /* */ ? */ $1") ∧
    (numberPlaceholders "SELECT E'it\\'s ?', ?" = "SELECT E'it\\'s $1', ?" ∧
      serverNumbered "SELECT E'it\\'s ?', ?" = "SELECT E'it\\'s ?', $1") ∧
    (numberPlaceholders "SELECT a$b$, ? FROM t" = "SELECT a$b$, ? FROM t" ∧
      serverNumbered "SELECT a$b$, ? FROM t" = "SELECT a$b$, $1 FROM t") ∧
    (numberPlaceholders "SELECT $é$ ? $é$, ?" = "SELECT $é$ $1 $é$, $2" ∧
      serverNumbered "SELECT $é$ ? $é$, ?" = "SELECT $é$ ? $é$, $1") ∧
    numberPlaceholders "SELECT 1 -- one\r, ?" = "SELECT 1 -- one\r, ?" ∧
      serverNumbered "SELECT 1 -- one\r, ?" = "SELECT 1 -- one\r, $1" := by
  decide +kernel

end PgToolkit.Sql
