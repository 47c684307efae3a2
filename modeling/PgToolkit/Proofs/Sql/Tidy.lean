import PgToolkit.Proofs.Outcome
import PgToolkit.Proofs.Sql.Region
import PgToolkit.Sql.Identifier

/-!
# Tidy text

The text that a statement gets from names, literals and keywords is tidy: outside of its quoted
tokens there is nothing that opens a region, marks a value or ends a statement. Such a text can be
put in front of others, and reading it gives it back unchanged.
-/

namespace PgToolkit.Sql

/-- A character that opens no region, is no mark, and ends no statement. -/
def isInert (c : Char) : Bool :=
  !(['\'', '"', '-', '/', '$', '?', ';'].contains c)

theorem isInert_iff {c : Char} : isInert c = true ↔
    c ≠ '\'' ∧ c ≠ '"' ∧ c ≠ '-' ∧ c ≠ '/' ∧ c ≠ '$' ∧ c ≠ '?' ∧ c ≠ ';' := by
  simp [isInert]

/-- A text of inert characters, such as a keyword or a separator. -/
def Inert (text : List Char) : Prop :=
  ∀ c ∈ text, isInert c = true

instance (text : List Char) : Decidable (Inert text) :=
  decidable_of_iff (text.all isInert = true) List.all_eq_true

/-- Quoted tokens with inert characters between them. A minus sign may stand before an inert
character, as in a negative number or an arrow. -/
inductive Tidy : List Char → Prop
  | nil : Tidy []
  | plain {c : Char} {rest : List Char} (hc : isInert c = true) (hrest : Tidy rest) :
    Tidy (c :: rest)
  | minus {c : Char} {rest : List Char} (hc : isInert c = true) (hrest : Tidy rest) :
    Tidy ('-' :: c :: rest)
  | token {quote : Char} {rest : List Char} (body : List Char)
    (hquote : quote = '\'' ∨ quote = '"') (hhead : rest.head? ≠ some quote) (hrest : Tidy rest) :
    Tidy (quote :: (doubled quote body ++ quote :: rest))

/-- A text that does not start with a quote. -/
def Unquoted (text : List Char) : Prop :=
  text.head? ≠ some '\'' ∧ text.head? ≠ some '"'

theorem Unquoted.head?_ne {t : List Char} (ht : Unquoted t) {quote : Char}
    (hquote : quote = '\'' ∨ quote = '"') : t.head? ≠ some quote := by
  rcases hquote with rfl | rfl
  · exact ht.1
  · exact ht.2

theorem Breaks.unquoted {t : List Char} (ht : Breaks t) : Unquoted t :=
  ⟨ht.head?_ne (by decide), ht.head?_ne (by decide)⟩

/-- What starts with inert text does not start with a quote. -/
theorem Inert.unquoted_append {k : List Char} (hk : Inert k) (hne : k ≠ []) (t : List Char) :
    Unquoted (k ++ t) := by
  cases k with
  | nil => exact absurd rfl hne
  | cons c k =>
    obtain ⟨hsingle, hdouble, -⟩ := isInert_iff.1 (hk c (by simp))
    exact ⟨by simpa using hsingle, by simpa using hdouble⟩

/-! ### Joining tidy texts -/

/-- Tidy texts make up a tidy text, if the second one does not start with a quote. -/
theorem Tidy.append {s t : List Char} (hs : Tidy s) (ht : Tidy t) (hunquoted : Unquoted t) :
    Tidy (s ++ t) := by
  induction hs with
  | nil => exact ht
  | plain hc _ ih => exact .plain hc ih
  | minus hc _ ih => exact .minus hc ih
  | @token quote rest body hquote hhead _ ih =>
    have hnext : (rest ++ t).head? ≠ some quote := head?_append_ne hhead (hunquoted.head?_ne hquote)
    simpa using Tidy.token body hquote hnext ih

theorem Inert.tidy_append {k t : List Char} (hk : Inert k) (ht : Tidy t) : Tidy (k ++ t) := by
  induction k with
  | nil => exact ht
  | cons c k ih => exact .plain (hk c (by simp)) (ih fun d hd => hk d (by simp [hd]))

theorem Inert.tidy {k : List Char} (hk : Inert k) : Tidy k := by
  simpa using hk.tidy_append .nil

/-- Behind a separator a tidy text may start with a quote. -/
theorem Tidy.append_separator {s k t : List Char} (hs : Tidy s) (hk : Inert k) (hne : k ≠ [])
    (ht : Tidy t) : Tidy (s ++ k ++ t) := by
  rw [List.append_assoc]
  exact hs.append (hk.tidy_append ht) (hk.unquoted_append hne t)

/-- A tidy text that may stand behind any other. -/
structure TidyTail (text : List Char) : Prop where
  tidy : Tidy text
  unquoted : Unquoted text

theorem Tidy.append_tail {s t : List Char} (hs : Tidy s) (ht : TidyTail t) : Tidy (s ++ t) :=
  hs.append ht.tidy ht.unquoted

theorem Inert.tail {k : List Char} (hk : Inert k) : TidyTail k where
  tidy := hk.tidy
  unquoted := by
    cases k with
    | nil => simp [Unquoted]
    | cons c k => simpa using hk.unquoted_append (by simp) []

theorem Inert.tail_append {k t : List Char} (hk : Inert k) (hne : k ≠ []) (ht : Tidy t) :
    TidyTail (k ++ t) :=
  ⟨hk.tidy_append ht, hk.unquoted_append hne t⟩

/-! ### Reading tidy texts -/

/-- A text without placeholders and escaped marks. -/
def MarkFree (text : List Char) : Prop :=
  Lexeme.placeholder ∉ lexemes text ∧ Lexeme.escapedMark ∉ lexemes text

/-- An inert character is read as itself, whatever stands behind it. -/
theorem lexemes_cons_of_isInert {c : Char} (hc : isInert c = true) (rest : List Char) :
    lexemes (c :: rest) = .plain c :: lexemes rest := by
  obtain ⟨hsingle, hdouble, hminus, hslash, hdollar, hmark, -⟩ := isInert_iff.1 hc
  simp [lexemes, Lexeme.next, hsingle, hdouble, hminus, hslash, hdollar, hmark]

theorem lexemes_minus_cons {c : Char} (hc : isInert c = true) (rest : List Char) :
    lexemes ('-' :: c :: rest) = .plain '-' :: .plain c :: lexemes rest := by
  have hminus := (isInert_iff.1 hc).2.2.1
  rw [lexemes]
  simp [Lexeme.next, hminus, lexemes_cons_of_isInert hc]

theorem lexemes_token {quote : Char} (body : List Char) {rest : List Char}
    (hquote : quote = '\'' ∨ quote = '"') (hhead : rest.head? ≠ some quote) :
    lexemes (quote :: (doubled quote body ++ quote :: rest)) =
      .region (quote :: (doubled quote body ++ [quote])) :: lexemes rest := by
  rw [lexemes]
  simp only [Lexeme.next, if_pos hquote, splitQuoted_doubled body hhead]

/-- Inert text is read character by character, whatever stands behind it. -/
theorem lexemes_inert_append {k : List Char} (hk : Inert k) (t : List Char) :
    lexemes (k ++ t) = k.map .plain ++ lexemes t := by
  induction k with
  | nil => rfl
  | cons c k ih =>
    rw [List.cons_append, lexemes_cons_of_isInert (hk c (by simp)),
      ih fun d hd => hk d (by simp [hd])]
    rfl

theorem lexemes_of_inert {k : List Char} (hk : Inert k) : lexemes k = k.map .plain := by
  have hread := lexemes_inert_append hk []
  rwa [List.append_nil, lexemes, List.append_nil] at hread

/-- A tidy text is read in the same way when more text follows, unless two quotes meet. -/
theorem Tidy.lexemes_append {s t : List Char} (hs : Tidy s) (ht : Unquoted t) :
    lexemes (s ++ t) = lexemes s ++ lexemes t := by
  induction hs with
  | nil => simp [lexemes]
  | plain hc _ ih =>
    rw [List.cons_append, lexemes_cons_of_isInert hc, lexemes_cons_of_isInert hc, ih,
      List.cons_append]
  | @minus c rest hc _ ih =>
    rw [List.cons_append, List.cons_append, lexemes_minus_cons hc, lexemes_minus_cons hc, ih,
      List.cons_append, List.cons_append]
  | @token quote rest body hquote hhead _ ih =>
    have hnext : (rest ++ t).head? ≠ some quote := head?_append_ne hhead (ht.head?_ne hquote)
    rw [lexemes_token body hquote hhead, List.cons_append, List.append_assoc, List.cons_append,
      lexemes_token body hquote hnext, ih, List.cons_append]

theorem Tidy.closed {s : List Char} (hs : Tidy s) : Closed s := by
  intro region hregion
  induction hs with
  | nil => simp [lexemes] at hregion
  | plain hc _ ih =>
    rw [lexemes_cons_of_isInert hc] at hregion
    exact ih (by simpa using hregion)
  | minus hc _ ih =>
    rw [lexemes_minus_cons hc] at hregion
    exact ih (by simpa using hregion)
  | token body hquote hhead _ ih =>
    rw [lexemes_token body hquote hhead] at hregion
    rcases List.mem_cons.1 hregion with heq | hlater
    · obtain rfl := Lexeme.region.inj heq
      exact .quoted body hquote
    · exact ih hlater

theorem Tidy.markFree {s : List Char} (hs : Tidy s) : MarkFree s := by
  induction hs with
  | nil => simp [MarkFree, lexemes]
  | plain hc _ ih => simpa [MarkFree, lexemes_cons_of_isInert hc] using ih
  | minus hc _ ih => simpa [MarkFree, lexemes_minus_cons hc] using ih
  | token body hquote hhead _ ih => simpa [MarkFree, lexemes_token body hquote hhead] using ih

/-! ### Names and literals -/

theorem tidy_quoted {quote : Char} (hquote : quote = '\'' ∨ quote = '"') (text : String) :
    Tidy (quoted quote text).toList := by
  rw [quoted, String.toList_ofList]
  exact .token text.toList hquote (by simp) .nil

theorem tidy_literal (text : String) : Tidy (literal text).toList :=
  tidy_quoted (.inl rfl) text

theorem tidy_quotedName (text : String) : Tidy (quotedName text).toList :=
  tidy_quoted (.inr rfl) text

theorem tidy_intercalate {separator : String} (hinert : Inert separator.toList)
    (hne : separator.toList ≠ []) {texts : List String} (htexts : ∀ s ∈ texts, Tidy s.toList) :
    Tidy (separator.intercalate texts).toList := by
  rw [String.toList_intercalate]
  induction texts with
  | nil => exact .nil
  | cons s texts ih =>
    have hs : Tidy s.toList := htexts s (by simp)
    cases texts with
    | nil => simpa using hs
    | cons t texts =>
      have hrest := ih fun u hu => htexts u (List.mem_cons_of_mem _ hu)
      simp only [List.map_cons, List.intercalate_cons_cons] at hrest ⊢
      exact hs.append_separator hinert hne hrest

/-- The names that are written as they are hold inert characters only. -/
theorem inert_of_isVerbatim {name : String} (h : isVerbatim name = true) : Inert name.toList := by
  simp only [isVerbatim, Bool.or_eq_true, decide_eq_true_eq] at h
  rcases h with rfl | h
  · decide
  · intro c hc
    have hlower : c.toLower ∈ "count(*)".toList := by
      rw [← h, String.toList_map]
      exact List.mem_map_of_mem hc
    by_contra hspecial
    have hmem : c ∈ ['\'', '"', '-', '/', '$', '?', ';'] := by
      simpa only [isInert, Bool.not_eq_true, Bool.not_eq_false', List.contains_iff_mem]
        using hspecial
    -- Case only matters for letters, so a special character would stand in `count(*)` itself.
    simp only [List.mem_cons, List.not_mem_nil, or_false] at hmem
    revert hlower
    rcases hmem with rfl | rfl | rfl | rfl | rfl | rfl | rfl <;> decide

/-- The segments of a name are written as quoted identifiers or as a star. -/
theorem eq_of_mem_quoteSegments {isFirst : Bool} {parts : List String} {sql : String}
    (h : sql ∈ quoteSegments isFirst parts) : sql = "*" ∨ ∃ part, sql = quotedName part := by
  fun_induction quoteSegments isFirst parts with
  | case1 => simp at h
  | case2 isFirst segment hstar => exact .inl (by simpa using h)
  | case3 isFirst segment hstar => exact .inr ⟨segment, by simpa using h⟩
  | case4 isFirst segment rest hrest ih =>
    rcases List.mem_cons.1 h with rfl | h
    · exact .inr ⟨segment, rfl⟩
    · exact ih h

/-- A name is refused for three faults. Otherwise it is written as it is, or as its segments. -/
theorem quoteIdentifier_eq_ok_iff {name sql : String} : quoteIdentifier name = .ok sql ↔
    name ≠ "" ∧ '\x00' ∉ name.toList ∧
      (isVerbatim name = true ∧ sql = name ∨ isVerbatim name = false ∧ "" ∉ segments name ∧
        sql = ".".intercalate (quoteSegments true (segments name))) := by
  rw [quoteIdentifier, ite_error_eq_ok_iff, ite_error_eq_ok_iff, String.isEmpty_iff,
    List.contains_iff_mem, @eq_comm _ sql, @eq_comm _ sql]
  cases isVerbatim name with
  | true => simp
  | false => simp [ite_error_eq_ok_iff]

theorem quoteIdentifier_cases {name sql : String} (h : quoteIdentifier name = .ok sql) :
    isVerbatim name = true ∧ sql = name ∨
      isVerbatim name = false ∧ sql = ".".intercalate (quoteSegments true (segments name)) := by
  obtain ⟨-, -, hverbatim | ⟨hquoted, -, hsegments⟩⟩ := quoteIdentifier_eq_ok_iff.1 h
  · exact .inl hverbatim
  · exact .inr ⟨hquoted, hsegments⟩

theorem tidy_quoteIdentifier {name sql : String} (h : quoteIdentifier name = .ok sql) :
    Tidy sql.toList := by
  rcases quoteIdentifier_cases h with ⟨hverbatim, rfl⟩ | ⟨-, rfl⟩
  · exact (inert_of_isVerbatim hverbatim).tidy
  · refine tidy_intercalate (by decide) (by decide) fun s hs => ?_
    rcases eq_of_mem_quoteSegments hs with rfl | ⟨part, rfl⟩
    · exact Inert.tidy (by decide)
    · exact tidy_quotedName part

theorem tidy_quoteIdentifiers {names : List String} {sql : String}
    (h : quoteIdentifiers names = .ok sql) : Tidy sql.toList := by
  simp only [quoteIdentifiers, bind_eq_ok_iff, pure_eq_ok_iff] at h
  obtain ⟨texts, htexts, rfl⟩ := h
  refine tidy_intercalate (by decide) (by decide) fun s hs => ?_
  obtain ⟨name, -, hname⟩ := exists_mem_of_mapM_eq_ok htexts hs
  exact tidy_quoteIdentifier hname

end PgToolkit.Sql
