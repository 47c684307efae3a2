import PgToolkit.Proofs.Sql.Tidy

/-!
# Quoted tokens in a text

A second reading of SQL text that knows quoted tokens only: a token ends at the first quote that is
not doubled, and a doubled quote stands for one. What is left when the contents of the tokens are
erased is the structure of the statement.
-/

namespace PgToolkit.Sql

/-- An element of a text that is read for its quoted tokens. -/
inductive QuoteToken where
  | plain (c : Char)
  /-- A token that is closed, with its content. -/
  | quoted (quote : Char) (content : List Char)
  /-- A token whose closing quote is missing. -/
  | unclosed (quote : Char) (rest : List Char)
  deriving DecidableEq, Repr

/-- The content of a token, behind whose opening quote the text stands, and the text behind its
closing quote. A doubled quote is read as one. -/
def readQuoted (quote : Char) : List Char → Option (List Char × List Char)
  | [] => none
  | c :: rest =>
    if c = quote then
      match rest with
      | [] => some ([], [])
      | d :: rest =>
        if d = quote then (readQuoted quote rest).map fun read => (quote :: read.1, read.2)
        else some ([], d :: rest)
    else (readQuoted quote rest).map fun read => (c :: read.1, read.2)

/-- The content that is read, written as a token again, is the text it was read from. -/
theorem doubled_of_readQuoted {quote : Char} {text content rest : List Char}
    (h : readQuoted quote text = some (content, rest)) :
    doubled quote content ++ quote :: rest = text := by
  fun_induction readQuoted quote text generalizing content with
  | case1 => simp at h
  | case2 => simp_all
  | case3 tail ih =>
    obtain ⟨⟨inner, behind⟩, hinner, heq⟩ := Option.map_eq_some_iff.1 h
    obtain ⟨rfl, rfl⟩ := Prod.mk.inj heq
    simpa [doubled_cons] using ih hinner
  | case4 d tail hd =>
    obtain ⟨rfl, rfl⟩ := Prod.mk.inj (Option.some.inj h)
    rfl
  | case5 c tail hc ih =>
    obtain ⟨⟨inner, behind⟩, hinner, heq⟩ := Option.map_eq_some_iff.1 h
    obtain ⟨rfl, rfl⟩ := Prod.mk.inj heq
    simpa [doubled_cons, hc] using ih hinner

theorem length_lt_of_readQuoted {quote : Char} {text content rest : List Char}
    (h : readQuoted quote text = some (content, rest)) : rest.length < text.length := by
  rw [← doubled_of_readQuoted h]
  simp
  omega

/-- The reading of a text as plain characters and quoted tokens. -/
def quoteTokens : List Char → List QuoteToken
  | [] => []
  | c :: rest =>
    if c = '\'' ∨ c = '"' then
      match _hread : readQuoted c rest with
      | some (content, behind) => .quoted c content :: quoteTokens behind
      | none => [.unclosed c rest]
    else .plain c :: quoteTokens rest
termination_by text => text.length
decreasing_by
  · exact Nat.lt_succ_of_lt (length_lt_of_readQuoted _hread)
  · exact Nat.lt_succ_self _

/-- The characters that a token was read from. -/
def QuoteToken.source : QuoteToken → List Char
  | .plain c => [c]
  | .quoted quote content => quote :: (doubled quote content ++ [quote])
  | .unclosed quote rest => quote :: rest

/-- A token without its content. -/
def QuoteToken.outline : QuoteToken → List Char
  | .plain c => [c]
  | .quoted quote _ => [quote, quote]
  | .unclosed quote _ => [quote]

/-- A text from whose quoted tokens the contents are erased. -/
def outline (text : List Char) : List Char :=
  (quoteTokens text).flatMap QuoteToken.outline

/-- Nothing of a text is lost by reading it. -/
theorem source_quoteTokens (text : List Char) :
    (quoteTokens text).flatMap QuoteToken.source = text := by
  fun_induction quoteTokens text with
  | case1 => rfl
  | case2 c rest hquote content behind hread ih =>
    rw [List.flatMap_cons, ih, ← doubled_of_readQuoted hread]
    simp [QuoteToken.source]
  | case3 c rest hquote hread => simp [QuoteToken.source]
  | case4 c rest hquote ih => simp [QuoteToken.source, ih]

/-! ### The reading of tidy texts -/

theorem readQuoted_doubled {quote : Char} (body : List Char) {rest : List Char}
    (hrest : rest.head? ≠ some quote) :
    readQuoted quote (doubled quote body ++ quote :: rest) = some (body, rest) := by
  induction body with
  | nil =>
    cases rest with
    | nil => simp [readQuoted]
    | cons d rest =>
      have hd : d ≠ quote := by simpa using hrest
      simp [readQuoted, hd]
  | cons c body ih =>
    rw [doubled_cons]
    by_cases hc : c = quote
    · simp [readQuoted, hc, ih]
    · rw [if_neg hc, List.singleton_append, List.cons_append, readQuoted.eq_def]
      simp [hc, ih]

theorem quoteTokens_plain {c : Char} (hsingle : c ≠ '\'') (hdouble : c ≠ '"') (rest : List Char) :
    quoteTokens (c :: rest) = .plain c :: quoteTokens rest := by
  rw [quoteTokens]
  simp [hsingle, hdouble]

theorem quoteTokens_cons_of_isInert {c : Char} (hc : isInert c = true) (rest : List Char) :
    quoteTokens (c :: rest) = .plain c :: quoteTokens rest := by
  obtain ⟨hsingle, hdouble, -⟩ := isInert_iff.1 hc
  exact quoteTokens_plain hsingle hdouble rest

theorem quoteTokens_minus_cons {c : Char} (hc : isInert c = true) (rest : List Char) :
    quoteTokens ('-' :: c :: rest) = .plain '-' :: .plain c :: quoteTokens rest := by
  rw [quoteTokens_plain (by decide) (by decide), quoteTokens_cons_of_isInert hc]

theorem quoteTokens_token {quote : Char} (body : List Char) {rest : List Char}
    (hquote : quote = '\'' ∨ quote = '"') (hhead : rest.head? ≠ some quote) :
    quoteTokens (quote :: (doubled quote body ++ quote :: rest)) =
      .quoted quote body :: quoteTokens rest := by
  rw [quoteTokens, if_pos hquote]
  split
  · next content behind hread =>
    rw [readQuoted_doubled body hhead] at hread
    obtain ⟨rfl, rfl⟩ := Prod.mk.inj (Option.some.inj hread)
    rfl
  · next hread =>
    rw [readQuoted_doubled body hhead] at hread
    simp at hread

theorem quoteTokens_inert_append {k : List Char} (hk : Inert k) (t : List Char) :
    quoteTokens (k ++ t) = quoteTokens k ++ quoteTokens t := by
  induction k with
  | nil => simp [quoteTokens]
  | cons c k ih =>
    have hc := hk c (by simp)
    rw [List.cons_append, quoteTokens_cons_of_isInert hc, quoteTokens_cons_of_isInert hc,
      ih fun d hd => hk d (by simp [hd]), List.cons_append]

/-- A tidy text is read in the same way when more text follows, unless two quotes meet. -/
theorem Tidy.quoteTokens_append {s t : List Char} (hs : Tidy s) (ht : Unquoted t) :
    quoteTokens (s ++ t) = quoteTokens s ++ quoteTokens t := by
  induction hs with
  | nil => simp [quoteTokens]
  | plain hc _ ih =>
    rw [List.cons_append, quoteTokens_cons_of_isInert hc, quoteTokens_cons_of_isInert hc, ih,
      List.cons_append]
  | @minus c rest hc _ ih =>
    rw [List.cons_append, List.cons_append, quoteTokens_minus_cons hc, quoteTokens_minus_cons hc,
      ih, List.cons_append, List.cons_append]
  | @token quote rest body hquote hhead _ ih =>
    have hnext : (rest ++ t).head? ≠ some quote := head?_append_ne hhead (ht.head?_ne hquote)
    rw [quoteTokens_token body hquote hhead, List.cons_append, List.append_assoc, List.cons_append,
      quoteTokens_token body hquote hnext, ih, List.cons_append]

/-- Every token of a tidy text is closed, and no semicolon or slash stands outside of them. -/
theorem Tidy.forall_quoteTokens {s : List Char} (hs : Tidy s) :
    ∀ token ∈ quoteTokens s, (∀ quote rest, token ≠ .unclosed quote rest) ∧
      token ≠ .plain ';' ∧ token ≠ .plain '/' := by
  have hplain {c : Char} (hc : isInert c = true) : (∀ quote rest,
      QuoteToken.plain c ≠ .unclosed quote rest) ∧ QuoteToken.plain c ≠ .plain ';' ∧
        QuoteToken.plain c ≠ .plain '/' := by
    obtain ⟨-, -, -, hslash, -, -, hsemicolon⟩ := isInert_iff.1 hc
    simp [hslash, hsemicolon]
  induction hs with
  | nil => simp [quoteTokens]
  | plain hc _ ih =>
    rw [quoteTokens_cons_of_isInert hc]
    exact List.forall_mem_cons.2 ⟨hplain hc, ih⟩
  | minus hc _ ih =>
    rw [quoteTokens_minus_cons hc]
    exact List.forall_mem_cons.2 ⟨by simp, List.forall_mem_cons.2 ⟨hplain hc, ih⟩⟩
  | token body hquote hhead _ ih =>
    rw [quoteTokens_token body hquote hhead]
    exact List.forall_mem_cons.2 ⟨by simp, ih⟩

/-- Outside of the tokens of a tidy text no two minus signs stand next to each other. -/
theorem Tidy.no_minus_minus {s : List Char} (hs : Tidy s) :
    ¬ [.plain '-', .plain '-'] <:+: quoteTokens s := by
  induction hs with
  | nil => simp [quoteTokens]
  | plain hc _ ih =>
    have hminus := (isInert_iff.1 hc).2.2.1
    rw [quoteTokens_cons_of_isInert hc, List.infix_cons_iff]
    rintro (h | h)
    · exact hminus (by simpa using (List.cons_prefix_cons.1 h).1.symm)
    · exact ih h
  | minus hc _ ih =>
    -- the character behind the sign is inert, so the pair starts neither at the sign nor behind it
    have hminus := (isInert_iff.1 hc).2.2.1
    rw [quoteTokens_minus_cons hc, List.infix_cons_iff, List.infix_cons_iff]
    rintro (h | h | h)
    · exact hminus (by simpa using (List.cons_prefix_cons.1 (List.cons_prefix_cons.1 h).2).1.symm)
    · exact hminus (by simpa using (List.cons_prefix_cons.1 h).1.symm)
    · exact ih h
  | token body hquote hhead _ ih =>
    rw [quoteTokens_token body hquote hhead, List.infix_cons_iff]
    rintro (h | h)
    · simpa using (List.cons_prefix_cons.1 h).1
    · exact ih h

theorem Tidy.outline_append {s t : List Char} (hs : Tidy s) (ht : Unquoted t) :
    outline (s ++ t) = outline s ++ outline t := by
  simp only [outline, hs.quoteTokens_append ht, List.flatMap_append]

theorem outline_inert_append {k : List Char} (hk : Inert k) (t : List Char) :
    outline (k ++ t) = outline k ++ outline t := by
  simp only [outline, quoteTokens_inert_append hk, List.flatMap_append]

theorem outline_quoted {quote : Char} (hquote : quote = '\'' ∨ quote = '"') (text : String) :
    outline (quoted quote text).toList = [quote, quote] := by
  rw [quoted, String.toList_ofList, outline, quoteTokens_token _ hquote (by simp), quoteTokens]
  rfl

end PgToolkit.Sql
