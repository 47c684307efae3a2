import PgToolkit.Proofs.Sql.Grammar

/-!
# How the server reads a text

The server has lexical rules of its own. Block comments nest, a dollar sign can be a part of a name,
the tag of a dollar quote is any name, and a backslash escapes what follows it in a string that
starts with `E'`. Such a string may go on behind a line break, so what a quote opens depends on what
stands in front of it.
-/

namespace PgToolkit.Sql

/-! ### Characters -/

/-- A letter, an underscore or a character that is not ASCII. -/
def isNameStart (c : Char) : Bool :=
  isTagStart c || decide (127 < c.val.toNat)

/-- A character that a name goes on with, or a digit. -/
def isNamePart (c : Char) : Bool :=
  isTagPart c || decide (127 < c.val.toNat)

/-- A character inside of a word: a dollar sign belongs to it too. -/
def isWordPart (c : Char) : Bool :=
  isNamePart c || c = '$'

/-- The end of a line. -/
def isLineEnd (c : Char) : Bool :=
  c = '\n' || c = '\r'

/-- A blank between two elements of a text. -/
def isSpace (c : Char) : Bool :=
  c = ' ' || c = '\t' || c = '\x0c' || c = '\x0b' || isLineEnd c

/-! ### Where elements end -/

/-- Cuts a text behind the quote that ends the string whose opening quote stands before the text.
A doubled quote stays inside, and so does whatever follows a backslash. -/
def splitEscaped : List Char → List Char × List Char
  | [] => ([], [])
  | [c] => ([c], [])
  | c :: d :: rest =>
    if c = '\\' ∨ c = '\'' ∧ d = '\'' then
      (c :: d :: (splitEscaped rest).1, (splitEscaped rest).2)
    else if c = '\'' then ([c], d :: rest)
    else (c :: (splitEscaped (d :: rest)).1, (splitEscaped (d :: rest)).2)

/-- Cuts a text behind the first end of a line: a line feed, a carriage return, or both. -/
def splitLine : List Char → List Char × List Char
  | [] => ([], [])
  | [c] => ([c], [])
  | c :: d :: rest =>
    if c = '\r' ∧ d = '\n' then ([c, d], rest)
    else if isLineEnd c then ([c], d :: rest)
    else (c :: (splitLine (d :: rest)).1, (splitLine (d :: rest)).2)

/-- Cuts a text behind the end of the comment that was opened before it, with `depth` comments
around that one. A comment inside has to end first. -/
def splitComment : Nat → List Char → List Char × List Char
  | _, [] => ([], [])
  | _, [c] => ([c], [])
  | depth, c :: d :: rest =>
    if c = '/' ∧ d = '*' then
      (c :: d :: (splitComment (depth + 1) rest).1, (splitComment (depth + 1) rest).2)
    else if c = '*' ∧ d = '/' then
      match depth with
      | 0 => ([c, d], rest)
      | outer + 1 => (c :: d :: (splitComment outer rest).1, (splitComment outer rest).2)
    else (c :: (splitComment depth (d :: rest)).1, (splitComment depth (d :: rest)).2)

theorem splitEscaped_append (text : List Char) :
    (splitEscaped text).1 ++ (splitEscaped text).2 = text := by
  fun_induction splitEscaped text <;> simp_all

theorem splitLine_append (text : List Char) : (splitLine text).1 ++ (splitLine text).2 = text := by
  fun_induction splitLine text <;> simp_all

theorem splitComment_append (depth : Nat) (text : List Char) :
    (splitComment depth text).1 ++ (splitComment depth text).2 = text := by
  fun_induction splitComment depth text <;> simp_all

/-- The tag of a dollar quote for the server: nothing, or a name without a dollar sign. -/
def isServerTag : List Char → Bool
  | [] => true
  | c :: rest => isNameStart c && rest.all isNamePart

/-- The tag of a dollar quote, without the `$` that stands right before the text, and the text
behind the delimiter. -/
def serverOpening? (text : List Char) : Option (List Char × List Char) :=
  match text.dropWhile (· != '$') with
  | [] => none
  | _ :: body =>
    if isServerTag (text.takeWhile (· != '$')) then some (text.takeWhile (· != '$'), body) else none

/-! ### Elements -/

/-- An element of a text, as the server reads it. Where its kind tells how it starts, only what
follows is kept. -/
inductive ServerLexeme where
  /-- A character that stands for itself, or is a part of an operator. -/
  | plain (c : Char)
  /-- A name without quotes, or a key word. -/
  | word (text : List Char)
  /-- A number, or the digits and letters of one. -/
  | number (text : List Char)
  /-- A string or a quoted name. -/
  | quoted (quote : Char) (cut : List Char)
  /-- A string in which a backslash escapes what follows. -/
  | escapeString (cut : List Char)
  | lineComment (cut : List Char)
  | blockComment (cut : List Char)
  | dollarQuoted (tag cut : List Char)
  deriving DecidableEq, Repr

/-- The characters that an element was read from. -/
def ServerLexeme.source : ServerLexeme → List Char
  | .plain c => [c]
  | .word text => text
  | .number text => text
  | .quoted quote cut => quote :: cut
  | .escapeString cut => '\'' :: cut
  | .lineComment cut => '-' :: '-' :: cut
  | .blockComment cut => '/' :: '*' :: cut
  | .dollarQuoted tag cut => '$' :: (tag ++ '$' :: cut)

/-- Whether the characters of an element are outside of every string, quoted name, comment and
dollar-quoted body. -/
def ServerLexeme.isOutside : ServerLexeme → Bool
  | .plain _ => true
  | .word _ => true
  | .number _ => true
  | _ => false

/-- What stands in front of a character. -/
inductive Behind where
  | other
  /-- The word `e`, which makes a quote right behind it open a string with escapes. -/
  | escapePrefix
  /-- Such a string, with blanks and line comments behind it. It goes on at the next quote if there
  is a line's end between the two. -/
  | escapeString (lineEnd : Bool)
  deriving DecidableEq, Repr

/-- Whether a quote opens, or goes on with, a string with escapes. -/
def Behind.opensEscapes : Behind → Bool
  | .other => false
  | .escapePrefix => true
  | .escapeString lineEnd => lineEnd

/-- Blanks or a line comment are put behind what was there. -/
def Behind.space (lineEnd : Bool) : Behind → Behind
  | .escapeString before => .escapeString (before || lineEnd)
  | _ => .other

/-- What stands in front of the character that follows an element. -/
def Behind.next (behind : Behind) : ServerLexeme → Behind
  | .word text => if text = ['e'] ∨ text = ['E'] then .escapePrefix else .other
  | .escapeString _ => .escapeString false
  | .plain c => if isSpace c then behind.space (isLineEnd c) else .other
  | .lineComment cut => behind.space (cut.any isLineEnd)
  | _ => .other

/-- Reads the first element of the text `c :: rest`, and gives the text behind it. -/
def ServerLexeme.next (behind : Behind) (c : Char) (rest : List Char) :
    ServerLexeme × List Char :=
  if isNameStart c then
    (.word (c :: rest.takeWhile isWordPart), rest.dropWhile isWordPart)
  else if c.isDigit then
    (.number (c :: rest.takeWhile isNamePart), rest.dropWhile isNamePart)
  else if c = '\'' ∧ behind.opensEscapes then
    (.escapeString (splitEscaped rest).1, (splitEscaped rest).2)
  else if c = '\'' ∨ c = '"' then
    (.quoted c (splitQuoted c rest).1, (splitQuoted c rest).2)
  else if c = '-' ∧ rest.head? = some '-' then
    (.lineComment (splitLine rest.tail).1, (splitLine rest.tail).2)
  else if c = '/' ∧ rest.head? = some '*' then
    (.blockComment (splitComment 0 rest.tail).1, (splitComment 0 rest.tail).2)
  else if c = '$' then
    match serverOpening? rest with
    | some (tag, body) =>
      (.dollarQuoted tag (splitAfter ('$' :: (tag ++ ['$'])) body).1,
        (splitAfter ('$' :: (tag ++ ['$'])) body).2)
    | none => (.plain c, rest)
  else (.plain c, rest)

theorem serverOpening?_eq_some {text tag body : List Char}
    (h : serverOpening? text = some (tag, body)) :
    isServerTag tag = true ∧ '$' ∉ tag ∧ text = tag ++ '$' :: body := by
  have hsplit := List.takeWhile_append_dropWhile (p := (· != '$')) (l := text)
  have hfree : '$' ∉ text.takeWhile (· != '$') := by
    intro hmem
    simpa using List.mem_takeWhile_imp hmem
  unfold serverOpening? at h
  split at h
  · simp at h
  · next dollar tail hdrop =>
    obtain rfl : dollar = '$' := by
      have := List.head?_dropWhile_not (· != '$') text
      simpa [hdrop] using this
    split at h
    · next htag =>
      obtain ⟨rfl, rfl⟩ := Prod.mk.inj (Option.some.inj h)
      rw [hdrop] at hsplit
      exact ⟨htag, hfree, hsplit.symm⟩
    · simp at h

/-- An element and the text behind it make up the text it was read from. -/
theorem ServerLexeme.source_next_append (behind : Behind) (c : Char) (rest : List Char) :
    (ServerLexeme.next behind c rest).1.source ++ (ServerLexeme.next behind c rest).2 =
      c :: rest := by
  have htail {d : Char} (hd : rest.head? = some d) : d :: rest.tail = rest := by
    obtain ⟨rest, rfl⟩ := List.head?_eq_some_iff.1 hd
    rfl
  unfold ServerLexeme.next
  split
  · simp [source]
  split
  · simp [source]
  split
  · next h => simp [source, splitEscaped_append, h.1]
  split
  · simp [source, splitQuoted_append]
  split
  · next h => simp [source, splitLine_append, htail h.2, h.1]
  split
  · next h => simp [source, splitComment_append, htail h.2, h.1]
  split
  · next h =>
    subst h
    split
    · next tag body hopening =>
      obtain ⟨-, -, rfl⟩ := serverOpening?_eq_some hopening
      simp [source, splitAfter_append]
    · simp [source]
  · simp [source]

/-- Reading an element uses up at least the character it starts with. -/
theorem ServerLexeme.length_next_le (behind : Behind) (c : Char) (rest : List Char) :
    (ServerLexeme.next behind c rest).2.length ≤ rest.length := by
  have h := congrArg List.length (source_next_append behind c rest)
  have hpos : 0 < (ServerLexeme.next behind c rest).1.source.length := by
    unfold ServerLexeme.next
    repeat' split
    all_goals simp [source]
  rw [List.length_append, List.length_cons] at h
  omega

/-! ### The reading of a text -/

/-- The reading of a text, by what stands in front of it. -/
def serverLexemesFrom (behind : Behind) : List Char → List ServerLexeme
  | [] => []
  | c :: rest =>
    (ServerLexeme.next behind c rest).1 ::
      serverLexemesFrom (behind.next (ServerLexeme.next behind c rest).1)
        (ServerLexeme.next behind c rest).2
termination_by text => text.length
decreasing_by exact Nat.lt_succ_of_le (ServerLexeme.length_next_le behind c rest)

/-- The reading of a text by the server. -/
def serverLexemes (text : List Char) : List ServerLexeme :=
  serverLexemesFrom .other text

theorem flatMap_source_serverLexemes (text : List Char) :
    (serverLexemes text).flatMap ServerLexeme.source = text := by
  rw [serverLexemes]
  generalize Behind.other = behind
  fun_induction serverLexemesFrom behind text with
  | case1 => rfl
  | case2 behind c rest ih => rw [List.flatMap_cons, ih, ServerLexeme.source_next_append]

/-! ### Elements that are read alike -/

/-- Whether a quote stands behind a backslash that escapes it. -/
def hasEscapedQuote : List Char → Bool
  | [] => false
  | [_] => false
  | c :: d :: rest =>
    if c = '\\' then d = '\'' || hasEscapedQuote rest else hasEscapedQuote (d :: rest)

/-- Whether a dollar sign in a text opens a dollar quote, when only ASCII names are tags. -/
def opensDollarQuote : List Char → Bool
  | [] => false
  | c :: rest => c = '$' && (dollarOpening? rest).isSome || opensDollarQuote rest

/-- An element in which those rules of the server make no difference that the reading into opaque
regions does without: no comment is opened inside of a comment, no quote is escaped by a backslash,
no dollar sign in a word looks like a dollar quote, the tag of a dollar quote is ASCII, and no line
comment ends with a carriage return alone. -/
def ServerLexeme.ReadAlike : ServerLexeme → Prop
  | .word text => opensDollarQuote text = false
  | .escapeString cut => hasEscapedQuote cut = false
  | .lineComment cut => cut.getLast? ≠ some '\r'
  | .blockComment cut => ¬ ['/', '*'] <:+: cut
  | .dollarQuoted tag _ => isTag tag = true
  | _ => True

instance : DecidablePred ServerLexeme.ReadAlike
  | .word text => inferInstanceAs (Decidable (opensDollarQuote text = false))
  | .escapeString cut => inferInstanceAs (Decidable (hasEscapedQuote cut = false))
  | .lineComment cut => inferInstanceAs (Decidable (cut.getLast? ≠ some '\r'))
  | .blockComment cut => inferInstanceAs (Decidable (¬ ['/', '*'] <:+: cut))
  | .dollarQuoted tag _ => inferInstanceAs (Decidable (isTag tag = true))
  | .plain _ | .number _ | .quoted _ _ => inferInstanceAs (Decidable True)

/-! ### Marks -/

/-- The characters of an element, each with whether it is outside of every region. -/
def ServerLexeme.marked (l : ServerLexeme) : List (Char × Bool) :=
  l.source.map (·, l.isOutside)

/-- The characters of a text, each with whether the server reads it outside of every string, quoted
name, comment and dollar-quoted body. -/
def serverMarked (text : List Char) : List (Char × Bool) :=
  (serverLexemes text).flatMap ServerLexeme.marked

/-- A question mark outside of every region. -/
def outsideMark : Char × Bool :=
  ('?', true)

/-- The text in which exactly the marks outside of every region are changed: two in a row to one,
and a single one to its number, `used` numbers being taken already. -/
def numberedFrom (used : Nat) : List (Char × Bool) → List Char
  | [] => []
  | [m] => if m = outsideMark then '$' :: (toString (used + 1)).toList else [m.1]
  | m :: n :: rest =>
    if m = outsideMark then
      if n = outsideMark then '?' :: numberedFrom used rest
      else '$' :: ((toString (used + 1)).toList ++ numberedFrom (used + 1) (n :: rest))
    else m.1 :: numberedFrom used (n :: rest)

/-- The text in which exactly the marks are changed that the server sees outside of every region. -/
def serverNumbered (sql : String) : String :=
  String.ofList (numberedFrom 0 (serverMarked sql.toList))

/-- The number of single marks outside of every region. -/
def singleMarks : List (Char × Bool) → Nat
  | [] => 0
  | [m] => if m = outsideMark then 1 else 0
  | m :: n :: rest =>
    if m = outsideMark then
      if n = outsideMark then singleMarks rest else singleMarks (n :: rest) + 1
    else singleMarks (n :: rest)

theorem numberedFrom_cons {m : Char × Bool} (hm : m ≠ outsideMark) (used : Nat)
    (rest : List (Char × Bool)) :
    numberedFrom used (m :: rest) = m.1 :: numberedFrom used rest := by
  cases rest <;> simp [numberedFrom, hm]

theorem numberedFrom_single {rest : List (Char × Bool)} (hrest : rest.head? ≠ some outsideMark)
    (used : Nat) : numberedFrom used (outsideMark :: rest) =
      '$' :: ((toString (used + 1)).toList ++ numberedFrom (used + 1) rest) := by
  cases rest <;> simp_all [numberedFrom]

theorem numberedFrom_pair (used : Nat) (rest : List (Char × Bool)) :
    numberedFrom used (outsideMark :: outsideMark :: rest) = '?' :: numberedFrom used rest := by
  simp [numberedFrom]

theorem singleMarks_cons {m : Char × Bool} (hm : m ≠ outsideMark) (rest : List (Char × Bool)) :
    singleMarks (m :: rest) = singleMarks rest := by
  cases rest <;> simp [singleMarks, hm]

theorem singleMarks_single {rest : List (Char × Bool)} (hrest : rest.head? ≠ some outsideMark) :
    singleMarks (outsideMark :: rest) = singleMarks rest + 1 := by
  cases rest <;> simp_all [singleMarks]

theorem singleMarks_pair (rest : List (Char × Bool)) :
    singleMarks (outsideMark :: outsideMark :: rest) = singleMarks rest := by
  simp [singleMarks]

end PgToolkit.Sql
