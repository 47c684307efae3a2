/-!
# Placeholders

A statement marks the places of its bound values by `?`. Before it is sent, the marks are numbered
`$1`, `$2`, … from left to right. A text is read as a sequence of lexemes: quoted tokens, comments
and dollar-quoted bodies are opaque regions, in which a `?` is an ordinary character; outside of
them `??` stands for one `?` that is no placeholder.
-/

namespace PgToolkit.Sql

/-- An element of a statement's text. -/
inductive Lexeme where
  /-- A character outside every region that is no part of a mark. -/
  | plain (c : Char)
  /-- A quoted token, a comment or a dollar-quoted body, with its delimiters. -/
  | region (text : List Char)
  /-- A single `?`. -/
  | placeholder
  /-- The pair `??`. -/
  | escapedMark
  deriving DecidableEq, Repr

/-- Cuts a text behind the first occurrence of `stop`; without one, the whole text comes first. -/
def splitAfter (stop : List Char) : List Char → List Char × List Char
  | [] => ([], [])
  | c :: rest =>
    if stop.isPrefixOf (c :: rest) then (stop, (c :: rest).drop stop.length)
    else (c :: (splitAfter stop rest).1, (splitAfter stop rest).2)

theorem splitAfter_append (stop : List Char) (text : List Char) :
    (splitAfter stop text).1 ++ (splitAfter stop text).2 = text := by
  induction text with
  | nil => rfl
  | cons c rest ih =>
    simp only [splitAfter]
    split
    · next h =>
      obtain ⟨tail, htail⟩ := List.isPrefixOf_iff_prefix.1 h
      rw [← htail, List.drop_left]
    · simp [ih]

/-- Cuts a text behind the quote that ends the token whose opening quote stands before the text.
A doubled quote stays inside; a token without an end takes the whole text. -/
def splitQuoted (quote : Char) : List Char → List Char × List Char
  | [] => ([], [])
  | c :: rest =>
    if c = quote then
      match rest with
      | [] => ([c], [])
      | d :: rest =>
        if d = quote then (c :: d :: (splitQuoted quote rest).1, (splitQuoted quote rest).2)
        else ([c], d :: rest)
    else (c :: (splitQuoted quote rest).1, (splitQuoted quote rest).2)

theorem splitQuoted_append (quote : Char) (text : List Char) :
    (splitQuoted quote text).1 ++ (splitQuoted quote text).2 = text := by
  fun_induction splitQuoted quote text <;> simp_all

/-- A letter or an underscore, as the first character of a dollar quote's tag. -/
def isTagStart (c : Char) : Bool :=
  c.isAlpha || c = '_'

/-- A letter, a digit or an underscore, as a later character of a dollar quote's tag. -/
def isTagPart (c : Char) : Bool :=
  c.isAlphanum || c = '_'

/-- A tag is empty or an unquoted ASCII name. -/
def isTag : List Char → Bool
  | [] => true
  | c :: rest => isTagStart c && rest.all isTagPart

/-- The delimiter `$tag$` of a dollar quote, without the `$` that stands right before the text, and
the text behind the delimiter. -/
def dollarOpening? (text : List Char) : Option (List Char × List Char) :=
  match text.dropWhile (· != '$') with
  | [] => none
  | dollar :: body =>
    if isTag (text.takeWhile (· != '$')) then
      some (text.takeWhile (· != '$') ++ [dollar], body)
    else none

/-- The delimiter of a dollar quote and what follows it are the text they were read from. -/
theorem append_of_dollarOpening? {text delimiter body : List Char}
    (h : dollarOpening? text = some (delimiter, body)) : delimiter ++ body = text := by
  have hsplit := List.takeWhile_append_dropWhile (p := (· != '$')) (l := text)
  unfold dollarOpening? at h
  split at h
  · simp at h
  · next dollar tail hd =>
    split at h
    · obtain ⟨rfl, rfl⟩ := Prod.mk.inj (Option.some.inj h)
      rw [hd] at hsplit
      simpa using hsplit
    · simp at h

/-- Reads the first lexeme of the text `c :: rest`, and gives the text behind it. -/
def Lexeme.next (c : Char) (rest : List Char) : Lexeme × List Char :=
  if c = '\'' ∨ c = '"' then
    (.region (c :: (splitQuoted c rest).1), (splitQuoted c rest).2)
  else if c = '-' ∧ rest.head? = some '-' then
    (.region (c :: (splitAfter ['\n'] rest).1), (splitAfter ['\n'] rest).2)
  else if c = '/' ∧ rest.head? = some '*' then
    (.region (c :: '*' :: (splitAfter ['*', '/'] rest.tail).1), (splitAfter ['*', '/'] rest.tail).2)
  else if c = '$' then
    match dollarOpening? rest with
    | some (delimiter, body) =>
      (.region (c :: (delimiter ++ (splitAfter (c :: delimiter) body).1)),
        (splitAfter (c :: delimiter) body).2)
    | none => (.plain c, rest)
  else if c = '?' then
    if rest.head? = some '?' then (.escapedMark, rest.tail) else (.placeholder, rest)
  else (.plain c, rest)

/-- The characters that a lexeme was read from. -/
def Lexeme.source : Lexeme → List Char
  | .plain c => [c]
  | .region text => text
  | .placeholder => ['?']
  | .escapedMark => ['?', '?']

/-- A lexeme and the text behind it make up the text it was read from. -/
theorem Lexeme.source_next_append (c : Char) (rest : List Char) :
    (Lexeme.next c rest).1.source ++ (Lexeme.next c rest).2 = c :: rest := by
  unfold Lexeme.next
  split
  · simp [Lexeme.source, splitQuoted_append]
  split
  · simp [Lexeme.source, splitAfter_append]
  split
  · next h =>
    cases rest with
    | nil => simp at h
    | cons d tail =>
      have hd : d = '*' := by simpa using h.2
      simp [Lexeme.source, splitAfter_append, hd]
  split
  · next h =>
    subst h
    split
    · next delimiter body hd =>
      simp only [Lexeme.source, List.cons_append, List.append_assoc, splitAfter_append]
      rw [append_of_dollarOpening? hd]
    · simp [Lexeme.source]
  split
  · next h =>
    subst h
    split
    · next h =>
      cases rest with
      | nil => simp at h
      | cons d tail =>
        have hd : d = '?' := by simpa using h
        simp [Lexeme.source, hd]
    · simp [Lexeme.source]
  · simp [Lexeme.source]

theorem Lexeme.source_ne_nil_of_next (c : Char) (rest : List Char) :
    (Lexeme.next c rest).1.source ≠ [] := by
  unfold Lexeme.next
  repeat' split
  all_goals simp [Lexeme.source]

/-- Reading a lexeme uses up at least the character it starts with. -/
theorem Lexeme.length_next_le (c : Char) (rest : List Char) :
    (Lexeme.next c rest).2.length ≤ rest.length := by
  have h := congrArg List.length (Lexeme.source_next_append c rest)
  have hpos := List.length_pos_iff.2 (Lexeme.source_ne_nil_of_next c rest)
  rw [List.length_append, List.length_cons] at h
  omega

/-- The reading of a text as a sequence of lexemes. -/
def lexemes : List Char → List Lexeme
  | [] => []
  | c :: rest => (Lexeme.next c rest).1 :: lexemes (Lexeme.next c rest).2
termination_by text => text.length
decreasing_by exact Nat.lt_succ_of_le (Lexeme.length_next_le c rest)

/-- Nothing of a text is lost or added by reading it. -/
theorem flatMap_source_lexemes (text : List Char) :
    (lexemes text).flatMap Lexeme.source = text := by
  fun_induction lexemes text with
  | case1 => rfl
  | case2 c rest ih =>
    rw [List.flatMap_cons, ih, Lexeme.source_next_append]

/-- Writes lexemes with their placeholders numbered, `used` numbers being taken already. -/
def renderFrom (used : Nat) : List Lexeme → List Char
  | [] => []
  | .plain c :: rest => c :: renderFrom used rest
  | .region text :: rest => text ++ renderFrom used rest
  | .placeholder :: rest => '$' :: ((toString (used + 1)).toList ++ renderFrom (used + 1) rest)
  | .escapedMark :: rest => '?' :: renderFrom used rest

/-- The text with its placeholders numbered `$1`, `$2`, … and each escaped mark as one `?`. -/
def numberPlaceholders (sql : String) : String :=
  String.ofList (renderFrom 0 (lexemes sql.toList))

/-- The number of placeholders of a text. -/
def countPlaceholders (sql : String) : Nat :=
  (lexemes sql.toList).count .placeholder

end PgToolkit.Sql
