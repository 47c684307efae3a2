import PgToolkit.Proofs.Outcome
import PgToolkit.Proofs.Query.CallerSql
import PgToolkit.Proofs.Sql.QuoteToken
import PgToolkit.Proofs.Value.Literal

/-!
# Reading literals

The literal of a value is read again, first as tokens and then as a tree: arrays with their items,
down to quoted texts, words and numbers. It is the tree of the value, whatever its texts are.
-/

namespace PgToolkit

open Sql Number

/-! ### Tokens -/

/-- What stands for a value that is no array. -/
inductive Leaf where
  /-- A text between single quotes, with every doubled quote read as one. -/
  | quoted (text : List Char)
  /-- A keyword or a call. -/
  | word (text : List Char)
  /-- Decimal digits, possibly with a sign and a fraction. -/
  | number (text : List Char)
  deriving DecidableEq, Repr

/-- An element of the text of a literal. -/
inductive LiteralToken where
  | leaf (content : Leaf)
  /-- The keyword of an array and the bracket behind it. -/
  | opening
  /-- A comma and the blank behind it. -/
  | separator
  | closing
  deriving DecidableEq, Repr

/-- A character of a word or a number. -/
def isRunPart (c : Char) : Bool :=
  c.isAlphanum || ['-', '.', '(', ')'].contains c

/-- Whether a text consists of digits, possibly with a point between them. -/
def isUnsigned (text : List Char) : Bool :=
  let behind := text.dropWhile Char.isDigit
  !(text.takeWhile Char.isDigit).isEmpty &&
    (behind.isEmpty ||
      behind.head? == some '.' && !behind.tail.isEmpty && behind.tail.all Char.isDigit)

/-- Whether a text is a decimal number without an exponent. -/
def isNumeral (text : List Char) : Bool :=
  isUnsigned (if text.head? = some '-' then text.tail else text)

/-- Reads the first token of a text, and gives the text behind it. -/
def LiteralToken.next? : List Char → Option (LiteralToken × List Char)
  | [] => none
  | c :: rest =>
    if c = '\'' then (readQuoted c rest).map fun read => (.leaf (.quoted read.1), read.2)
    else if c = ']' then some (.closing, rest)
    else if c = ',' then if rest.head? = some ' ' then some (.separator, rest.tail) else none
    else
      let run := (c :: rest).takeWhile isRunPart
      let behind := (c :: rest).dropWhile isRunPart
      if run = "ARRAY".toList ∧ behind.head? = some '[' then some (.opening, behind.tail)
      else if isNumeral run then some (.leaf (.number run), behind)
      else if c.isAlpha then some (.leaf (.word run), behind)
      else none

theorem isRunPart_of_isAlpha {c : Char} (h : c.isAlpha = true) : isRunPart c = true := by
  simp [isRunPart, Char.isAlphanum, h]

theorem isRunPart_of_isDigit {c : Char} (h : c.isDigit = true) : isRunPart c = true := by
  simp [isRunPart, Char.isAlphanum, h]

theorem ne_nil_of_isNumeral {text : List Char} (h : isNumeral text = true) : text ≠ [] := by
  rintro rfl
  simp [isNumeral, isUnsigned] at h

/-- Every token uses up text. -/
theorem LiteralToken.length_lt_of_next? {text behind : List Char} {token : LiteralToken}
    (h : next? text = some (token, behind)) : behind.length < text.length := by
  rcases text with _ | ⟨c, rest⟩
  · cases h
  have hsplit := congrArg List.length
    (List.takeWhile_append_dropWhile (p := isRunPart) (l := c :: rest))
  rw [List.length_append] at hsplit
  simp only [next?] at h
  split at h
  · obtain ⟨⟨content, tail⟩, hread, heq⟩ := Option.map_eq_some_iff.1 h
    obtain ⟨-, rfl⟩ := Prod.mk.inj heq
    exact Nat.lt_succ_of_lt (length_lt_of_readQuoted hread)
  split at h
  · cases h
    exact Nat.lt_succ_self _
  split at h
  · split at h
    · cases h
      simp only [List.length_tail, List.length_cons]
      omega
    · cases h
  split at h
  · next hrun =>
    cases h
    have hkeyword : "ARRAY".toList.length = 5 := rfl
    rw [hrun.1, hkeyword] at hsplit
    rw [List.length_tail]
    omega
  -- a run that is a number or starts with a letter is not empty
  split at h
  · next hnumeral =>
    cases h
    have hpos := List.length_pos_iff.2 (ne_nil_of_isNumeral hnumeral)
    omega
  split at h
  · next hletter =>
    cases h
    rw [List.takeWhile_cons_of_pos (isRunPart_of_isAlpha hletter), List.length_cons] at hsplit
    omega
  · cases h

/-- The reading of a text as tokens, if the whole text consists of them. -/
def literalTokens (text : List Char) : Option (List LiteralToken) :=
  if text = [] then some []
  else
    match _hnext : LiteralToken.next? text with
    | none => none
    | some (token, behind) => (literalTokens behind).map (token :: ·)
termination_by text.length
decreasing_by exact LiteralToken.length_lt_of_next? _hnext

theorem literalTokens_of_next? {text behind : List Char} {token : LiteralToken}
    (h : LiteralToken.next? text = some (token, behind)) :
    literalTokens text = (literalTokens behind).map (token :: ·) := by
  have hne : text ≠ [] := by
    rintro rfl
    cases h
  rw [literalTokens, if_neg hne]
  split
  · next hnone =>
    rw [h] at hnone
    cases hnone
  · next hsome =>
    rw [h] at hsome
    cases hsome
    rfl

/-! ### Single tokens -/

/-- A text that may stand behind a value: its end, or one that goes on with a comma or a bracket. -/
def Ends (rest : List Char) : Prop :=
  ∀ c ∈ rest.head?, c = ',' ∨ c = ']'

theorem Ends.head?_ne {rest : List Char} {c : Char} (h : Ends rest) (hcomma : c ≠ ',')
    (hclosing : c ≠ ']') : rest.head? ≠ some c := by
  intro hhead
  rcases h c hhead with rfl | rfl
  · exact hcomma rfl
  · exact hclosing rfl

/-- Whether a text is read as the given tokens, wherever it may stand. -/
def ReadAs (text : List Char) (tokens : List LiteralToken) : Prop :=
  ∀ rest, Ends rest → literalTokens (text ++ rest) = (literalTokens rest).map (tokens ++ ·)

theorem ReadAs.literalTokens_eq {text : List Char} {tokens : List LiteralToken}
    (h : ReadAs text tokens) : literalTokens text = some tokens := by
  have hend := h [] (by simp [Ends])
  rw [List.append_nil] at hend
  rw [hend, literalTokens, if_pos rfl, Option.map_some, List.append_nil]

theorem readAs_of_next? {text : List Char} {token : LiteralToken}
    (h : ∀ rest, Ends rest → LiteralToken.next? (text ++ rest) = some (token, rest)) :
    ReadAs text [token] := by
  intro rest hrest
  rw [literalTokens_of_next? (h rest hrest)]
  rfl

theorem readAs_literal (s : String) :
    ReadAs (Sql.literal s).toList [.leaf (.quoted s.toList)] := by
  refine readAs_of_next? fun rest hrest => ?_
  have hquote : rest.head? ≠ some '\'' := hrest.head?_ne (by decide) (by decide)
  have htext : (Sql.literal s).toList ++ rest =
      '\'' :: (doubled '\'' s.toList ++ '\'' :: rest) := by
    simp [Sql.literal, quoted]
  rw [htext, LiteralToken.next?, if_pos rfl, readQuoted_doubled _ hquote]
  rfl

section Run

variable {run rest : List Char}

/-- A run ends in front of what may stand behind a value. -/
theorem takeWhile_run (hrun : ∀ c ∈ run, isRunPart c = true) (hrest : Ends rest) :
    (run ++ rest).takeWhile isRunPart = run ∧ (run ++ rest).dropWhile isRunPart = rest := by
  have hbehind : rest.takeWhile isRunPart = [] ∧ rest.dropWhile isRunPart = rest := by
    rcases rest with _ | ⟨c, rest⟩
    · exact ⟨rfl, rfl⟩
    have hc : ¬ isRunPart c = true := by
      rcases hrest c rfl with rfl | rfl
      all_goals decide
    exact ⟨List.takeWhile_cons_of_neg hc, List.dropWhile_cons_of_neg hc⟩
  rw [List.takeWhile_append_of_pos hrun, List.dropWhile_append_of_pos hrun, hbehind.1, hbehind.2,
    List.append_nil]
  exact ⟨rfl, rfl⟩

theorem next?_run (hne : run ≠ []) (hrun : ∀ c ∈ run, isRunPart c = true) (hrest : Ends rest) :
    LiteralToken.next? (run ++ rest) =
      if isNumeral run then some (.leaf (.number run), rest)
      else if run.head?.any Char.isAlpha then some (.leaf (.word run), rest)
      else none := by
  obtain ⟨htake, hdrop⟩ := takeWhile_run hrun hrest
  obtain ⟨c, tail, rfl⟩ := List.exists_cons_of_ne_nil hne
  have hc := hrun c List.mem_cons_self
  have hbracket : rest.head? ≠ some '[' := hrest.head?_ne (by decide) (by decide)
  have hstart : c ≠ '\'' ∧ c ≠ ']' ∧ c ≠ ',' := by
    refine ⟨?_, ?_, ?_⟩
    all_goals
      rintro rfl
      exact absurd hc (by decide)
  rw [List.cons_append] at htake hdrop ⊢
  simp only [LiteralToken.next?, if_neg hstart.1, if_neg hstart.2.1, if_neg hstart.2.2, htake,
    hdrop, hbracket, and_false, if_false]
  rfl

end Run

/-- A keyword or a call is a word of its own. -/
theorem readAs_word {word : List Char} (hrun : word.all isRunPart = true)
    (hnumeral : isNumeral word = false) (hletter : word.head?.any Char.isAlpha = true) :
    ReadAs word [.leaf (.word word)] := by
  have hne : word ≠ [] := by
    rintro rfl
    simp at hletter
  refine readAs_of_next? fun rest hrest => ?_
  rw [next?_run hne (List.all_eq_true.1 hrun) hrest, if_neg (by simp [hnumeral]), if_pos hletter]

/-! ### Numbers -/

/-- Digits, possibly with a point between them. -/
def Unsigned (text : List Char) : Prop :=
  ∃ whole fraction, text = whole ++ fraction ∧ whole ≠ [] ∧ (∀ c ∈ whole, c.isDigit = true) ∧
    (fraction = [] ∨
      ∃ digits, fraction = '.' :: digits ∧ digits ≠ [] ∧ ∀ c ∈ digits, c.isDigit = true)

namespace Unsigned

theorem of_digits {digits : List Char} (hne : digits ≠ [])
    (hdigits : ∀ c ∈ digits, c.isDigit = true) : Unsigned digits :=
  ⟨digits, [], (List.append_nil _).symm, hne, hdigits, .inl rfl⟩

theorem of_point {whole digits : List Char} (hwhole : whole ≠ [])
    (hall : ∀ c ∈ whole, c.isDigit = true) (hne : digits ≠ [])
    (hdigits : ∀ c ∈ digits, c.isDigit = true) : Unsigned (whole ++ '.' :: digits) :=
  ⟨whole, _, rfl, hwhole, hall, .inr ⟨digits, rfl, hne, hdigits⟩⟩

variable {text : List Char}

theorem isUnsigned (h : Unsigned text) : isUnsigned text = true := by
  obtain ⟨whole, fraction, rfl, hne, hwhole, hfraction⟩ := h
  have hbehind : fraction.takeWhile Char.isDigit = [] ∧
      fraction.dropWhile Char.isDigit = fraction := by
    rcases hfraction with rfl | ⟨digits, rfl, -⟩
    · exact ⟨rfl, rfl⟩
    · exact ⟨rfl, rfl⟩
  simp only [PgToolkit.isUnsigned, List.takeWhile_append_of_pos hwhole,
    List.dropWhile_append_of_pos hwhole, hbehind.1, hbehind.2]
  rcases hfraction with rfl | ⟨digits, rfl, hdigits, hall⟩
  · simp [hne]
  · simpa [hne, hdigits] using hall

theorem isRunPart (h : Unsigned text) : ∀ c ∈ text, isRunPart c = true := by
  obtain ⟨whole, fraction, rfl, -, hwhole, hfraction⟩ := h
  refine List.forall_mem_append.2 ⟨fun c hc => isRunPart_of_isDigit (hwhole c hc), ?_⟩
  rcases hfraction with rfl | ⟨digits, rfl, -, hdigits⟩
  · simp
  · exact List.forall_mem_cons.2 ⟨by decide, fun c hc => isRunPart_of_isDigit (hdigits c hc)⟩

theorem head?_ne_minus (h : Unsigned text) : text.head? ≠ some '-' := by
  obtain ⟨whole, fraction, rfl, hne, hwhole, -⟩ := h
  obtain ⟨c, whole, rfl⟩ := List.exists_cons_of_ne_nil hne
  rintro heq
  obtain rfl : c = '-' := by simpa using heq
  exact absurd (hwhole '-' List.mem_cons_self) (by decide)

/-- A number with a minus sign in front, or with none, is one token. -/
theorem readAs_sign (h : Unsigned text) (negative : Bool) :
    ReadAs ((if negative then ['-'] else []) ++ text)
      [.leaf (.number ((if negative then ['-'] else []) ++ text))] := by
  have hrun : ∀ c ∈ (if negative then ['-'] else []) ++ text, PgToolkit.isRunPart c = true := by
    refine List.forall_mem_append.2 ⟨?_, h.isRunPart⟩
    cases negative with
    | false => exact List.forall_mem_nil _
    | true => exact List.forall_mem_singleton.2 rfl
  have hnumeral : isNumeral ((if negative then ['-'] else []) ++ text) = true := by
    cases negative with
    | false => simpa [isNumeral, h.head?_ne_minus] using h.isUnsigned
    | true => simpa [isNumeral] using h.isUnsigned
  refine readAs_of_next? fun rest hrest => ?_
  rw [next?_run (ne_nil_of_isNumeral hnumeral) hrun hrest, if_pos hnumeral]

end Unsigned

theorem isDigit_of_mem_toDigits {n : Nat} : ∀ c ∈ Nat.toDigits 10 n, c.isDigit = true :=
  fun _ hc => Nat.isDigit_of_mem_toDigits (by decide) (by decide) hc

theorem isDigit_of_mem_replicate {n : Nat} : ∀ c ∈ List.replicate n '0', c.isDigit = true := by
  intro c hc
  rw [List.eq_of_mem_replicate hc]
  decide

theorem Number.Decimal.unsigned_text (d : Decimal) : ∃ text, Unsigned text ∧
    d.text.toList = (if d.negative then ['-'] else []) ++ text := by
  have hdigits : ∀ c ∈ paddedDigits d.mantissa d.scale, c.isDigit = true :=
    List.forall_mem_append.2 ⟨isDigit_of_mem_replicate, isDigit_of_mem_toDigits⟩
  have hlength := lt_length_paddedDigits d.mantissa d.scale
  simp only [Decimal.text, String.toList_ofList, List.append_assoc]
  generalize paddedDigits d.mantissa d.scale = digits at hdigits hlength
  refine ⟨_, ?_, rfl⟩
  have hwhole : digits.take (digits.length - d.scale) ≠ [] := by
    rw [← List.length_pos_iff, List.length_take]
    omega
  have hall : ∀ c ∈ digits.take (digits.length - d.scale), c.isDigit = true :=
    fun c hc => hdigits c (List.mem_of_mem_take hc)
  split
  · rw [List.append_nil]
    exact .of_digits hwhole hall
  · refine .of_point hwhole hall ?_ fun c hc => hdigits c (List.mem_of_mem_drop hc)
    rw [← List.length_pos_iff, List.length_drop]
    omega

/-- A number in double precision is written without an exponent. -/
theorem unsigned_positionalText {digits : List Char} (hne : digits ≠ [])
    (hdigits : ∀ c ∈ digits, c.isDigit = true) (exponent : Int) :
    Unsigned (sqlLayout.positionalText digits exponent) := by
  unfold FloatLayout.positionalText
  split
  · have hbelow : Unsigned (['0'] ++ '.' :: (List.replicate (-exponent - 1).toNat '0' ++ digits)) :=
      .of_point (by decide) (List.forall_mem_singleton.2 rfl) (by simp [hne])
        (List.forall_mem_append.2 ⟨isDigit_of_mem_replicate, hdigits⟩)
    exact hbelow
  split
  · refine .of_digits (by simp [hne]) ?_
    simp only [sqlLayout, List.forall_mem_append]
    exact ⟨⟨hdigits, isDigit_of_mem_replicate⟩, List.forall_mem_nil _⟩
  · next hlength =>
    refine .of_point ?_ (fun c hc => hdigits c (List.mem_of_mem_take hc)) ?_
      fun c hc => hdigits c (List.mem_of_mem_drop hc)
    · simp [hne]
    · rw [← List.length_pos_iff, List.length_drop]
      omega

theorem unsigned_magnitude (x : Binary64) : Unsigned (sqlLayout.magnitude x) := by
  unfold FloatLayout.magnitude
  split
  · exact .of_digits (by simp) (List.forall_mem_singleton.2 rfl)
  · exact unsigned_positionalText Nat.toDigits_ne_nil isDigit_of_mem_toDigits _

/-! ### Trees -/

/-- What a literal is read as. -/
inductive LiteralTree where
  | leaf (content : Leaf)
  | array (items : List LiteralTree)
  deriving Repr

namespace LiteralTree

mutual

/-- The tokens of a tree. -/
def tokens : LiteralTree → List LiteralToken
  | .leaf content => [.leaf content]
  | .array [] => [.opening, .closing]
  | .array (first :: rest) => .opening :: (first.tokens ++ laterTokens rest)

/-- The tokens behind an item of an array, given the items that follow. -/
def laterTokens : List LiteralTree → List LiteralToken
  | [] => [.closing]
  | item :: rest => .separator :: (item.tokens ++ laterTokens rest)

end

/-- Reads tokens as one tree. For every open array, the innermost first, its items so far are given;
and the tree that ends in front of the tokens, if one does. -/
def readFrom (openArrays : List (List LiteralTree)) :
    Option LiteralTree → List LiteralToken → Option LiteralTree
  | some tree, [] => if openArrays.isEmpty then some tree else none
  | none, .leaf content :: rest => readFrom openArrays (some (.leaf content)) rest
  | none, .opening :: rest => readFrom ([] :: openArrays) none rest
  | none, .closing :: rest =>
    match openArrays with
    | [] :: outer => readFrom outer (some (.array [])) rest
    | _ => none
  | some tree, .separator :: rest =>
    match openArrays with
    | items :: outer => readFrom ((items ++ [tree]) :: outer) none rest
    | [] => none
  | some tree, .closing :: rest =>
    match openArrays with
    | items :: outer => readFrom outer (some (.array (items ++ [tree]))) rest
    | [] => none
  | _, _ => none

mutual

theorem readFrom_tokens (tree : LiteralTree) (openArrays : List (List LiteralTree))
    (rest : List LiteralToken) :
    readFrom openArrays none (tree.tokens ++ rest) = readFrom openArrays (some tree) rest := by
  match tree with
  | .leaf _ => rfl
  | .array [] => rfl
  | .array (first :: later) =>
    rw [tokens, List.cons_append, List.append_assoc, readFrom, readFrom_tokens first,
      readFrom_laterTokens later, List.nil_append]

theorem readFrom_laterTokens (later items : List LiteralTree) (last : LiteralTree)
    (openArrays : List (List LiteralTree)) (rest : List LiteralToken) :
    readFrom (items :: openArrays) (some last) (laterTokens later ++ rest) =
      readFrom openArrays (some (.array (items ++ last :: later))) rest := by
  match later with
  | [] => rfl
  | item :: later =>
    rw [laterTokens, List.cons_append, List.append_assoc, readFrom, readFrom_tokens item,
      readFrom_laterTokens later, List.append_assoc, List.singleton_append]

end

end LiteralTree

/-- The tree that a text is read as, if the whole text is one literal. -/
def readLiteral (sql : String) : Option LiteralTree :=
  (literalTokens sql.toList).bind (LiteralTree.readFrom [] none)

theorem readLiteral_of_readAs {sql : String} {tree : LiteralTree}
    (h : ReadAs sql.toList tree.tokens) : readLiteral sql = some tree := by
  have hread := tree.readFrom_tokens [] []
  rw [List.append_nil] at hread
  rw [readLiteral, h.literalTokens_eq, Option.bind_some, hread]
  rfl

/-! ### Arrays -/

/-- The texts of items with commas between them, up to the end of their array, are read as the items
behind the first one. -/
theorem literalTokens_items {first : List LiteralToken} {text : String} {texts : List String}
    {items : List LiteralTree} (hfirst : ReadAs text.toList first)
    (hitems : List.Forall₂ (fun text (item : LiteralTree) => ReadAs text.toList item.tokens)
      texts items) (rest : List Char) :
    literalTokens ((", ".intercalate (text :: texts)).toList ++ ']' :: rest) =
      (literalTokens rest).map (first ++ LiteralTree.laterTokens items ++ ·) := by
  induction hitems generalizing first text with
  | nil =>
    have hclosing : LiteralToken.next? (']' :: rest) = some (.closing, rest) := rfl
    rw [String.intercalate_singleton, hfirst _ (by simp [Ends]), literalTokens_of_next? hclosing,
      Option.map_map]
    simp [LiteralTree.laterTokens, Function.comp_def]
  | @cons next item texts items hnext _ ih =>
    have hseparator (behind : List Char) :
        LiteralToken.next? (',' :: ' ' :: behind) = some (.separator, behind) := rfl
    have htext : (", ".intercalate (text :: next :: texts)).toList ++ ']' :: rest =
        text.toList ++ ',' :: ' ' ::
          ((", ".intercalate (next :: texts)).toList ++ ']' :: rest) := by
      rw [String.intercalate_cons_cons]
      simp
    rw [htext, hfirst _ (by simp [Ends]), literalTokens_of_next? (hseparator _), ih hnext,
      Option.map_map, Option.map_map]
    simp [LiteralTree.laterTokens, Function.comp_def]

theorem readAs_array {texts : List String} {items : List LiteralTree} (hne : items ≠ [])
    (hitems : List.Forall₂ (fun text (item : LiteralTree) => ReadAs text.toList item.tokens)
      texts items) :
    ReadAs ("ARRAY[" ++ ", ".intercalate texts ++ "]").toList (LiteralTree.array items).tokens := by
  cases hitems with
  | nil => exact absurd rfl hne
  | @cons text first texts items hfirst hrest =>
    intro rest _
    have hopening (behind : List Char) :
        LiteralToken.next? ("ARRAY[".toList ++ behind) = some (.opening, behind) := rfl
    have htext : ("ARRAY[" ++ ", ".intercalate (text :: texts) ++ "]").toList ++ rest =
        "ARRAY[".toList ++ ((", ".intercalate (text :: texts)).toList ++ ']' :: rest) := by
      simp
    rw [htext, literalTokens_of_next? (hopening _), literalTokens_items hfirst hrest,
      Option.map_map]
    rfl

/-! ### Values -/

namespace Value

mutual

/-- The tree of a value. An array without items is a quoted text, and raw SQL counts as a word. -/
def tree : Value → LiteralTree
  | .null => .leaf (.word "NULL".toList)
  | .bool true => .leaf (.word "TRUE".toList)
  | .bool false => .leaf (.word "FALSE".toList)
  | .int i =>
    .leaf (.number ((if i.toInt < 0 then ['-'] else []) ++ Nat.toDigits 10 i.toInt.natAbs))
  | .float x => .leaf (.number (sqlLayout.text x).toList)
  | .decimal d => .leaf (.number d.text.toList)
  | .text s => .leaf (if s = nowText then .word s.toList else .quoted s.toList)
  | .array [] => .leaf (.quoted ['\x7b', '\x7d'])
  | .array (item :: rest) => .array (item.tree :: itemTrees rest)
  | .timestamp t => .leaf (.quoted t.millis.toList)
  | .json document => .leaf (.quoted document.text.toList)
  | .raw sql => .leaf (.word sql.toList)

/-- The trees of the items of an array. -/
def itemTrees : List Value → List LiteralTree
  | [] => []
  | item :: rest => item.tree :: itemTrees rest

end

mutual

/-- The numbers in double precision in a value, at any depth. -/
def floats : Value → List Binary64
  | .float x => [x]
  | .array items => itemFloats items
  | _ => []

/-- The numbers in double precision in the items of an array. -/
def itemFloats : List Value → List Binary64
  | [] => []
  | item :: rest => item.floats ++ itemFloats rest

end

mutual

/-- A value has no literal exactly if it holds a number that is not finite; the first one is
reported. -/
theorem literal_eq_error_iff (v : Value) (e : Error) : v.literal = .error e ↔
    ∃ x, v.floats.find? (fun x => !x.isFinite) = some x ∧ e = .unsupported (.nonFinite x) := by
  match v with
  | .null => simp [literal, floats]
  | .bool true => simp [literal, floats]
  | .bool false => simp [literal, floats]
  | .int _ => simp [literal, floats]
  | .float x =>
    cases hx : x.isFinite
    all_goals simp [literal, floats, hx, eq_comm]
  | .decimal _ => simp [literal, floats]
  | .text _ => simp [literal, floats]
  | .array [] => simp [literal, floats, itemFloats]
  | .array (item :: rest) =>
    rw [floats, ← itemLiterals_eq_error_iff (item :: rest) e, literal]
    cases itemLiterals (item :: rest)
    all_goals simp [bind, Except.bind, pure, Except.pure]
  | .timestamp _ => simp [literal, floats]
  | .json _ => simp [literal, floats]
  | .raw _ => simp [literal, floats]

theorem itemLiterals_eq_error_iff (items : List Value) (e : Error) :
    itemLiterals items = .error e ↔ ∃ x, (itemFloats items).find? (fun x => !x.isFinite) = some x ∧
      e = .unsupported (.nonFinite x) := by
  match items with
  | [] => simp [itemLiterals, itemFloats]
  | item :: rest =>
    have hitem := literal_eq_error_iff item
    have hrest := itemLiterals_eq_error_iff rest e
    rw [itemLiterals, itemFloats, List.find?_append]
    cases hfirst : item.literal with
    | error fault =>
      -- the number that is reported stands in the first item
      obtain ⟨x, hfind, rfl⟩ := (hitem fault).1 hfirst
      simp [bind, Except.bind, hfind, eq_comm]
    | ok sql =>
      have hnone : item.floats.find? (fun x => !x.isFinite) = none := by
        cases hfind : item.floats.find? (fun x => !x.isFinite) with
        | none => rfl
        | some x =>
          have herror := (hitem _).2 ⟨x, hfind, rfl⟩
          rw [hfirst] at herror
          cases herror
      rw [hnone, Option.none_or, ← hrest]
      cases itemLiterals rest
      all_goals simp [bind, Except.bind, pure, Except.pure]

end

mutual

/-- The literal of a value without raw SQL has the tokens of its tree, wherever it stands. -/
theorem readAs_tree {v : Value} {sql : String} (hraw : v.rawTexts = [])
    (h : v.literal = .ok sql) : ReadAs sql.toList v.tree.tokens := by
  match v with
  | .null =>
    obtain rfl := Except.ok.inj h
    exact readAs_word (by decide) (by decide) (by decide)
  | .bool true =>
    obtain rfl := Except.ok.inj h
    exact readAs_word (by decide) (by decide) (by decide)
  | .bool false =>
    obtain rfl := Except.ok.inj h
    exact readAs_word (by decide) (by decide) (by decide)
  | .int i =>
    obtain rfl := Except.ok.inj h
    have hdigits : Unsigned (Nat.toDigits 10 i.toInt.natAbs) :=
      .of_digits Nat.toDigits_ne_nil isDigit_of_mem_toDigits
    rw [toList_toString_int, tree, LiteralTree.tokens]
    simpa only [decide_eq_true_eq] using hdigits.readAs_sign (decide (i.toInt < 0))
  | .float x =>
    simp only [literal] at h
    split at h
    · next hfinite =>
      obtain rfl := Except.ok.inj h
      rw [tree, LiteralTree.tokens, FloatLayout.toList_text hfinite]
      exact (unsigned_magnitude x).readAs_sign x.isNegative
    · cases h
  | .decimal d =>
    obtain rfl := Except.ok.inj h
    obtain ⟨digits, hdigits, htext⟩ := d.unsigned_text
    rw [tree, LiteralTree.tokens, htext]
    exact hdigits.readAs_sign d.negative
  | .text s =>
    obtain rfl := Except.ok.inj h
    rw [tree, LiteralTree.tokens]
    split
    · next hnow =>
      rw [hnow]
      exact readAs_word (by decide) (by decide) (by decide)
    · exact readAs_literal s
  | .array [] =>
    obtain rfl := Except.ok.inj h
    exact readAs_literal "\x7b\x7d"
  | .array (item :: rest) =>
    simp only [literal, bind_eq_ok_iff, pure_eq_ok_iff] at h
    obtain ⟨texts, htexts, rfl⟩ := h
    exact readAs_array (by simp) (readAs_itemTrees hraw htexts)
  | .timestamp t =>
    obtain rfl := Except.ok.inj h
    exact readAs_literal _
  | .json document =>
    obtain rfl := Except.ok.inj h
    exact readAs_literal _
  | .raw sql => simp [rawTexts] at hraw

theorem readAs_itemTrees {items : List Value} {texts : List String}
    (hraw : itemRawTexts items = []) (h : itemLiterals items = .ok texts) :
    List.Forall₂ (fun text (item : LiteralTree) => ReadAs text.toList item.tokens) texts
      (itemTrees items) := by
  match items with
  | [] =>
    obtain rfl := Except.ok.inj h
    exact .nil
  | item :: rest =>
    simp only [itemLiterals, bind_eq_ok_iff, pure_eq_ok_iff] at h
    obtain ⟨first, hfirst, others, hothers, rfl⟩ := h
    obtain ⟨hitem, hrest⟩ := List.append_eq_nil_iff.1 hraw
    exact .cons (readAs_tree hitem hfirst) (readAs_itemTrees hrest hothers)

end

/-- A value without raw SQL has no literal exactly if a number in it is not finite. Its literal is
read to the end as the tree of the value. -/
theorem readLiteral_literal {v : Value} (hraw : v.rawTexts = []) :
    ((∃ e, v.literal = .error e) ↔ ∃ x ∈ v.floats, x.isFinite = false) ∧
    ∀ sql, v.literal = .ok sql → readLiteral sql = some v.tree := by
  refine ⟨?_, fun sql hsql => readLiteral_of_readAs (readAs_tree hraw hsql)⟩
  simp only [literal_eq_error_iff]
  constructor
  · rintro ⟨-, x, hfind, rfl⟩
    exact ⟨x, List.mem_of_find?_eq_some hfind, by simpa using List.find?_some hfind⟩
  · rintro ⟨x, hmem, hx⟩
    obtain ⟨first, hfirst⟩ := Option.isSome_iff_exists.1
      (List.find?_isSome (p := fun x : Binary64 => !x.isFinite) |>.2 ⟨x, hmem, by simp [hx]⟩)
    exact ⟨_, first, hfirst, rfl⟩

/-- An array of arrays with a text that looks like the end of an array and the start of another. -/
def bracketText : Value :=
  .array [.array [], .array [.text "a'], ARRAY[';", .int (-7)], .array [now, .json .null]]

theorem readLiteral_literal_bracketText : bracketText.rawTexts = [] ∧
    bracketText.literal =
      .ok "ARRAY['\x7b\x7d', ARRAY['a''], ARRAY['';', -7], ARRAY[now(), 'null']]" ∧
    readLiteral "ARRAY['\x7b\x7d', ARRAY['a''], ARRAY['';', -7], ARRAY[now(), 'null']]" =
      some (.array [
        .leaf (.quoted ['\x7b', '\x7d']),
        .array [.leaf (.quoted "a'], ARRAY[';".toList), .leaf (.number ['-', '7'])],
        .array [.leaf (.word nowText.toList), .leaf (.quoted "null".toList)]]) := by
  have hraw : bracketText.rawTexts = [] := by decide
  have hsql : bracketText.literal =
      .ok "ARRAY['\x7b\x7d', ARRAY['a''], ARRAY['';', -7], ARRAY[now(), 'null']]" := by
    decide +kernel
  exact ⟨hraw, hsql, (readLiteral_literal hraw).2 _ hsql⟩

end Value

end PgToolkit
