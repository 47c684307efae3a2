import PgToolkit.Sql.Placeholder

/-!
# Scanning by offsets

The marks of a text are found in one pass over its bytes. Offsets count bytes, and the text between
two offsets can be taken only when neither of them is inside of a character, so a scan could fail.
-/

namespace PgToolkit.Sql

/-! ### Offsets -/

/-- The bytes of a text in UTF-8. -/
def encoded (text : List Char) : List UInt8 := text.flatMap String.utf8EncodeChar

def byteSize (text : List Char) : Nat := (encoded text).length

/-- The text from an offset on, unless the offset is inside of a character. -/
def dropBytes? : Nat → List Char → Option (List Char)
  | 0, text => some text
  | _ + 1, [] => none
  | n + 1, c :: rest =>
    if c.utf8Size ≤ n + 1 then dropBytes? (n + 1 - c.utf8Size) rest else none

/-- The text up to an offset, unless the offset is inside of a character. -/
def takeBytes? : Nat → List Char → Option (List Char)
  | 0, _ => some []
  | _ + 1, [] => none
  | n + 1, c :: rest =>
    if c.utf8Size ≤ n + 1 then (c :: ·) <$> takeBytes? (n + 1 - c.utf8Size) rest else none

/-- The text between two offsets. -/
def slice? (text : List Char) (start stop : Nat) : Option (List Char) := do
  takeBytes? (stop - start) (← dropBytes? start text)

/-- The offset at which a text first has another one in it. -/
def offsetOf? (sought : List Char) : List Char → Option Nat
  | [] => none
  | c :: rest =>
    if sought.isPrefixOf (c :: rest) then some 0 else (· + c.utf8Size) <$> offsetOf? sought rest

/-! ### Regions -/

/-- The offset behind a quoted token, from an offset inside of it on. -/
def behindQuoted (bytes : List UInt8) (quote : UInt8) (i : Nat) : Nat :=
  if i < bytes.length then
    if bytes[i]? = some quote then
      if bytes[i + 1]? = some quote then behindQuoted bytes quote (i + 2) else i + 1
    else behindQuoted bytes quote (i + 1)
  else bytes.length
termination_by bytes.length - i

/-- The offset behind the next `stop`, from an offset on; without one, the end of the text. -/
def behindNext? (text stop : List Char) (i : Nat) : Option Nat := do
  match offsetOf? stop (← dropBytes? i text) with
  | some offset => return i + offset + byteSize stop
  | none => return byteSize text

/-- The delimiter of the dollar quote that begins at an offset, if one does. -/
def delimiterAt? (text : List Char) (i : Nat) : Option (Option (List Char)) := do
  let rest ← dropBytes? (i + 1) text
  match offsetOf? ['$'] rest with
  | none => return none
  | some stop =>
    if isTag (← takeBytes? stop rest) then some <$> slice? text i (i + stop + 2) else return none

/-- The offset behind the region that begins at an offset. A byte that opens no region is passed
over. -/
def behind? (text : List Char) (i : Nat) : Option Nat :=
  let next? := (encoded text)[i + 1]?
  match (encoded text)[i]? with
  | none => none
  | some byte =>
    if byte = '\''.toUInt8 ∨ byte = '"'.toUInt8 then some (behindQuoted (encoded text) byte (i + 1))
    else if byte = '-'.toUInt8 ∧ next? = some '-'.toUInt8 then behindNext? text ['\n'] i
    else if byte = '/'.toUInt8 ∧ next? = some '*'.toUInt8 then behindNext? text ['*', '/'] (i + 2)
    else if byte = '$'.toUInt8 then do
      match ← delimiterAt? text i with
      | some delimiter => behindNext? text delimiter (i + byteSize delimiter)
      | none => return i + 1
    else some (i + 1)

/-! ### Progress -/

@[simp] theorem byteSize_nil : byteSize [] = 0 := rfl

@[simp] theorem byteSize_cons (c : Char) (rest : List Char) :
    byteSize (c :: rest) = c.utf8Size + byteSize rest := by
  simp [byteSize, encoded]

theorem byteSize_of_takeBytes? {n : Nat} {text piece : List Char}
    (h : takeBytes? n text = some piece) : byteSize piece = n := by
  fun_induction takeBytes? n text generalizing piece with
  | case1 => simp_all
  | case2 => cases h
  | case3 n c rest hle ih =>
    obtain ⟨tail, htail, rfl⟩ := Option.map_eq_some_iff.1 h
    rw [byteSize_cons, ih htail]
    omega
  | case4 => cases h

theorem byteSize_of_slice? {text piece : List Char} {start stop : Nat}
    (h : slice? text start stop = some piece) : byteSize piece = stop - start := by
  obtain ⟨rest, -, htake⟩ := Option.bind_eq_some_iff.1 h
  exact byteSize_of_takeBytes? htake

theorem lt_length_of_getElem? {bytes : List UInt8} {i : Nat} {byte : UInt8}
    (h : bytes[i]? = some byte) : i < bytes.length :=
  (List.getElem?_eq_some_iff.1 h).1

theorem le_behindQuoted {bytes : List UInt8} (quote : UInt8) {i : Nat} (h : i ≤ bytes.length) :
    i ≤ behindQuoted bytes quote i := by
  fun_induction behindQuoted bytes quote i with
  | case1 i _ _ hnext ih =>
    have hlt := lt_length_of_getElem? hnext
    have := ih (by omega)
    omega
  | case2 => omega
  | case3 i hlt _ ih =>
    have := ih (by omega)
    omega
  | case4 => exact h

/-- What comes behind an end that is sought is behind the offset, or the end of the text. -/
theorem of_behindNext? {text stop : List Char} {i j : Nat} (h : behindNext? text stop i = some j) :
    i + byteSize stop ≤ j ∨ j = byteSize text := by
  obtain ⟨rest, -, h⟩ := Option.bind_eq_some_iff.1 h
  split at h
  · cases h
    left
    omega
  · cases h
    exact .inr rfl

theorem byteSize_of_delimiterAt? {text delimiter : List Char} {i : Nat}
    (h : delimiterAt? text i = some (some delimiter)) : 0 < byteSize delimiter := by
  obtain ⟨rest, -, h⟩ := Option.bind_eq_some_iff.1 h
  split at h
  · cases h
  · obtain ⟨tag, -, h⟩ := Option.bind_eq_some_iff.1 h
    split at h
    · obtain ⟨_, hslice, heq⟩ := Option.map_eq_some_iff.1 h
      cases heq
      rw [byteSize_of_slice? hslice]
      omega
    · cases h

/-- A scan goes on with every region and every other byte. -/
theorem lt_of_behind? {text : List Char} {i j : Nat} (h : behind? text i = some j) : i < j := by
  unfold behind? at h
  dsimp only at h
  split at h
  · cases h
  next byte hbyte =>
  have hi : i < byteSize text := lt_length_of_getElem? hbyte
  split at h
  · cases h
    exact le_behindQuoted byte hi
  split at h
  · rcases of_behindNext? h with hle | rfl
    · have hpos : byteSize ['\n'] = 1 := rfl
      omega
    · exact hi
  split at h
  · rcases of_behindNext? h with hle | rfl
    · omega
    · exact hi
  split at h
  · obtain ⟨delimiter?, hdelimiter, h⟩ := Option.bind_eq_some_iff.1 h
    split at h
    · have hpos := byteSize_of_delimiterAt? hdelimiter
      rcases of_behindNext? h with hle | rfl
      · omega
      · exact hi
    · cases h
      omega
  · cases h
    omega

/-! ### The scan -/

/-- What a scan finds. -/
inductive Token where
  /-- Text between marks, with the regions in it. -/
  | text (piece : List Char)
  | placeholder
  | escapedMark
  deriving DecidableEq, Repr

/-- Scans a text from the offset `i` on, the text from `start` on not being told yet. -/
def scanFrom (text : List Char) (start i : Nat) : Option (List Token) :=
  if i < byteSize text then
    if (encoded text)[i]? = some '?'.toUInt8 then do
      let piece ← slice? text start i
      if (encoded text)[i + 1]? = some '?'.toUInt8 then
        return .text piece :: .escapedMark :: (← scanFrom text (i + 2) (i + 2))
      else
        return .text piece :: .placeholder :: (← scanFrom text (i + 1) (i + 1))
    else
      match hnext : behind? text i with
      | none => none
      | some next =>
        have := lt_of_behind? hnext
        scanFrom text start next
  else do return [.text (← slice? text start (byteSize text))]
termination_by byteSize text - i

/-- What there is in a text; nothing, if a cut would be inside of a character. -/
def scan (sql : String) : Option (List Token) := scanFrom sql.toList 0 0

namespace Token

/-- Writes what was found, with placeholders numbered; `used` numbers are taken already. -/
def renderFrom (used : Nat) : List Token → List Char
  | [] => []
  | Token.text piece :: rest => piece ++ renderFrom used rest
  | .placeholder :: rest => '$' :: ((toString (used + 1)).toList ++ renderFrom (used + 1) rest)
  | .escapedMark :: rest => '?' :: renderFrom used rest

end Token

end PgToolkit.Sql
