/-!
# Words in network order

Numbers of a fixed width as bytes, highest byte first.
-/

namespace PgToolkit.Wire

-- A power is the core library's, also where a general one is in scope.
attribute [local instance (high)] instPowNat

/-- The lowest `width` bytes of a number, highest first. -/
def unsignedBytes : Nat → Nat → List UInt8
  | 0, _ => []
  | width + 1, n => UInt8.ofNat (n / 256 ^ width) :: unsignedBytes width n

/-- The number that bytes stand for, highest first. -/
def unsignedOf : List UInt8 → Nat
  | [] => 0
  | b :: rest => b.toNat * 256 ^ rest.length + unsignedOf rest

/-- The lowest `width` bytes of an integer in two's complement. -/
def signedBytes (width : Nat) (i : Int) : List UInt8 :=
  unsignedBytes width (i % (256 ^ width : Nat)).toNat

/-- The integer that bytes stand for in two's complement. -/
def signedOf (bytes : List UInt8) : Int :=
  Int.bmod (unsignedOf bytes) (256 ^ bytes.length)

/-- The first `width` bytes and the rest, when there are that many. -/
def split? (width : Nat) (bytes : List UInt8) : Option (List UInt8 × List UInt8) :=
  if width ≤ bytes.length then some (bytes.take width, bytes.drop width) else none

@[simp] theorem length_unsignedBytes (width n : Nat) : (unsignedBytes width n).length = width := by
  induction width with
  | zero => rfl
  | succ width ih => simp [unsignedBytes, ih]

@[simp] theorem length_signedBytes (width : Nat) (i : Int) :
    (signedBytes width i).length = width := by
  simp [signedBytes]

/-- Bytes read back as the number that they were written from, up to the width. -/
theorem unsignedOf_unsignedBytes (width n : Nat) :
    unsignedOf (unsignedBytes width n) = n % 256 ^ width := by
  induction width with
  | zero => simp [unsignedBytes, unsignedOf, Nat.mod_one]
  | succ width ih =>
    have htop : (UInt8.ofNat (n / 256 ^ width)).toNat = n / 256 ^ width % 256 := by simp
    rw [unsignedBytes, unsignedOf, htop, length_unsignedBytes, ih, Nat.mod_pow_succ,
      Nat.mul_comm, Nat.add_comm]

/-- An integer of the width reads back from its bytes. -/
theorem signedOf_signedBytes (width : Nat) (i : Int) :
    signedOf (signedBytes width i) = Int.bmod i (256 ^ width) := by
  have hpos : (0 : Int) < (256 ^ width : Nat) := Int.natCast_pos.2 (Nat.pow_pos (by omega))
  have hlt : (i % (256 ^ width : Nat)).toNat < 256 ^ width := by
    have := Int.emod_lt_of_pos i hpos
    have := Int.emod_nonneg i (Int.ne_of_gt hpos)
    omega
  rw [signedOf, length_signedBytes, signedBytes, unsignedOf_unsignedBytes,
    Nat.mod_eq_of_lt hlt, Int.toNat_of_nonneg (Int.emod_nonneg i (Int.ne_of_gt hpos))]
  exact Int.emod_bmod i (256 ^ width)

/-- What is written in front is split off. -/
theorem split?_append {front rest : List UInt8} {width : Nat} (h : front.length = width) :
    split? width (front ++ rest) = some (front, rest) := by
  subst h
  simp [split?]

end PgToolkit.Wire
