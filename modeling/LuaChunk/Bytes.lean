/-!
# Byte strings

A byte string is a list of bytes.  Whole numbers are read from it in either byte order, unsigned or
in two's complement, and written to it in little-endian order at a fixed width.
-/

namespace LuaChunk

/-- A byte string. -/
abbrev Bytes := List UInt8

/-- Whether a byte string has at least `n` bytes, found out without walking past the `n`th. -/
def Bytes.hasAtLeast : Bytes → Nat → Bool
  | _, 0 => true
  | [], _ + 1 => false
  | _ :: rest, n + 1 => Bytes.hasAtLeast rest n

/-- The test for a number of bytes agrees with the length of the string. -/
theorem Bytes.hasAtLeast_iff {bytes : Bytes} {n : Nat} :
    bytes.hasAtLeast n = true ↔ n ≤ bytes.length := by
  induction n generalizing bytes with
  | zero => cases bytes <;> simp [hasAtLeast]
  | succ n ih => cases bytes <;> simp [hasAtLeast, ih]

/-- The order in which the bytes of a whole number stand. -/
inductive ByteOrder
  | little
  | big
deriving DecidableEq, Repr

/-- The number that bytes spell when the least significant one comes first. -/
def littleEndian : Bytes → Nat
  | [] => 0
  | b :: rest => b.toNat + 256 * littleEndian rest

/-- A number of `k` bytes is less than `256 ^ k`. -/
theorem littleEndian_lt (bytes : Bytes) : littleEndian bytes < Nat.pow 256 bytes.length := by
  induction bytes with
  | nil => exact Nat.zero_lt_one
  | cons b rest ih =>
    have := b.toNat_lt
    change b.toNat + 256 * littleEndian rest < Nat.pow 256 rest.length * 256
    omega

/-- The number that bytes spell in the given order. -/
def ByteOrder.unsigned (order : ByteOrder) (bytes : Bytes) : Nat :=
  match order with
  | .little => littleEndian bytes
  | .big => littleEndian bytes.reverse

/-- The number that bytes spell in two's complement; no bytes spell zero. -/
def ByteOrder.signed (order : ByteOrder) (bytes : Bytes) : Int :=
  let n := order.unsigned bytes
  let modulus := Nat.pow 256 bytes.length
  if 2 * n < modulus then n else (n : Int) - modulus

/-- The `width` low bytes of a number, the least significant one first. -/
def toLittleEndian : Nat → Nat → Bytes
  | 0, _ => []
  | width + 1, n => UInt8.ofNat (n % 256) :: toLittleEndian width (n / 256)

/-- Writing in a width gives as many bytes as the width. -/
theorem length_toLittleEndian (width n : Nat) : (toLittleEndian width n).length = width := by
  induction width generalizing n with
  | zero => rfl
  | succ width ih => simp [toLittleEndian, ih]

/-- Reading back what was written in a width gives the number up to a multiple of `256 ^ width`. -/
theorem littleEndian_toLittleEndian (width n : Nat) :
    littleEndian (toLittleEndian width n) = n % Nat.pow 256 width := by
  induction width generalizing n with
  | zero => exact (Nat.mod_one n).symm
  | succ width ih =>
    have low : (UInt8.ofNat (n % 256)).toNat = n % 256 := by simp
    change _ = n % (Nat.pow 256 width * 256)
    rw [toLittleEndian, littleEndian, low, ih, Nat.mul_comm (Nat.pow 256 width) 256, Nat.mod_mul]

/-- The low eight bits of a whole number, a negative one in two's complement. -/
def lowByte (n : Int) : UInt8 :=
  UInt8.ofNat (n % 256).toNat

end LuaChunk
