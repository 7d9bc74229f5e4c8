import Mathlib
import LuaChunk.Header

/-!
# Numerals of a chunk

The whole numbers of a chunk are numerals in base 256, whose digits are bytes in the order that the
header names.  `Header.StoresUnsigned` and `Header.StoresSigned` say which bytes of a given width
store a number; `Header.storesUnsigned_iff` and `Header.storesSigned_iff` tie them to the functions
that compute it; `unsigned_toLittleEndian` and `signed_toLittleEndian` are about the one that writes
it.
-/

namespace LuaChunk

/-- A format says which byte strings store a value. -/
abbrev Format (α : Type) := α → Bytes → Prop

/-- The number that bytes spell from the least significant one on is their value in base 256. -/
lemma littleEndian_eq_ofDigits (bs : Bytes) :
    littleEndian bs = Nat.ofDigits 256 (bs.map UInt8.toNat) := by
  induction bs with
  | nil => rfl
  | cons b rest ih =>
    rw [littleEndian, ih, List.map_cons, Nat.ofDigits_cons]

/-- Bytes spell no number past those of their width. -/
lemma ByteOrder.unsigned_lt (order : ByteOrder) (bs : Bytes) :
    order.unsigned bs < 256 ^ bs.length := by
  cases order with
  | little => exact littleEndian_lt bs
  | big =>
    have h := littleEndian_lt bs.reverse
    rw [List.length_reverse] at h
    exact h

namespace Header

/-- The number that bytes spell in base 256, the least significant one first unless the header says
that it comes last. -/
def numeral (h : Header) (bs : Bytes) : Nat :=
  Nat.ofDigits 256 ((if h.endianness = 0 then bs.reverse else bs).map UInt8.toNat)

/-- Numbers without a sign, of a given width. -/
def StoresUnsigned (h : Header) (width : Nat) : Format Nat := fun n bs =>
  bs.length = width ∧ n = h.numeral bs

/-- Numbers in two's complement, of a given width: the bytes spell the number up to a multiple of
the first power of 256 that needs more bytes, and the number lies in the middle around zero. -/
def StoresSigned (h : Header) (width : Nat) : Format Int := fun n bs =>
  bs.length = width ∧ -256 ^ width ≤ 2 * n ∧ 2 * n < 256 ^ width ∧
    n ≡ h.numeral bs [ZMOD 256 ^ width]

/-- The unsigned number of bytes is their numeral in the byte order of the header. -/
lemma unsigned_eq_numeral (h : Header) (bs : Bytes) :
    h.byteOrder.unsigned bs = h.numeral bs := by
  unfold byteOrder numeral
  split
  · exact littleEndian_eq_ofDigits bs.reverse
  · exact littleEndian_eq_ofDigits bs

/-- Bytes store the number without a sign that they are read as, and no other. -/
lemma storesUnsigned_iff {h : Header} {width n : Nat} {bs : Bytes} :
    h.StoresUnsigned width n bs ↔ bs.length = width ∧ n = h.byteOrder.unsigned bs := by
  rw [unsigned_eq_numeral]
  exact Iff.rfl

/-- A stored number without a sign fits its width. -/
lemma StoresUnsigned.lt {h : Header} {width n : Nat} {bs : Bytes}
    (stores : h.StoresUnsigned width n bs) : n < 256 ^ width := by
  obtain ⟨rfl, rfl⟩ := storesUnsigned_iff.mp stores
  exact h.byteOrder.unsigned_lt bs

/-- Two numbers of the middle around zero that differ by a multiple of its width are one. -/
lemma eq_of_modEq_of_middle {m a b : Int} (ha : -m ≤ 2 * a) (ha' : 2 * a < m) (hb : -m ≤ 2 * b)
    (hb' : 2 * b < m) (e : a ≡ b [ZMOD m]) : a = b := by
  obtain ⟨k, hk⟩ := e.dvd
  have hm : 0 < m := by omega
  have below : m * k < m * 1 := by omega
  have above : m * (-1) < m * k := by omega
  have h1 := lt_of_mul_lt_mul_left below hm.le
  have h2 := lt_of_mul_lt_mul_left above hm.le
  have zero : k = 0 := by omega
  rw [zero, mul_zero] at hk
  omega

/-- The number that bytes are read as in two's complement lies in the middle around zero and differs
from their numeral by a multiple of its width. -/
lemma storesSigned_signed (h : Header) (bs : Bytes) :
    h.StoresSigned bs.length (h.byteOrder.signed bs) bs := by
  have lt := h.byteOrder.unsigned_lt bs
  have lt' : (h.byteOrder.unsigned bs : Int) < 256 ^ bs.length := by exact_mod_cast lt
  rw [StoresSigned, ← unsigned_eq_numeral, ByteOrder.signed, Nat.pow_eq]
  refine ⟨rfl, ?_⟩
  push_cast
  split
  case isTrue small =>
    have small' : 2 * (h.byteOrder.unsigned bs : Int) < 256 ^ bs.length := by exact_mod_cast small
    exact ⟨by omega, small', Int.ModEq.refl _⟩
  case isFalse large =>
    have large' : (256 : Int) ^ bs.length ≤ 2 * (h.byteOrder.unsigned bs : Int) := by
      exact_mod_cast not_lt.mp large
    exact ⟨by omega, by omega, Int.sub_modulus_modEq_iff.mpr (Int.ModEq.refl _)⟩

/-- Bytes store the number in two's complement that they are read as, and no other. -/
lemma storesSigned_iff {h : Header} {width : Nat} {n : Int} {bs : Bytes} :
    h.StoresSigned width n bs ↔ bs.length = width ∧ n = h.byteOrder.signed bs := by
  constructor
  · rintro ⟨rfl, lo, hi, cong⟩
    obtain ⟨-, lo', hi', cong'⟩ := h.storesSigned_signed bs
    exact ⟨rfl, eq_of_modEq_of_middle lo hi lo' hi' (cong.trans cong'.symm)⟩
  · rintro ⟨rfl, rfl⟩
    exact h.storesSigned_signed bs

end Header

/-- A number that fits its width is read back from its bytes. -/
lemma unsigned_toLittleEndian {width n : Nat} (fits : n < 256 ^ width) :
    ByteOrder.little.unsigned (toLittleEndian width n) = n := by
  rw [ByteOrder.unsigned, littleEndian_toLittleEndian]
  exact Nat.mod_eq_of_lt fits

/-- A number that fits its width is read back in two's complement as itself from the lower half of
its range and as a negative one from the upper half. -/
lemma signed_toLittleEndian {width n : Nat} (fits : n < 256 ^ width) :
    ByteOrder.little.signed (toLittleEndian width n) =
      if 2 * n < 256 ^ width then (n : Int) else n - 256 ^ width := by
  rw [ByteOrder.signed, unsigned_toLittleEndian fits, length_toLittleEndian, Nat.pow_eq]
  push_cast
  rfl

end LuaChunk
