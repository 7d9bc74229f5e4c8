import Mathlib
import LuaChunk.Double.Basic

/-!
# Magnitudes of doubles

A finite double is a significand times a power of two, in units of 2⁻¹⁰⁷⁴.  `Double.IsSignificand`
says which pairs occur; `Double.ofMagnitude` builds the double of each (`significand_ofMagnitude`,
`unitExponent_ofMagnitude`), and a finite double is the one built from its sign and its magnitude
(`ofMagnitude_magnitude`).
-/

namespace LuaChunk.Double

/-- The significand of a double with its leading bit, which the least doubles lack. -/
def significand (d : Double) : Nat :=
  if d.exponentField = 0 then d.fraction else 2 ^ 52 + d.fraction

/-- The power of two, in units of 2⁻¹⁰⁷⁴, that the significand counts. -/
def unitExponent (d : Double) : Nat :=
  d.exponentField - 1

/-- A significand and an exponent that a finite double has: the leading bit is missing only at the
least exponent. -/
structure IsSignificand (m p : Nat) : Prop where
  lt : m < 2 ^ 53
  leading : 2 ^ 52 ≤ m ∨ p = 0
  le : p ≤ 2045

/-- A pattern has 64 bits. -/
lemma word_lt (d : Double) : d.word < 2 ^ 64 :=
  d.bits.toNat_lt

/-- A double is determined by its pattern as a number. -/
lemma eq_of_word_eq {d e : Double} (h : d.word = e.word) : d = e := by
  cases d
  cases e
  rw [Double.mk.injEq]
  exact UInt64.toNat_inj.mp h

/-- The magnitude is the significand at its exponent. -/
lemma magnitude_eq (d : Double) : d.magnitude = d.significand * 2 ^ d.unitExponent := by
  unfold magnitude significand unitExponent
  split
  case isTrue h => rw [h]; simp
  case isFalse h => rfl

/-- A finite double has a significand and an exponent of the expected sizes. -/
lemma isSignificand {d : Double} (fin : d.isFinite = true) :
    IsSignificand d.significand d.unitExponent := by
  have hf : d.fraction < 2 ^ 52 := Nat.mod_lt _ (by decide)
  have he : d.exponentField < 2048 := Nat.mod_lt _ (by decide)
  have hs : d.exponentField ≠ 2047 := by simpa [isFinite, specialExponent] using fin
  unfold significand unitExponent
  constructor
  · split <;> omega
  · split <;> omega
  · omega

/-- The pattern is the sign bit and the other bits. -/
lemma word_ofBits {negative : Bool} {others : Nat} (lt : others < 2 ^ 63) :
    (ofBits negative others).word = (if negative then 2 ^ 63 else 0) + others := by
  cases negative <;>
    simp only [ofBits, word, signWeight, UInt64.toNat_ofNat', Bool.false_eq_true, if_true,
      if_false] <;>
    omega

/-- The sign is the one that was given. -/
lemma isNegative_ofBits {negative : Bool} {others : Nat} (lt : others < 2 ^ 63) :
    (ofBits negative others).isNegative = negative := by
  rw [isNegative, word_ofBits lt, signWeight]
  cases negative
  · simp only [Bool.false_eq_true, if_false, decide_eq_false_iff_not]
    omega
  · simp only [if_true, decide_eq_true_eq]
    omega

/-- The exponent field stands behind the 52 bits of the fraction. -/
lemma exponentField_ofBits {negative : Bool} {others : Nat} (lt : others < 2 ^ 63) :
    (ofBits negative others).exponentField = others / 2 ^ 52 := by
  rw [exponentField, word_ofBits lt, exponentWeight]
  cases negative
  · simp only [Bool.false_eq_true, if_false]
    omega
  · simp only [if_true]
    omega

/-- The fraction is the lowest 52 bits. -/
lemma fraction_ofBits {negative : Bool} {others : Nat} (lt : others < 2 ^ 63) :
    (ofBits negative others).fraction = others % 2 ^ 52 := by
  rw [fraction, word_ofBits lt, exponentWeight]
  cases negative
  · simp only [Bool.false_eq_true, if_false]
    omega
  · simp only [if_true]
    omega

/-- Sign, exponent field and fraction make up the pattern. -/
lemma ofBits_fields (d : Double) :
    ofBits d.isNegative (d.exponentField * 2 ^ 52 + d.fraction) = d := by
  have hw := d.word_lt
  have lt : d.exponentField * 2 ^ 52 + d.fraction < 2 ^ 63 := by
    rw [exponentField, fraction, exponentWeight]
    omega
  apply eq_of_word_eq
  rw [word_ofBits lt, isNegative, exponentField, fraction, exponentWeight, signWeight]
  by_cases neg : 0x8000000000000000 ≤ d.word
  · rw [decide_eq_true neg, if_pos rfl]
    omega
  · rw [decide_eq_false neg, if_neg Bool.false_ne_true]
    omega

namespace IsSignificand

variable {m p : Nat}

/-- The spacing of the doubles at a magnitude is the exponent of its significand. -/
lemma spacing_eq (v : IsSignificand m p) : spacing (m * 2 ^ p) = p := by
  unfold spacing
  rcases v.leading with lead | rfl
  · have pos := Nat.two_pow_pos p
    have log : (m * 2 ^ p).log2 = 52 + p := by
      rw [Nat.log2_eq_iff (Nat.mul_ne_zero (by omega) pos.ne')]
      constructor
      · rw [pow_add]
        exact Nat.mul_le_mul_right _ lead
      · rw [add_right_comm, pow_add]
        exact Nat.mul_lt_mul_of_pos_right v.lt pos
    rw [log, Nat.add_sub_cancel_left]
  · have := v.lt
    by_cases zero : m = 0
    · subst zero
      simp
    · have := (Nat.log2_lt zero).mpr v.lt
      rw [pow_zero, mul_one]
      omega

/-- The bits of a magnitude besides the sign. -/
lemma ofMagnitude_eq (v : IsSignificand m p) (negative : Bool) :
    ofMagnitude negative (m * 2 ^ p) = ofBits negative (p * 2 ^ 52 + m) := by
  rw [ofMagnitude, v.spacing_eq, Nat.pow_eq, Nat.mul_div_cancel _ (Nat.two_pow_pos p)]
  rfl

/-- The bits of a magnitude leave room for the sign. -/
lemma bits_lt (v : IsSignificand m p) : p * 2 ^ 52 + m < 2047 * 2 ^ 52 := by
  have := v.lt
  have := v.le
  omega

/-- A double made of a magnitude has the sign that it was given. -/
lemma isNegative_ofMagnitude (v : IsSignificand m p) (negative : Bool) :
    (ofMagnitude negative (m * 2 ^ p)).isNegative = negative := by
  have := v.bits_lt
  rw [v.ofMagnitude_eq]
  exact isNegative_ofBits (by omega)

/-- A double made of a magnitude that a finite double has is finite. -/
lemma isFinite_ofMagnitude (v : IsSignificand m p) (negative : Bool) :
    (ofMagnitude negative (m * 2 ^ p)).isFinite = true := by
  have := v.bits_lt
  rw [v.ofMagnitude_eq, isFinite, exponentField_ofBits (by omega), specialExponent, bne_iff_ne]
  omega

/-- A double made of a magnitude has its significand. -/
lemma significand_ofMagnitude (v : IsSignificand m p) (negative : Bool) :
    (ofMagnitude negative (m * 2 ^ p)).significand = m := by
  have hb := v.bits_lt
  have hm := v.lt
  have hl := v.leading
  rw [v.ofMagnitude_eq, significand, exponentField_ofBits (by omega), fraction_ofBits (by omega)]
  split <;> omega

/-- A double made of a magnitude has its power of two. -/
lemma unitExponent_ofMagnitude (v : IsSignificand m p) (negative : Bool) :
    (ofMagnitude negative (m * 2 ^ p)).unitExponent = p := by
  have hb := v.bits_lt
  have hm := v.lt
  have hl := v.leading
  rw [v.ofMagnitude_eq, unitExponent, exponentField_ofBits (by omega)]
  omega

/-- A double made of a magnitude has this magnitude. -/
lemma magnitude_ofMagnitude (v : IsSignificand m p) (negative : Bool) :
    (ofMagnitude negative (m * 2 ^ p)).magnitude = m * 2 ^ p := by
  rw [magnitude_eq, v.significand_ofMagnitude, v.unitExponent_ofMagnitude]

end IsSignificand

/-- A number is less than the power of two above its binary logarithm. -/
lemma lt_two_pow_log2_succ (n : Nat) : n < 2 ^ (n.log2 + 1) := by
  by_cases zero : n = 0
  · subst zero
    simp
  · exact ((Nat.log2_eq_iff zero).mp rfl).2

/-- Cutting a magnitude down to the spacing of the doubles there leaves a significand. -/
lemma isSignificand_spacing {n : Nat} (lt : n < 2 ^ 2098) :
    IsSignificand (n / 2 ^ spacing n) (spacing n) := by
  have top := lt_two_pow_log2_succ n
  have pos := Nat.two_pow_pos (spacing n)
  constructor
  · rw [Nat.div_lt_iff_lt_mul pos, ← pow_add]
    apply top.trans_le
    apply Nat.pow_le_pow_right (by decide)
    unfold spacing
    omega
  · by_cases small : spacing n = 0
    · exact .inr small
    · have zero : n ≠ 0 := by
        rintro rfl
        exact small rfl
      left
      rw [Nat.le_div_iff_mul_le pos, ← pow_add]
      have e : 52 + spacing n = n.log2 := by
        unfold spacing at small ⊢
        omega
      rw [e]
      exact Nat.log2_self_le zero
  · unfold spacing
    by_cases zero : n = 0
    · subst zero
      simp
    · have := (Nat.log2_lt zero).mpr lt
      omega

/-- A number below a power of two stays below the next ones when it is doubled as often. -/
lemma mul_two_pow_lt {k a e b : Nat} (lt : k < 2 ^ a) (le : a + e ≤ b) : k * 2 ^ e < 2 ^ b :=
  calc k * 2 ^ e < 2 ^ a * 2 ^ e := Nat.mul_lt_mul_of_pos_right lt (Nat.two_pow_pos e)
    _ = 2 ^ (a + e) := (pow_add 2 a e).symm
    _ ≤ 2 ^ b := Nat.pow_le_pow_right (by decide) le

/-- A multiple of a power of two below 2⁵³ times this power is as finely spaced. -/
lemma spacing_mul_two_pow_le {k : Nat} (lt : k < 2 ^ 53) (e : Nat) : spacing (k * 2 ^ e) ≤ e := by
  unfold spacing
  by_cases zero : k * 2 ^ e = 0
  · rw [zero]
    simp
  · have := (Nat.log2_lt zero).mpr (mul_two_pow_lt lt (le_refl (53 + e)))
    omega

/-- A number below 2⁵³ times a power of two is a magnitude of a finite double, unless it is too
large. -/
lemma exists_isSignificand {k e : Nat} (lt : k < 2 ^ 53) (lt' : k * 2 ^ e < 2 ^ 2098) :
    ∃ m p, IsSignificand m p ∧ m * 2 ^ p = k * 2 ^ e := by
  refine ⟨_, _, isSignificand_spacing lt', ?_⟩
  apply Nat.div_mul_cancel
  exact (pow_dvd_pow 2 (spacing_mul_two_pow_le lt e)).trans (Dvd.intro_left k rfl)

/-- A finite double is built back from its sign and its magnitude. -/
lemma ofMagnitude_magnitude {d : Double} (fin : d.isFinite = true) :
    ofMagnitude d.isNegative d.magnitude = d := by
  have fields : d.unitExponent * 2 ^ 52 + d.significand =
      d.exponentField * 2 ^ 52 + d.fraction := by
    unfold significand unitExponent
    split <;> omega
  rw [magnitude_eq, (isSignificand fin).ofMagnitude_eq, fields, ofBits_fields]

/-- Finite doubles of the same sign and magnitude are the same. -/
lemma eq_of_magnitude_eq {d e : Double} (fd : d.isFinite = true) (fe : e.isFinite = true)
    (sign : d.isNegative = e.isNegative) (mag : d.magnitude = e.magnitude) : d = e := by
  rw [← ofMagnitude_magnitude fd, ← ofMagnitude_magnitude fe, sign, mag]

end LuaChunk.Double
