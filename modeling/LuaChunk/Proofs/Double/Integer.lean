import LuaChunk.Proofs.Double.Whole

/-!
# Rounding integers

Rounding keeps the order of numbers (`RoundsTo.mono`).  Since the integers up to 2⁵³ are values of
doubles, rounding leaves them alone (`RoundsTo.value_eq`), and every other integer is rounded to a
double that is as far from zero at least.  There the doubles are whole, so an integer is always
rounded to an integer (`RoundsTo.isWhole`).
-/

namespace LuaChunk

/-- Of two numbers the upper one is nearer only to what lies above the middle. -/
lemma add_le_of_abs_sub_le {a b x : ℚ} (lt : a < b) (near : |b - x| ≤ |a - x|) :
    a + b ≤ 2 * x := by
  by_contra low
  have sides := mul_pos (sub_pos.mpr lt) (sub_pos.mpr (not_le.mp low))
  have squares := sq_le_sq.mpr near
  linarith

/-- Of two numbers the lower one is nearer only to what lies below the middle. -/
lemma le_add_of_abs_sub_le {a b x : ℚ} (lt : a < b) (near : |a - x| ≤ |b - x|) :
    2 * x ≤ a + b := by
  by_contra high
  have sides := mul_pos (sub_pos.mpr lt) (sub_pos.mpr (not_le.mp high))
  have squares := sq_le_sq.mpr near
  linarith

namespace Double

variable {q r : ℚ} {n k : ℤ} {d e : Double}

/-- The distance of a double from a whole number is their distance in units, divided by the units of
one. -/
lemma abs_value_sub (d : Double) (n : ℤ) :
    |d.value - n| = ((|d.scaled - n * one| : ℤ) : ℚ) / one := by
  have units : (n : ℚ) = n * one / one := (mul_div_cancel_right₀ _ one_pos_rat.ne').symm
  rw [value, units, ← sub_div, abs_div, abs_of_pos one_pos_rat]
  push_cast
  rfl

/-- The double nearest to an integer is the one that it is rounded to, if it is not too large. -/
lemma IsNearest.roundsTo (near : IsNearest n d) (small : n.natAbs < overflowBound) :
    RoundsTo n d where
  finite := near.finite
  bounded := by
    rw [← Int.cast_abs, Int.abs_eq_natAbs, Int.cast_natCast]
    exact Nat.cast_lt.mpr small
  nearest e finite := by
    rw [abs_value_sub, abs_value_sub, div_le_div_iff_of_pos_right one_pos_rat]
    exact Int.cast_le.mpr (near.nearest e finite)
  even e finite other tie := by
    rw [abs_value_sub, abs_value_sub, div_left_inj' one_pos_rat.ne', Int.cast_inj] at tie
    exact near.even e finite (fun same => other (by rw [value, value, same])) tie

/-- An integer that is converted at all is rounded as a rational number is. -/
lemma roundsTo_of_ofInt? (rounded : ofInt? n = some d) : RoundsTo n d :=
  (IsNearest.of_ofInt? rounded).roundsTo (exists_ofInt?_iff.mp ⟨d, rounded⟩)

/-- Rounding keeps the order. -/
lemma RoundsTo.mono (hd : RoundsTo q d) (he : RoundsTo r e) (le : q ≤ r) : d.value ≤ e.value := by
  by_contra above
  rw [not_le] at above
  -- Both numbers would lie in the middle between the two values.
  have low := add_le_of_abs_sub_le above (hd.nearest e he.finite)
  have high := le_add_of_abs_sub_le above (he.nearest d hd.finite)
  have same : q = r := by linarith
  subst same
  exact above.ne' (hd.unique he)

/-- An integer of up to 53 bits, or the next power of two, is the value of a double. -/
lemma exists_value_eq_intCast (small : k.natAbs ≤ 2 ^ 53) :
    ∃ d : Double, d.isFinite = true ∧ d.value = k := by
  obtain ⟨m, p, v, e⟩ : ∃ m p, IsSignificand m p ∧ m * 2 ^ p = k.natAbs * 2 ^ 1074 := by
    rcases small.lt_or_eq with lt | eq
    · exact exists_isSignificand lt (mul_two_pow_lt lt (by decide))
    · refine ⟨2 ^ 52, 1075, ⟨by decide, .inl (le_refl _), by decide⟩, ?_⟩
      rw [eq, ← pow_add, ← pow_add]
  obtain ⟨d, finite, value⟩ := exists_value v (k < 0)
  refine ⟨d, finite, ?_⟩
  rw [value, e, ← one_eq, Nat.cast_mul, mul_div_cancel_right₀ _ one_pos_rat.ne', Nat.cast_natAbs,
    Int.cast_abs]
  simpa using signed_abs (k : ℚ)

namespace RoundsTo

/-- What is not below an integer of up to 53 bits is not rounded below it. -/
lemma le_value (rounds : RoundsTo q d) (small : k.natAbs ≤ 2 ^ 53) (le : k ≤ q) : k ≤ d.value := by
  obtain ⟨e, finite, value⟩ := exists_value_eq_intCast small
  rw [← value] at le ⊢
  exact (roundsTo_value finite).mono rounds le

/-- What is not above an integer of up to 53 bits is not rounded above it. -/
lemma value_le (rounds : RoundsTo q d) (small : k.natAbs ≤ 2 ^ 53) (le : q ≤ k) : d.value ≤ k := by
  obtain ⟨e, finite, value⟩ := exists_value_eq_intCast small
  rw [← value] at le ⊢
  exact rounds.mono (roundsTo_value finite) le

/-- An integer of up to 53 bits is rounded to itself. -/
lemma value_eq (rounds : RoundsTo n d) (small : n.natAbs ≤ 2 ^ 53) : d.value = n :=
  le_antisymm (rounds.value_le small (le_refl _)) (rounds.le_value small (le_refl _))

/-- A larger integer is rounded to a value on the same side of zero that is large as well. -/
lemma le_value_or_value_le (rounds : RoundsTo n d) (large : 2 ^ 53 < n.natAbs) :
    (2 ^ 53 < n ∧ ((2 ^ 53 : ℤ) : ℚ) ≤ d.value) ∨
      (n < -2 ^ 53 ∧ d.value ≤ ((-2 ^ 53 : ℤ) : ℚ)) := by
  have side : 2 ^ 53 < n ∨ n < -2 ^ 53 := by omega
  rcases side with above | below
  · exact .inl ⟨above, rounds.le_value (by decide) (Int.cast_le.mpr above.le)⟩
  · exact .inr ⟨below, rounds.value_le (by decide) (Int.cast_le.mpr below.le)⟩

end RoundsTo

/-- Doubles that are not below 2⁵³ are whole. -/
lemma isWhole_of_large (finite : d.isFinite = true) (large : 2 ^ 53 ≤ |d.value|) :
    d.isWhole = true := by
  have v := isSignificand finite
  have units : 2 ^ 53 * 2 ^ 1074 ≤ d.significand * 2 ^ d.unitExponent := by
    rw [abs_value, le_div_iff₀ one_pos_rat] at large
    rw [← one_eq, ← magnitude_eq]
    exact_mod_cast large
  have below := mul_two_pow_lt v.lt (le_refl (53 + d.unitExponent))
  have exponent : 1074 ≤ d.unitExponent := by
    have := add_lt_of_mul_lt (units.trans_lt below)
    omega
  have multiple : one ∣ d.magnitude := by
    rw [one_eq, magnitude_eq]
    exact (pow_dvd_pow 2 exponent).mul_left _
  rw [isWhole, finite, Nat.mod_eq_zero_of_dvd multiple]
  rfl

/-- An integer is rounded to an integer. -/
theorem RoundsTo.isWhole (rounds : RoundsTo n d) : d.isWhole = true := by
  rcases le_or_gt n.natAbs (2 ^ 53) with small | large
  · exact isWhole_iff.mpr ⟨rounds.finite, n, rounds.value_eq small⟩
  · apply isWhole_of_large rounds.finite
    rcases rounds.le_value_or_value_le large with ⟨-, above⟩ | ⟨-, below⟩
    · exact le_abs.mpr (.inl (by exact_mod_cast above))
    · exact le_abs.mpr (.inr (by push_cast at below; linarith))

/-- Rounding an integer does not change the integer of 32 bits that is nearest to it. -/
theorem RoundsTo.clamp_eq (rounds : RoundsTo n d) (value : d.value = k) :
    max (-2 ^ 31) (min (2 ^ 31 - 1) k) = max (-2 ^ 31) (min (2 ^ 31 - 1) n) := by
  rcases le_or_gt n.natAbs (2 ^ 53) with small | large
  · have same := rounds.value_eq small
    rw [value, Int.cast_inj] at same
    rw [same]
  · have sides := rounds.le_value_or_value_le large
    rw [value, Int.cast_le, Int.cast_le] at sides
    omega

end Double

end LuaChunk
