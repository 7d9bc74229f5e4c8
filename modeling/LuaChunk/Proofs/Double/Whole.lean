import LuaChunk.Proofs.Double.Value

/-!
# Whole doubles

A double is whole exactly if it is finite and its value is an integer (`isWhole_iff`), and then
cutting its fractional part off leaves this integer (`truncate_eq_of_value`).
-/

namespace LuaChunk.Double

variable {n : Int} {d : Double}

/-- A double with the units and the sign of a whole number has the magnitude of this number. -/
lemma magnitude_of_scaled (sign : d.isNegative = decide (n < 0)) (value : d.scaled = n * one) :
    d.magnitude = n.natAbs * one := by
  rw [mul_one_eq_withSignOf, scaled, sign, withSignOf] at value
  by_cases neg : n < 0
  · rw [if_pos (decide_eq_true neg), if_pos neg] at value
    exact Int.ofNat.inj (neg_inj.mp value)
  · rw [if_neg (mt of_decide_eq_true neg), if_neg neg] at value
    exact Int.ofNat.inj value

/-- A finite double with the magnitude of a whole number is whole. -/
lemma isWhole_of_magnitude (finite : d.isFinite = true) (value : d.magnitude = n.natAbs * one) :
    d.isWhole = true := by
  rw [isWhole, finite, value, Nat.mul_mod_left]
  rfl

/-- A double with the magnitude and the sign of a whole number is truncated to this number. -/
lemma truncate_of_magnitude (sign : d.isNegative = decide (n < 0))
    (value : d.magnitude = n.natAbs * one) : d.truncate = n := by
  rw [truncate, value, Nat.mul_div_cancel _ one_pos, sign]
  by_cases neg : n < 0
  · rw [if_pos (decide_eq_true neg)]
    omega
  · rw [if_neg (mt of_decide_eq_true neg)]
    omega

/-- A finite double is neither infinite nor NaN. -/
lemma not_special_of_isFinite (finite : d.isFinite = true) :
    d.isNaN = false ∧ d.isInfinite = false := by
  rw [isFinite, bne_iff_ne, ne_eq] at finite
  rw [isNaN, isInfinite, beq_eq_false_iff_ne.mpr finite]
  exact ⟨rfl, rfl⟩

/-- A double whose value is an integer has this many times the magnitude of one. -/
lemma magnitude_of_value (value : d.value = n) : d.magnitude = n.natAbs * one := by
  have size := d.abs_value
  rw [value, ← Int.cast_abs, Int.abs_eq_natAbs, Int.cast_natCast, eq_div_iff one_pos_rat.ne',
    ← Nat.cast_mul, Nat.cast_inj] at size
  exact size.symm

/-- Cutting the fractional part off does not change a whole double. -/
lemma truncate_eq_value (whole : d.isWhole = true) : d.truncate = d.value := by
  rw [isWhole, Bool.and_eq_true, beq_iff_eq] at whole
  have e : (d.magnitude : ℚ) / one = (d.magnitude / one : Nat) :=
    (Nat.cast_div (Nat.dvd_of_mod_eq_zero whole.2) one_pos_rat.ne').symm
  rw [value_eq, e, truncate, signed]
  split
  · rw [Int.cast_neg, Int.cast_natCast]
  · rw [Int.cast_natCast]

/-- A double is whole if it is finite and its value is an integer. -/
theorem isWhole_iff : d.isWhole = true ↔ d.isFinite = true ∧ ∃ n : ℤ, d.value = n := by
  constructor
  · intro whole
    have value := truncate_eq_value whole
    rw [isWhole, Bool.and_eq_true] at whole
    exact ⟨whole.1, d.truncate, value.symm⟩
  · rintro ⟨finite, n, value⟩
    exact isWhole_of_magnitude finite (magnitude_of_value value)

/-- The integer that a double is left with is its value. -/
theorem truncate_eq_of_value (finite : d.isFinite = true) (value : d.value = n) :
    d.truncate = n := by
  have whole := truncate_eq_value (isWhole_iff.mpr ⟨finite, n, value⟩)
  rw [value, Int.cast_inj] at whole
  exact whole

end LuaChunk.Double
