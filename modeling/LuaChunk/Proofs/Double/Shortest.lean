import LuaChunk.Proofs.Double.Grid
import LuaChunk.Proofs.Double.Value

/-!
# The shortest decimal

`Double.decimal` is the value of a decimal that counts units of 10⁻¹⁰⁷⁴.  Since everything between a
double and a number that is rounded to it is rounded to it as well, the search for the shortest
decimal finds the coarsest grid (`isFirst_shortest`).  So no decimal with fewer digits is rounded to
the double (`IsFirst.pow_le_of_roundsTo`), and none with as many is nearer
(`IsFirst.nearest_of_roundsTo`).
-/

namespace LuaChunk

/-- A sign turns an interval around as a whole: what lies between two numbers stays between them. -/
lemma signed_mem_uIcc {a b x : ℚ} (negative : Bool) (mem : x ∈ Set.uIcc a b) :
    signed negative x ∈ Set.uIcc (signed negative a) (signed negative b) := by
  unfold signed
  split
  · rw [Set.mem_uIcc] at mem ⊢
    simp only [neg_le_neg_iff]
    rcases mem with ⟨low, high⟩ | ⟨low, high⟩
    · exact .inr ⟨high, low⟩
    · exact .inl ⟨high, low⟩
  · exact mem

/-- A positive number reaches the power of ten of its first digit. -/
lemma ten_pow_le {n : Nat} (pos : 0 < n) : 10 ^ ((Nat.toDigits 10 n).length - 1) ≤ n := by
  rcases Nat.eq_zero_or_pos ((Nat.toDigits 10 n).length - 1) with one | more
  · rw [one]
    exact pos
  · by_contra below
    have le := (Nat.length_toDigits_le_iff (by decide) more).mpr (not_le.mp below)
    omega

namespace Double

/-- The two kinds of units make a power of ten together. -/
lemma decimalUnit_mul_one : decimalUnit * one = 10 ^ 1074 := by
  delta decimalUnit one
  generalize 1074 = e
  exact (Nat.mul_pow 5 2 e).symm

/-- A binary unit is some decimal units. -/
lemma decimalUnit_pos : 0 < decimalUnit := by
  delta decimalUnit
  generalize 1074 = e
  exact Nat.pow_pos (by decide)

/-- The number that counts units of 10⁻¹⁰⁷⁴. -/
def decimal (j : Nat) : ℚ :=
  j / (decimalUnit * one)

/-- A quotient of decimal units has a positive denominator. -/
lemma decimalUnit_mul_one_pos : (0 : ℚ) < decimalUnit * one :=
  mul_pos (Nat.cast_pos.mpr decimalUnit_pos) one_pos_rat

/-- Digits in front of zeros are digits times a power of ten, which counts down from the decimal
unit. -/
lemma decimal_mul_ten_pow (c k : Nat) : decimal (c * 10 ^ k) = c * 10 ^ ((k : ℤ) - 1074) := by
  have unit : (decimalUnit * one : ℚ) = 10 ^ (1074 : ℤ) := by
    rw [← Nat.cast_mul, decimalUnit_mul_one, Nat.cast_pow, ← zpow_natCast]
    rfl
  rw [decimal, unit, zpow_sub₀ (by norm_num), Nat.cast_mul, Nat.cast_pow, zpow_natCast,
    mul_div_assoc]
  rfl

/-- No decimal units are zero. -/
lemma decimal_zero : decimal 0 = 0 := by
  rw [decimal, Nat.cast_zero, zero_div]

/-- Decimals are ordered as the numbers of their units. -/
lemma decimal_le_decimal {i j : Nat} : decimal i ≤ decimal j ↔ i ≤ j := by
  rw [decimal, decimal, div_le_div_iff_of_pos_right decimalUnit_mul_one_pos, Nat.cast_le]

/-- The distance of decimals is the distance of the numbers of their units. -/
lemma abs_decimal_sub (i j : Nat) :
    |decimal i - decimal j| = (Nat.dist i j : Nat) / (decimalUnit * one) := by
  rw [decimal, decimal, ← sub_div, abs_div, abs_of_pos decimalUnit_mul_one_pos, cast_dist]

/-- A magnitude in units of 10⁻¹⁰⁷⁴. -/
def inDecimalUnits (d : Double) : Nat :=
  d.magnitude * decimalUnit

section

variable {d : Double}

/-- The absolute value of a double has so many decimal units. -/
lemma decimal_inDecimalUnits (d : Double) : decimal d.inDecimalUnits = |d.value| := by
  rw [abs_value, decimal, inDecimalUnits, Nat.cast_mul, mul_comm (d.magnitude : ℚ),
    mul_div_mul_left _ _ (Nat.cast_pos.mpr decimalUnit_pos).ne']

/-- A decimal reads back as the magnitude of a double that it is rounded to with the sign of the
double. -/
lemma readsBack_iff (finite : d.isFinite = true) {j : Nat} :
    readsBack d.magnitude j = true ↔ RoundsTo (signed d.isNegative (decimal j)) d := by
  unfold readsBack
  rw [beq_iff_eq]
  constructor
  · exact roundsTo_of_nearestMagnitude decimalUnit_pos finite
  · exact RoundsTo.nearestMagnitude_eq decimalUnit_pos

/-- A finite double reads back as itself. -/
lemma readsBack_inDecimalUnits (finite : d.isFinite = true) :
    readsBack d.magnitude d.inDecimalUnits = true := by
  rw [readsBack_iff finite, decimal_inDecimalUnits]
  exact (roundsTo_value finite).with_sign

/-- What lies between a double and a number that is rounded to it reads back. -/
lemma RoundsTo.readsBack_of_between {q : ℚ} {j : Nat} (rounds : RoundsTo q d)
    (between : decimal j ∈ Set.uIcc |q| |d.value|) : readsBack d.magnitude j = true := by
  rw [readsBack_iff rounds.finite]
  apply rounds.with_sign.of_between
  rw [← signed_abs_value d]
  exact signed_mem_uIcc d.isNegative between

/-- Zero is rounded to zero. -/
lemma nearestMagnitude_zero {den : Nat} (pos : 0 < den) : nearestMagnitude 0 den = 0 := by
  have near := nearestMagnitude_nearest 0 pos isSignificand_zero
  rw [zero_mul, zero_mul, Nat.dist_self, Nat.le_zero, Nat.dist_zero_right] at near
  exact (Nat.mul_eq_zero.mp near).resolve_right pos.ne'

/-- Zero does not read back as another double. -/
lemma readsBack_zero (nonzero : d.magnitude ≠ 0) : readsBack d.magnitude 0 = false := by
  have zero := nearestMagnitude_zero decimalUnit_pos
  unfold readsBack
  -- The unit is so large that it must not be evaluated.
  generalize decimalUnit = unit at zero ⊢
  rw [zero]
  exact beq_eq_false_iff_ne.mpr nonzero.symm

/-- A number of decimal units is not negative. -/
lemma decimal_nonneg (j : Nat) : 0 ≤ decimal j :=
  div_nonneg (Nat.cast_nonneg _) decimalUnit_mul_one_pos.le

/-- What lies between a double and a decimal that reads back reads back too. -/
lemma readsBack_of_mem_uIcc (finite : d.isFinite = true) {i j : Nat}
    (reads : readsBack d.magnitude i = true)
    (between : decimal j ∈ Set.uIcc (decimal i) (decimal d.inDecimalUnits)) :
    readsBack d.magnitude j = true := by
  apply ((readsBack_iff finite).mp reads).readsBack_of_between
  rw [abs_signed, abs_of_nonneg (decimal_nonneg i), ← decimal_inDecimalUnits]
  exact between

/-- The decimals that read back are an interval around the double. -/
lemma isInterval_readsBack (finite : d.isFinite = true) :
    IsInterval (readsBack d.magnitude) d.inDecimalUnits where
  centre_passes := readsBack_inDecimalUnits finite
  above i j reads le le' := by
    apply readsBack_of_mem_uIcc finite reads
    exact Set.mem_uIcc.mpr (.inl ⟨decimal_le_decimal.mpr le, decimal_le_decimal.mpr le'⟩)
  below i j reads le le' := by
    apply readsBack_of_mem_uIcc finite reads
    exact Set.mem_uIcc.mpr (.inr ⟨decimal_le_decimal.mpr le, decimal_le_decimal.mpr le'⟩)

/-- The search starts at the first digit of the double. -/
lemma isFirst_shortest (finite : d.isFinite = true) (nonzero : d.magnitude ≠ 0) :
    ∃ top, 10 ^ top ≤ d.inDecimalUnits ∧ d.inDecimalUnits < 10 ^ (top + 1) ∧
      IsFirst (readsBack d.magnitude) d.inDecimalUnits top (shortest d.magnitude) := by
  have found := (isInterval_readsBack finite).isFirst_firstFrom
    ((Nat.toDigits 10 d.inDecimalUnits).length - 1)
  have pos : 0 < d.inDecimalUnits :=
    Nat.mul_pos (Nat.pos_of_ne_zero nonzero) decimalUnit_pos
  refine ⟨_, ten_pow_le pos, ?_, found⟩
  rw [Nat.sub_add_cancel Nat.length_toDigits_pos]
  exact (Nat.length_toDigits_le_iff (by decide) Nat.length_toDigits_pos).mp le_rfl

end

section

variable {d : Double} {top : Nat} {point : Nat × Nat} {q : ℚ} {c : Nat} {b : ℤ}

/-- A one in front of zeros is a power of ten, which counts down from the decimal unit. -/
lemma decimal_ten_pow (k : Nat) : decimal (10 ^ k) = 10 ^ ((k : ℤ) - 1074) := by
  have e := decimal_mul_ten_pow 1 k
  rwa [one_mul, Nat.cast_one, one_mul] at e

/-- A number of few digits and a low power of ten is less than a higher power of ten. -/
lemma mul_zpow_lt_decimal {n : Nat} (lt : c < 10 ^ n) (le : n + b + 1074 ≤ top) :
    (c : ℚ) * 10 ^ b < decimal (10 ^ top) := by
  rw [decimal_ten_pow]
  calc (c : ℚ) * 10 ^ b < 10 ^ n * 10 ^ b := by
        apply mul_lt_mul_of_pos_right _ (zpow_pos (by norm_num) b)
        exact_mod_cast lt
    _ = 10 ^ (n + b) := by rw [zpow_add₀ (by norm_num), zpow_natCast]
    _ ≤ 10 ^ ((top : ℤ) - 1074) := zpow_le_zpow_right₀ (by norm_num) (by omega)

/-- A decimal with a high power of ten is a point of the grid of a lower one. -/
lemma exists_mul_zpow_eq {k : Nat} (le : (k : ℤ) ≤ b + 1074) :
    ∃ n : Nat, (c : ℚ) * 10 ^ b = decimal (n * 10 ^ k) := by
  obtain ⟨j, e⟩ := Int.eq_ofNat_of_zero_le (sub_nonneg.mpr le)
  refine ⟨c * 10 ^ j, ?_⟩
  rw [decimal_mul_ten_pow, Nat.cast_mul, Nat.cast_pow, mul_assoc, ← zpow_natCast, Nat.cast_ofNat,
    ← zpow_add₀ (by norm_num)]
  congr
  omega

/-- A decimal that is rounded to a double reads back as it. -/
lemma RoundsTo.readsBack_of_eq {n : Nat} (rounds : RoundsTo q d) (e : |q| = decimal n) :
    readsBack d.magnitude n = true := by
  apply rounds.readsBack_of_between
  rw [← e]
  exact Set.left_mem_uIcc

/-- Where a number of few digits and a low power of ten is rounded to a double, so is the power of
ten at the first digit of the double. -/
lemma RoundsTo.readsBack_ten_pow {n : Nat} (rounds : RoundsTo q d) (size : |q| = c * 10 ^ b)
    (few : c < 10 ^ n) (le : n + b + 1074 ≤ top) (low : 10 ^ top ≤ d.inDecimalUnits) :
    |q| < decimal (10 ^ top) ∧ readsBack d.magnitude (10 ^ top) = true := by
  have below : |q| < decimal (10 ^ top) := by
    rw [size]
    exact mul_zpow_lt_decimal few le
  refine ⟨below, rounds.readsBack_of_between ?_⟩
  rw [← decimal_inDecimalUnits]
  exact Set.mem_uIcc.mpr (.inl ⟨below.le, decimal_le_decimal.mpr low⟩)

/-- No decimal with fewer digits than the first grid leaves is rounded to the double. -/
theorem IsFirst.pow_le_of_roundsTo
    (first : IsFirst (readsBack d.magnitude) d.inDecimalUnits top point)
    (low : 10 ^ top ≤ d.inDecimalUnits) (nonzero : d.magnitude ≠ 0) (rounds : RoundsTo q d)
    (size : |q| = c * 10 ^ b) : 10 ^ (top - point.2) ≤ c := by
  by_contra few
  rw [not_le] at few
  rcases first.le.eq_or_lt with e | inner
  · -- A number below one is zero.
    rw [e, Nat.sub_self, pow_zero, Nat.lt_one_iff] at few
    have zero : readsBack d.magnitude 0 = true := by
      apply rounds.readsBack_of_eq
      rw [size, few, decimal_zero, Nat.cast_zero, zero_mul]
    rw [readsBack_zero nonzero] at zero
    cases zero
  · rcases le_or_gt ((point.2 + 1 : Nat) : ℤ) (b + 1074) with coarse | fine
    · obtain ⟨n, e⟩ := exists_mul_zpow_eq (c := c) coarse
      have reads := rounds.readsBack_of_eq (size.trans e)
      rw [first.coarser _ n (Nat.lt_succ_self _) inner] at reads
      cases reads
    · -- The number lies below the first digit of the double, which would read back.
      obtain ⟨-, reads⟩ := rounds.readsBack_ten_pow size few (by omega) low
      have coarser := first.coarser top 1 inner le_rfl
      rw [one_mul, reads] at coarser
      cases coarser

/-- A nearest point of a grid is nearest in value too. -/
lemma IsNearestPoint.abs_decimal_sub_le {step n k : Nat}
    (nearest : IsNearestPoint (readsBack d.magnitude) d.inDecimalUnits step n)
    (reads : readsBack d.magnitude (k * step) = true) :
    |decimal (n * step) - decimal d.inDecimalUnits| ≤
      |decimal (k * step) - decimal d.inDecimalUnits| := by
  rw [abs_decimal_sub, abs_decimal_sub, div_le_div_iff_of_pos_right decimalUnit_mul_one_pos,
    Nat.cast_le]
  exact nearest.nearest k reads

/-- No decimal with as many digits as the first grid leaves is nearer to the double. -/
theorem IsFirst.nearest_of_roundsTo
    (first : IsFirst (readsBack d.magnitude) d.inDecimalUnits top point)
    (low : 10 ^ top ≤ d.inDecimalUnits) (rounds : RoundsTo q d) (size : |q| = c * 10 ^ b)
    (few : c < 10 ^ (top + 1 - point.2)) :
    |decimal (point.1 * 10 ^ point.2) - decimal d.inDecimalUnits| ≤
      |abs q - decimal d.inDecimalUnits| := by
  have le := first.le
  rcases le_or_gt (point.2 : ℤ) (b + 1074) with coarse | fine
  · obtain ⟨n, e⟩ := exists_mul_zpow_eq (c := c) coarse
    rw [size, e]
    exact first.isNearestPoint.abs_decimal_sub_le (rounds.readsBack_of_eq (size.trans e))
  · -- The power of ten at the first digit of the double is a point too, and it is nearer.
    obtain ⟨below, reads⟩ := rounds.readsBack_ten_pow size few (by omega) low
    have split : 10 ^ top = 10 ^ (top - point.2) * 10 ^ point.2 := by
      rw [← pow_add, Nat.sub_add_cancel le]
    have above := decimal_le_decimal.mpr low
    rw [split] at reads
    apply (first.isNearestPoint.abs_decimal_sub_le reads).trans
    rw [← split, abs_of_nonpos (sub_nonpos.mpr above),
      abs_of_nonpos (sub_nonpos.mpr (below.le.trans above)), neg_sub, neg_sub]
    exact sub_le_sub_left below.le _

end

end Double

end LuaChunk
