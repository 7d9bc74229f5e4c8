import LuaChunk.Proofs.Double.Nearest

/-!
# Whole numbers that are too large for a double

The greatest finite double is 2¹⁰²⁴ - 2⁹⁷¹.  A whole number rounds past it from the one halfway to
2¹⁰²⁴ on: there the tie goes to the even significand, and that of the greatest double is odd.
-/

namespace LuaChunk

/-- From halfway above an odd multiple on, a number is rounded to a greater one. -/
lemma lt_roundHalfEven {num den q : Nat} (pos : 0 < den) (odd : q % 2 = 1)
    (half : 2 * (q * den) + den ≤ 2 * num) : q < roundHalfEven num den := by
  have low : q ≤ num / den := (Nat.le_div_iff_mul_le pos).mpr (by omega)
  rcases low.lt_or_eq with above | rfl
  · apply above.trans_le
    exact le_roundHalfEven pos (Nat.div_mul_le_self num den)
  · have split := Nat.div_add_mod' num den
    rcases roundHalfEven_cases num den with ⟨e, near⟩ | ⟨e, -⟩
    · -- Only a tie is left below, and a tie is not rounded to an odd multiple.
      have even : roundHalfEven num den % 2 = 0 := roundHalfEven_even (by omega)
      rw [e, odd] at even
      cases even
    · rw [e]
      exact Nat.lt_succ_self _

namespace Double

/-- The least natural number that is rounded past the finite doubles. -/
def overflowBound : Nat :=
  2 ^ 1024 - 2 ^ 970

/-- Half of the step between the greatest finite magnitudes. -/
def halfStep : Nat :=
  2 ^ 2044

/-- A high power of two is a multiple of half of the greatest step. -/
lemma two_pow_eq_halfStep {p k : Nat} (e : p = k + 2044) : 2 ^ p = 2 ^ k * halfStep := by
  rw [e, pow_add, halfStep]

/-- A number with a high leading bit, shifted far enough, reaches a power of two. -/
lemma two_pow_le_mul {a b k s : Nat} (lead : 2 ^ a ≤ k) (le : b ≤ a + s) : 2 ^ b ≤ k * 2 ^ s :=
  calc 2 ^ b ≤ 2 ^ (a + s) := Nat.pow_le_pow_right (by decide) le
    _ = 2 ^ a * 2 ^ s := pow_add 2 a s
    _ ≤ k * 2 ^ s := Nat.mul_le_mul_right _ lead

/-- The greatest significand with the greatest exponent is one that a finite double has. -/
lemma isSignificand_greatest : IsSignificand (2 ^ 53 - 1) 2045 :=
  ⟨by decide, .inl (by decide), le_refl _⟩

/-- A quotient from halfway between the greatest finite magnitude and the next power of two on is
rounded to this power of two or further up. -/
lemma le_nearestMagnitude {num den : Nat} (pos : 0 < den)
    (le : (2 ^ 54 - 1) * (halfStep * den) ≤ num) : 2 ^ 2098 ≤ nearestMagnitude num den := by
  have large : 2 ^ 2097 ≤ num / den := by
    have e : 2 ^ 2097 = 2 ^ 53 * halfStep := two_pow_eq_halfStep rfl
    rw [Nat.le_div_iff_mul_le pos, e, mul_assoc]
    omega
  have coarse : 2045 ≤ spacing (num / den) := by
    have := (Nat.le_log2 (Nat.ne_of_gt ((Nat.two_pow_pos _).trans_le large))).mpr large
    unfold spacing
    omega
  rw [nearestMagnitude_eq]
  rcases coarse.lt_or_eq with coarser | finest
  · apply two_pow_le_mul (a := 52) ?_ (by omega)
    exact le_roundHalfEven (step_pos num pos) (two_pow_mul_step_le (by omega))
  · have half : 2 ^ 53 - 1 < roundHalfEven num (step num den) := by
      have e : 2 ^ 2045 = 2 ^ 1 * halfStep := two_pow_eq_halfStep rfl
      apply lt_roundHalfEven (step_pos num pos) (by decide)
      rw [step, ← finest, mul_comm den, e, mul_assoc]
      omega
    exact two_pow_le_mul (a := 53) half (by omega)

/-- A quotient below halfway is rounded to a finite magnitude. -/
lemma nearestMagnitude_lt {num den : Nat} (pos : 0 < den)
    (lt : num < (2 ^ 54 - 1) * (halfStep * den)) : nearestMagnitude num den < 2 ^ 2098 := by
  have e : 2 ^ 2098 = 2 ^ 54 * halfStep := two_pow_eq_halfStep rfl
  have e' : 2 ^ 2045 = 2 ^ 1 * halfStep := two_pow_eq_halfStep rfl
  have near := nearestMagnitude_nearest num pos isSignificand_greatest
  rw [e', mul_assoc, mul_assoc] at near
  by_contra large
  have past := Nat.mul_le_mul_right den (not_lt.mp large)
  rw [e, mul_assoc] at past
  unfold Nat.dist at near
  omega

/-- The bound lies half a step above the greatest finite magnitude. -/
lemma overflowBound_mul_one : overflowBound * one = (2 ^ 54 - 1) * (halfStep * 1) := by
  have e : overflowBound = (2 ^ 54 - 1) * 2 ^ 970 := by
    rw [overflowBound, Nat.sub_mul, one_mul, ← pow_add]
  rw [e, one_eq, mul_assoc, ← pow_add, halfStep, mul_one]

/-- A whole number is rounded to a finite double exactly if it is nearer to zero than the bound. -/
theorem exists_ofInt?_iff {n : Int} : (∃ d, ofInt? n = some d) ↔ n.natAbs < overflowBound := by
  rw [← Nat.mul_lt_mul_right one_pos, overflowBound_mul_one]
  unfold ofInt?
  dsimp only
  rw [limit_eq]
  constructor
  · rintro ⟨d, h⟩
    by_contra large
    rw [if_neg (not_lt.mpr (le_nearestMagnitude Nat.one_pos (not_lt.mp large)))] at h
    cases h
  · intro small
    exact ⟨_, if_pos (nearestMagnitude_lt Nat.one_pos small)⟩

end Double

end LuaChunk
