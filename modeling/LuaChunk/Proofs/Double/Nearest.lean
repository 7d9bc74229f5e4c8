import LuaChunk.Double.Basic
import LuaChunk.Proofs.Double.Magnitude

/-!
# The nearest double

`Double.IsNearest` says which double is nearest to a whole number, with ties to the even
significand; `Double.IsNearest.of_ofInt?` shows that `Double.ofInt?` finds it.  On the way,
`roundHalfEven_nearest` is the same for the multiples of one number, and
`Double.nearestMagnitude_nearest` for magnitudes and exact quotients.
-/

namespace LuaChunk

/-- Rounding takes one of the two neighbours, and not the farther one. -/
lemma roundHalfEven_cases (num den : Nat) :
    (roundHalfEven num den = num / den ∧ 2 * (num % den) ≤ den) ∨
      (roundHalfEven num den = num / den + 1 ∧ den ≤ 2 * (num % den)) := by
  unfold roundHalfEven
  dsimp only
  split
  case isTrue below => exact .inl ⟨rfl, by omega⟩
  case isFalse =>
    split
    case isTrue above => exact .inr ⟨rfl, by omega⟩
    case isFalse =>
      split
      · exact .inl ⟨rfl, by omega⟩
      · exact .inr ⟨rfl, by omega⟩

/-- Halfway between its neighbours, a number is rounded to the even one. -/
lemma roundHalfEven_even {num den : Nat} (half : 2 * (num % den) = den) :
    roundHalfEven num den % 2 = 0 := by
  unfold roundHalfEven
  dsimp only
  rw [half, if_neg (lt_irrefl _), if_neg (lt_irrefl _)]
  split <;> omega

/-- A multiple lies at or below the lower neighbour, or at or above the upper one. -/
lemma mul_le_or_le_mul (num den k : Nat) :
    k * den ≤ num / den * den ∨ num / den * den + den ≤ k * den := by
  rcases Nat.lt_or_ge (num / den) k with above | below
  · right
    rw [← Nat.succ_mul]
    exact Nat.mul_le_mul_right den above
  · exact .inl (Nat.mul_le_mul_right den below)

/-- No multiple is nearer than the one that rounding takes. -/
lemma roundHalfEven_nearest (num : Nat) {den : Nat} (pos : 0 < den) (k : Nat) :
    Nat.dist (roundHalfEven num den * den) num ≤ Nat.dist (k * den) num := by
  have split := Nat.div_add_mod' num den
  have rest := Nat.mod_lt num pos
  have side := mul_le_or_le_mul num den k
  unfold Nat.dist
  rcases roundHalfEven_cases num den with ⟨e, half⟩ | ⟨e, half⟩
  · rw [e]
    omega
  · rw [e, Nat.succ_mul]
    omega

/-- Where another multiple is as near, rounding takes an even one. -/
lemma roundHalfEven_even_of_tie {num den k : Nat} (pos : 0 < den)
    (other : k * den ≠ roundHalfEven num den * den)
    (tie : Nat.dist (k * den) num = Nat.dist (roundHalfEven num den * den) num) :
    roundHalfEven num den % 2 = 0 := by
  apply roundHalfEven_even
  have split := Nat.div_add_mod' num den
  have rest := Nat.mod_lt num pos
  have side := mul_le_or_le_mul num den k
  unfold Nat.dist at tie
  rcases roundHalfEven_cases num den with ⟨e, half⟩ | ⟨e, half⟩
  · rw [e] at tie other
    omega
  · rw [e, Nat.succ_mul] at tie other
    omega

/-- A number is rounded to no more than a multiple above it. -/
lemma roundHalfEven_le {num den b : Nat} (pos : 0 < den) (lt : num < b * den) :
    roundHalfEven num den ≤ b := by
  have low : num / den < b := (Nat.div_lt_iff_lt_mul pos).mpr lt
  rcases roundHalfEven_cases num den with ⟨e, -⟩ | ⟨e, -⟩
  · rw [e]
    exact low.le
  · rw [e]
    exact low

/-- A number is rounded to no less than a multiple below it. -/
lemma le_roundHalfEven {num den a : Nat} (pos : 0 < den) (le : a * den ≤ num) :
    a ≤ roundHalfEven num den := by
  have low : a ≤ num / den := (Nat.le_div_iff_mul_le pos).mpr le
  rcases roundHalfEven_cases num den with ⟨e, -⟩ | ⟨e, -⟩
  · rw [e]
    exact low
  · rw [e]
    exact low.trans (Nat.le_succ _)

namespace Double

/-- The width of the steps between the doubles at a quotient of units. -/
def step (num den : Nat) : Nat :=
  den * 2 ^ spacing (num / den)

/-- The steps between the doubles are not empty. -/
lemma step_pos (num : Nat) {den : Nat} (pos : 0 < den) : 0 < step num den :=
  Nat.mul_pos pos (Nat.two_pow_pos _)

/-- Rounding a quotient of units takes a multiple of the step there. -/
lemma nearestMagnitude_eq (num den : Nat) :
    nearestMagnitude num den = roundHalfEven num (step num den) * 2 ^ spacing (num / den) := by
  rw [nearestMagnitude, Nat.pow_eq, step]

/-- The nearest magnitude is a whole number of steps, the one that the quotient is rounded to. -/
lemma nearestMagnitude_mul (num den : Nat) :
    nearestMagnitude num den * den = roundHalfEven num (step num den) * step num den := by
  rw [nearestMagnitude_eq, mul_assoc, mul_comm (2 ^ _) den, step]

/-- A quotient reaches the leading bit at its step, unless this is the least one. -/
lemma two_pow_mul_step_le {num den : Nat} (coarse : spacing (num / den) ≠ 0) :
    2 ^ 52 * step num den ≤ num := by
  have zero : num / den ≠ 0 := by
    intro h
    rw [h] at coarse
    exact coarse rfl
  have e : 52 + spacing (num / den) = (num / den).log2 := by
    unfold spacing at coarse ⊢
    omega
  calc 2 ^ 52 * step num den = 2 ^ (52 + spacing (num / den)) * den := by
        rw [step, pow_add, mul_comm den, mul_assoc]
    _ ≤ num / den * den := by
        rw [e]
        exact Nat.mul_le_mul_right den (Nat.log2_self_le zero)
    _ ≤ num := Nat.div_mul_le_self num den

/-- A quotient lies below the first power of two past its significands. -/
lemma lt_two_pow_mul_step {num den : Nat} (pos : 0 < den) : num < 2 ^ 53 * step num den := by
  have log : num / den < 2 ^ (53 + spacing (num / den)) := by
    apply (lt_two_pow_log2_succ _).trans_le
    apply Nat.pow_le_pow_right (by decide)
    unfold spacing
    omega
  rw [Nat.div_lt_iff_lt_mul pos, pow_add, mul_assoc, mul_comm (2 ^ spacing _)] at log
  exact log

/-- A product of powers of two is below another power only if the exponents add up to less. -/
lemma add_lt_of_mul_lt {a s b : Nat} (lt : 2 ^ a * 2 ^ s < 2 ^ b) : a + s < b := by
  rw [← pow_add] at lt
  exact (Nat.pow_lt_pow_iff_right (by decide)).mp lt

/-- A magnitude is a multiple of the step at a quotient, or it lies below the leading bit there. -/
lemma IsSignificand.onGrid_or_lt {den m p : Nat} (v : IsSignificand m p) (num : Nat)
    (pos : 0 < den) :
    (∃ k, m * 2 ^ p * den = k * step num den) ∨
      spacing (num / den) ≠ 0 ∧ m * 2 ^ p * den < 2 ^ 52 * step num den := by
  unfold step
  rcases Nat.lt_or_ge p (spacing (num / den)) with finer | coarser
  · refine .inr ⟨by omega, ?_⟩
    have lt : m * 2 ^ p < 2 ^ (52 + spacing (num / den)) := mul_two_pow_lt v.lt (by omega)
    rw [mul_comm den, ← mul_assoc, ← pow_add]
    exact Nat.mul_lt_mul_of_pos_right lt pos
  · refine .inl ⟨m * 2 ^ (p - spacing (num / den)), ?_⟩
    rw [mul_comm den, ← mul_assoc, mul_assoc m (2 ^ (p - _)), ← pow_add,
      Nat.sub_add_cancel coarser]

/-- No magnitude of a finite double is nearer to a quotient than the rounded one. -/
lemma nearestMagnitude_nearest (num : Nat) {den m p : Nat} (pos : 0 < den) (v : IsSignificand m p) :
    Nat.dist (nearestMagnitude num den * den) num ≤ Nat.dist (m * 2 ^ p * den) num := by
  rw [nearestMagnitude_mul]
  rcases v.onGrid_or_lt num pos with ⟨k, grid⟩ | ⟨coarse, lt⟩
  · rw [grid]
    exact roundHalfEven_nearest num (step_pos num pos) k
  · -- The leading bit at the step is a multiple of it and nearer than anything below.
    have lead := two_pow_mul_step_le coarse
    have near := roundHalfEven_nearest num (step_pos num pos) (2 ^ 52)
    unfold Nat.dist at near ⊢
    omega

/-- Where another magnitude is as near to a quotient, the rounded one is an even multiple of the
step. -/
lemma nearestMagnitude_even_of_tie {num den m p : Nat} (pos : 0 < den) (v : IsSignificand m p)
    (other : m * 2 ^ p ≠ nearestMagnitude num den)
    (tie : Nat.dist (m * 2 ^ p * den) num = Nat.dist (nearestMagnitude num den * den) num) :
    roundHalfEven num (step num den) % 2 = 0 := by
  have differ : m * 2 ^ p * den ≠ nearestMagnitude num den * den :=
    fun e => other (Nat.eq_of_mul_eq_mul_right pos e)
  rw [nearestMagnitude_mul] at tie differ
  rcases v.onGrid_or_lt num pos with ⟨k, grid⟩ | ⟨coarse, lt⟩
  · rw [grid] at tie differ
    exact roundHalfEven_even_of_tie (step_pos num pos) differ tie
  · have lead := two_pow_mul_step_le coarse
    have near := roundHalfEven_nearest num (step_pos num pos) (2 ^ 52)
    unfold Nat.dist at near tie
    omega

/-- A rounded quotient that is not too large is a magnitude of a finite double, and its significand
is even where it is an even multiple of the step. -/
lemma exists_isSignificand_nearestMagnitude {num den : Nat} (pos : 0 < den)
    (lt : nearestMagnitude num den < 2 ^ 2098) :
    ∃ m p, IsSignificand m p ∧ m * 2 ^ p = nearestMagnitude num den ∧
      (roundHalfEven num (step num den) % 2 = 0 → m % 2 = 0) := by
  rw [nearestMagnitude_eq] at lt ⊢
  have le := roundHalfEven_le (step_pos num pos) (lt_two_pow_mul_step pos)
  have leading : spacing (num / den) = 0 ∨ 2 ^ 52 ≤ roundHalfEven num (step num den) :=
    (eq_or_ne _ 0).imp_right fun coarse =>
      le_roundHalfEven (step_pos num pos) (two_pow_mul_step_le coarse)
  rcases le.lt_or_eq with below | top
  · refine ⟨_, _, ⟨below, leading.symm, ?_⟩, rfl, id⟩
    rcases leading with fine | lead
    · omega
    · have := add_lt_of_mul_lt ((Nat.mul_le_mul_right _ lead).trans_lt lt)
      omega
  · -- The significand has reached the next power of two, where the doubles are half as dense.
    rw [top] at lt ⊢
    refine ⟨2 ^ 52, spacing (num / den) + 1, ⟨by decide, .inl (le_refl _), ?_⟩, ?_,
      fun _ => by decide⟩
    · have := add_lt_of_mul_lt lt
      omega
    · rw [pow_succ' 2 (spacing _), ← mul_assoc]
      rfl

/-- A double is the one nearest to a whole number, of two equally near ones the one with the even
significand.  Values are compared in units of 2⁻¹⁰⁷⁴; only the number zero has a double of either
sign, and takes the positive one. -/
structure IsNearest (n : Int) (d : Double) : Prop where
  finite : d.isFinite = true
  sign : d.isNegative = decide (n < 0)
  nearest : ∀ e : Double, e.isFinite = true → |d.scaled - n * one| ≤ |e.scaled - n * one|
  even : ∀ e : Double, e.isFinite = true → e.scaled ≠ d.scaled →
    |e.scaled - n * one| = |d.scaled - n * one| → d.significand % 2 = 0

/-- A magnitude with the sign of a whole number. -/
def withSignOf (n : Int) (m : Nat) : Int :=
  if n < 0 then -m else m

/-- The units of a whole number are those of its absolute value, with its sign. -/
lemma mul_one_eq_withSignOf (n : Int) : n * one = withSignOf n (n.natAbs * one) := by
  unfold withSignOf
  push_cast
  split
  case isTrue neg => rw [abs_of_neg neg, neg_mul, neg_neg]
  case isFalse pos => rw [abs_of_nonneg (not_lt.mp pos)]

/-- Magnitudes with the same sign are as far apart as without it. -/
lemma abs_withSignOf_sub (n : Int) (a b : Nat) :
    |withSignOf n a - withSignOf n b| = Nat.dist a b := by
  unfold withSignOf Nat.dist
  rw [abs_eq_max_neg]
  split <;> omega

/-- A double is no nearer to a whole number than the magnitude of the same sign or, where the signs
differ, than zero. -/
lemma exists_dist_le (n : Int) (d : Double) :
    ∃ m, (m = d.magnitude ∨ m = 0) ∧ (Nat.dist m (n.natAbs * one) : Int) ≤ |d.scaled - n * one| ∧
      (|d.scaled - n * one| = Nat.dist m (n.natAbs * one) → d.scaled = withSignOf n m) := by
  rw [mul_one_eq_withSignOf]
  by_cases same : d.scaled = withSignOf n d.magnitude
  · refine ⟨d.magnitude, .inl rfl, ?_, fun _ => same⟩
    rw [same, abs_withSignOf_sub]
  · refine ⟨0, .inr rfl, ?_⟩
    unfold scaled withSignOf at same ⊢
    unfold Nat.dist
    rw [abs_eq_max_neg]
    constructor
    · split_ifs at same ⊢ <;> omega
    · intro e
      split_ifs at same e ⊢ <;> omega

/-- The first magnitude past the finite doubles is 2²⁰⁹⁸ units. -/
lemma limit_eq : limit = 2 ^ 2098 := by
  delta limit
  generalize 2098 = e
  exact Nat.pow_eq

/-- The number one is 2¹⁰⁷⁴ units. -/
lemma one_eq : one = 2 ^ 1074 := by
  delta one
  generalize 1074 = e
  exact Nat.pow_eq

/-- The number one is some units. -/
lemma one_pos : 0 < one := by
  rw [one_eq]
  exact pow_pos Nat.two_pos _

/-- Zero is a significand of the least exponent. -/
lemma isSignificand_zero : IsSignificand 0 0 :=
  ⟨by decide, .inr rfl, by decide⟩

/-- What a whole number is rounded to has the sign of the number and the rounded magnitude. -/
lemma exists_of_ofInt? {n : Int} {d : Double} (h : ofInt? n = some d) :
    ∃ m p, IsSignificand m p ∧ m * 2 ^ p = nearestMagnitude (n.natAbs * one) 1 ∧
      (roundHalfEven (n.natAbs * one) (step (n.natAbs * one) 1) % 2 = 0 → m % 2 = 0) ∧
      d = ofMagnitude (decide (n < 0)) (m * 2 ^ p) := by
  unfold ofInt? at h
  dsimp only at h
  split at h
  case isTrue lt =>
    rw [limit_eq] at lt
    obtain ⟨m, p, v, mag, even⟩ := exists_isSignificand_nearestMagnitude Nat.one_pos lt
    refine ⟨m, p, v, mag, even, ?_⟩
    rw [mag]
    exact (Option.some.inj h).symm
  case isFalse => cases h

/-- The double that a whole number is rounded to is the nearest one. -/
theorem IsNearest.of_ofInt? {n : Int} {d : Double} (h : ofInt? n = some d) : IsNearest n d := by
  obtain ⟨m, p, v, mag, even, rfl⟩ := exists_of_ofInt? h
  have value : (ofMagnitude (decide (n < 0)) (m * 2 ^ p)).scaled =
      withSignOf n (nearestMagnitude (n.natAbs * one) 1) := by
    rw [scaled, v.isNegative_ofMagnitude, v.magnitude_ofMagnitude, mag, withSignOf]
    simp only [decide_eq_true_eq]
  have error : |withSignOf n (nearestMagnitude (n.natAbs * one) 1) - n * one| =
      (Nat.dist (nearestMagnitude (n.natAbs * one) 1) (n.natAbs * one) : Int) := by
    rw [mul_one_eq_withSignOf, abs_withSignOf_sub]
  -- A rival of the same sign has a magnitude of its own, and one of the other sign stands for zero.
  have rival {e : Double} {k : Nat} (fin : e.isFinite = true) (hk : k = e.magnitude ∨ k = 0) :
      ∃ m' p', IsSignificand m' p' ∧ m' * 2 ^ p' = k := by
    rcases hk with rfl | rfl
    · exact ⟨_, _, isSignificand fin, e.magnitude_eq.symm⟩
    · exact ⟨0, 0, isSignificand_zero, rfl⟩
  refine ⟨v.isFinite_ofMagnitude _, v.isNegative_ofMagnitude _, ?_, ?_⟩
  · intro e fin
    obtain ⟨k, hk, le, -⟩ := exists_dist_le n e
    obtain ⟨m', p', v', rfl⟩ := rival fin hk
    have near := nearestMagnitude_nearest (n.natAbs * one) Nat.one_pos v'
    rw [mul_one, mul_one] at near
    rw [value, error]
    exact (Int.ofNat_le.mpr near).trans le
  · intro e fin other tie
    obtain ⟨k, hk, le, exact_⟩ := exists_dist_le n e
    obtain ⟨m', p', v', rfl⟩ := rival fin hk
    have near := nearestMagnitude_nearest (n.natAbs * one) Nat.one_pos v'
    rw [value, error] at tie
    rw [tie] at le exact_
    rw [mul_one, mul_one] at near
    have same : Nat.dist (nearestMagnitude (n.natAbs * one) 1) (n.natAbs * one) =
        Nat.dist (m' * 2 ^ p') (n.natAbs * one) := le_antisymm near (Int.ofNat_le.mp le)
    have hv := exact_ (congrArg _ same)
    rw [v.significand_ofMagnitude]
    apply even
    apply nearestMagnitude_even_of_tie Nat.one_pos v'
    · intro h'
      rw [hv, value, h'] at other
      exact other rfl
    · rw [mul_one, mul_one]
      exact same.symm

end Double

end LuaChunk
