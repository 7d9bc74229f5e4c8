import LuaChunk.Proofs.Double.Overflow

/-!
# Rounding rational numbers

`Double.value` is the exact value of a finite double, and `Double.RoundsTo` says which double a
rational number is rounded to: the nearest one, of two equally near ones the one with the even
significand, and none if the number is too large.  The value of this double is determined
(`RoundsTo.unique`), and everything between a number and this value is rounded to it as well
(`RoundsTo.of_between`).  `roundsTo_of_nearestMagnitude` and `RoundsTo.nearestMagnitude_eq` say that
`Double.nearestMagnitude` finds it.
-/

namespace LuaChunk

/-- A number with a sign in front of it. -/
def signed (negative : Bool) (x : ℚ) : ℚ :=
  if negative then -x else x

/-- A sign does not change the absolute value. -/
lemma abs_signed (negative : Bool) (x : ℚ) : |signed negative x| = |x| := by
  unfold signed
  split
  · exact abs_neg x
  · rfl

/-- Numbers with the same sign are as far apart as without it. -/
lemma abs_signed_sub_signed (negative : Bool) (x y : ℚ) :
    |signed negative x - signed negative y| = |x - y| := by
  unfold signed
  split
  · rw [neg_sub_neg, abs_sub_comm]
  · rfl

/-- A number is its absolute value with its sign. -/
lemma signed_abs (x : ℚ) : signed (x < 0) |x| = x := by
  unfold signed
  split
  case isTrue negative => rw [abs_of_neg (of_decide_eq_true negative), neg_neg]
  case isFalse other => exact abs_of_nonneg (not_lt.mp (mt decide_eq_true other))

/-- The distance of two natural numbers is the absolute value of their difference. -/
lemma cast_dist (a b : Nat) : ((Nat.dist a b : Nat) : ℚ) = |(a : ℚ) - b| := by
  rcases le_total a b with le | le
  · rw [Nat.dist_eq_sub_of_le le, Nat.cast_sub le, abs_sub_comm, abs_of_nonneg]
    exact sub_nonneg.mpr (Nat.cast_le.mpr le)
  · rw [Nat.dist_eq_sub_of_le_right le, Nat.cast_sub le, abs_of_nonneg]
    exact sub_nonneg.mpr (Nat.cast_le.mpr le)

/-- What lies between two numbers parts their distance. -/
lemma abs_sub_eq_add_of_mem_uIcc {a b x : ℚ} (mem : x ∈ Set.uIcc a b) :
    |b - a| = |b - x| + |x - a| := by
  rcases Set.mem_uIcc.mp mem with ⟨low, high⟩ | ⟨low, high⟩
  · rw [abs_of_nonneg (sub_nonneg.mpr low), abs_of_nonneg (sub_nonneg.mpr high),
      abs_of_nonneg (sub_nonneg.mpr (low.trans high))]
    exact (sub_add_sub_cancel b x a).symm
  · rw [abs_of_nonpos (sub_nonpos.mpr low), abs_of_nonpos (sub_nonpos.mpr high),
      abs_of_nonpos (sub_nonpos.mpr (low.trans high)), ← neg_add, sub_add_sub_cancel]

namespace Double

/-- The exact value of a finite double. -/
def value (d : Double) : ℚ :=
  d.scaled / one

/-- A double is the one that a number is rounded to.  From the bound on, numbers are rounded to
infinity, and the sign of zero is left open. -/
structure RoundsTo (q : ℚ) (d : Double) : Prop where
  finite : d.isFinite = true
  bounded : |q| < overflowBound
  nearest : ∀ e : Double, e.isFinite = true → |d.value - q| ≤ |e.value - q|
  even : ∀ e : Double, e.isFinite = true → e.value ≠ d.value →
    |e.value - q| = |d.value - q| → d.significand % 2 = 0

/-- The number one is a positive rational number of units. -/
lemma one_pos_rat : (0 : ℚ) < one :=
  Nat.cast_pos.mpr one_pos

/-- The value is the magnitude with the sign. -/
lemma value_eq (d : Double) : d.value = signed d.isNegative (d.magnitude / one) := by
  unfold value scaled signed
  split
  · rw [Int.cast_neg, Int.cast_natCast, neg_div]
  · rw [Int.cast_natCast]

/-- The absolute value of a double is its magnitude in units of one. -/
lemma abs_value (d : Double) : |d.value| = d.magnitude / one := by
  rw [value_eq, abs_signed, abs_of_nonneg]
  exact div_nonneg (Nat.cast_nonneg _) one_pos_rat.le

/-- Half of the greatest step is positive. -/
lemma halfStep_pos : 0 < halfStep := by
  unfold halfStep
  exact pow_pos Nat.two_pos _

/-- A double has its absolute value, with its sign. -/
lemma signed_abs_value (d : Double) : signed d.isNegative |d.value| = d.value := by
  rw [abs_value, ← value_eq]

/-- The magnitude of a finite double is at most the greatest one. -/
lemma magnitude_le {d : Double} (finite : d.isFinite = true) :
    d.magnitude ≤ (2 ^ 53 - 1) * (2 ^ 1 * halfStep) := by
  have e : 2 ^ 2045 = 2 ^ 1 * halfStep := two_pow_eq_halfStep rfl
  have v := isSignificand finite
  have power {k : Nat} (le : d.unitExponent ≤ k) : 2 ^ d.unitExponent ≤ 2 ^ k :=
    Nat.pow_le_pow_right (by decide) le
  rw [magnitude_eq]
  exact Nat.mul_le_mul (Nat.le_pred_of_lt v.lt) ((power v.le).trans_eq e)

/-- The magnitude of a finite double lies below the limit. -/
lemma magnitude_lt {d : Double} (finite : d.isFinite = true) : d.magnitude < 2 ^ 2098 := by
  have e : 2 ^ 2098 = 2 ^ 54 * halfStep := two_pow_eq_halfStep rfl
  have := magnitude_le finite
  have := halfStep_pos
  rw [e]
  omega

/-- The absolute value of a finite double lies below the bound for rounding. -/
lemma abs_value_lt {d : Double} (finite : d.isFinite = true) : |d.value| < overflowBound := by
  have := magnitude_le finite
  have := halfStep_pos
  rw [abs_value, div_lt_iff₀ one_pos_rat, ← Nat.cast_mul, Nat.cast_lt, overflowBound_mul_one,
    mul_one]
  omega

/-- Doubles of one value have one magnitude. -/
lemma magnitude_eq_of_value {d e : Double} (same : d.value = e.value) :
    d.magnitude = e.magnitude := by
  have equal : (d.magnitude : ℚ) / one = e.magnitude / one := by
    rw [← abs_value, ← abs_value, same]
  exact Nat.cast_injective ((div_left_inj' one_pos_rat.ne').mp equal)

/-- Each magnitude is the absolute value of a double of either sign. -/
lemma exists_value {m p : Nat} (v : IsSignificand m p) (negative : Bool) :
    ∃ d : Double, d.isFinite = true ∧
      d.value = signed negative (((m * 2 ^ p : Nat) : ℚ) / one) := by
  refine ⟨ofMagnitude negative (m * 2 ^ p), v.isFinite_ofMagnitude _, ?_⟩
  rw [value_eq, v.isNegative_ofMagnitude, v.magnitude_ofMagnitude]

/-- There is a finite double of the value zero. -/
lemma exists_value_eq_zero : ∃ d : Double, d.isFinite = true ∧ d.value = 0 := by
  obtain ⟨d, finite, value⟩ := exists_value isSignificand_zero false
  refine ⟨d, finite, ?_⟩
  rw [value, zero_mul, Nat.cast_zero, zero_div]
  rfl

/-- Between two magnitudes with even significands there is another one. -/
lemma IsSignificand.exists_between {m p m' p' : Nat} (v : IsSignificand m p)
    (v' : IsSignificand m' p') (even : m % 2 = 0) (even' : m' % 2 = 0)
    (lt : m * 2 ^ p < m' * 2 ^ p') :
    ∃ k e, IsSignificand k e ∧ m * 2 ^ p < k * 2 ^ e ∧ k * 2 ^ e < m' * 2 ^ p' := by
  have below := v.lt
  have next : IsSignificand (m + 1) p :=
    ⟨by omega, v.leading.imp_left fun lead => lead.trans (Nat.le_succ m), v.le⟩
  have pos := Nat.two_pow_pos p
  refine ⟨m + 1, p, next, Nat.mul_lt_mul_of_pos_right (Nat.lt_succ_self m) pos, ?_⟩
  rcases Nat.lt_or_ge p' p with finer | coarser
  · -- The second magnitude would have a smaller exponent, and so lie below the first one.
    have lead : 2 ^ 52 ≤ m := v.leading.resolve_right (by omega)
    have small : m' * 2 ^ p' < 2 ^ (52 + p) := mul_two_pow_lt v'.lt (by omega)
    rw [pow_add] at small
    exact absurd lt (not_lt.mpr (small.le.trans (Nat.mul_le_mul_right _ lead)))
  · obtain ⟨k, rfl⟩ := Nat.exists_eq_add_of_le' coarser
    rw [pow_add, ← mul_assoc] at lt ⊢
    have above := (Nat.mul_lt_mul_right pos).mp lt
    apply Nat.mul_lt_mul_of_pos_right _ pos
    have even₂ : m' * 2 ^ k % 2 = 0 := by
      rw [Nat.mul_mod, even', zero_mul, Nat.zero_mod]
    omega

/-- Magnitudes are ordered as the values that they stand for. -/
lemma div_one_lt_div_one {a b : Nat} : (a : ℚ) / one < b / one ↔ a < b := by
  rw [div_lt_div_iff_of_pos_right one_pos_rat, Nat.cast_lt]

/-- Between two doubles with even significands there is another one. -/
lemma exists_value_between {d e : Double} (fd : d.isFinite = true) (fe : e.isFinite = true)
    (even : d.significand % 2 = 0) (even' : e.significand % 2 = 0) (lt : d.value < e.value) :
    ∃ f : Double, f.isFinite = true ∧ d.value < f.value ∧ f.value < e.value := by
  have vd := isSignificand fd
  have ve := isSignificand fe
  rcases le_or_gt 0 d.value with nonneg | neg
  · have hd := d.abs_value
    have he := e.abs_value
    rw [abs_of_nonneg nonneg] at hd
    rw [abs_of_pos (nonneg.trans_lt lt)] at he
    rw [hd, he, div_one_lt_div_one, magnitude_eq, magnitude_eq] at lt
    obtain ⟨k, p, v, above, below⟩ := vd.exists_between ve even even' lt
    obtain ⟨f, ff, hf⟩ := exists_value v false
    refine ⟨f, ff, ?_⟩
    rw [hd, he, hf, magnitude_eq, magnitude_eq]
    exact ⟨div_one_lt_div_one.mpr above, div_one_lt_div_one.mpr below⟩
  · rcases lt_or_ge 0 e.value with pos | nonpos
    · obtain ⟨f, ff, zero⟩ := exists_value_eq_zero
      exact ⟨f, ff, zero ▸ neg, zero ▸ pos⟩
    · have hd := d.abs_value
      have he := e.abs_value
      rw [abs_of_neg neg, neg_eq_iff_eq_neg] at hd
      rw [abs_of_nonpos nonpos, neg_eq_iff_eq_neg] at he
      rw [hd, he, neg_lt_neg_iff, div_one_lt_div_one, magnitude_eq, magnitude_eq] at lt
      obtain ⟨k, p, v, above, below⟩ := ve.exists_between vd even' even lt
      obtain ⟨f, ff, hf⟩ := exists_value v true
      refine ⟨f, ff, ?_⟩
      rw [hd, he, hf, magnitude_eq, magnitude_eq]
      exact ⟨neg_lt_neg (div_one_lt_div_one.mpr below), neg_lt_neg (div_one_lt_div_one.mpr above)⟩

namespace RoundsTo

variable {q r : ℚ} {d e : Double}

/-- A number is not rounded to two doubles of different values. -/
lemma not_lt_value (hd : RoundsTo q d) (he : RoundsTo q e) : ¬ d.value < e.value := by
  intro lt
  have tie : |e.value - q| = |d.value - q| :=
    le_antisymm (he.nearest d hd.finite) (hd.nearest e he.finite)
  have even := hd.even e he.finite lt.ne' tie
  have even' := he.even d hd.finite lt.ne tie.symm
  obtain ⟨f, ff, above, below⟩ := exists_value_between hd.finite he.finite even even' lt
  rcases abs_eq_abs.mp tie with same | opposite
  · exact absurd (sub_left_injective same) lt.ne'
  · -- The number is halfway between the two, so whatever lies between them is nearer.
    have near := hd.nearest f ff
    rw [abs_of_neg (a := d.value - q) (by linarith)] at near
    have nearer : |f.value - q| < -(d.value - q) := abs_lt.mpr ⟨by linarith, by linarith⟩
    exact absurd near (not_le.mpr nearer)

/-- The value of the double that a number is rounded to is determined. -/
theorem unique (hd : RoundsTo q d) (he : RoundsTo q e) : d.value = e.value :=
  le_antisymm (not_lt.mp (he.not_lt_value hd)) (not_lt.mp (hd.not_lt_value he))

/-- What lies between a number and the double that it is rounded to is rounded to it as well. -/
lemma of_between (hd : RoundsTo q d) (between : r ∈ Set.uIcc q d.value) : RoundsTo r d := by
  have part := abs_sub_eq_add_of_mem_uIcc between
  have near (e : Double) : |e.value - q| ≤ |e.value - r| + |r - q| := abs_sub_le _ _ _
  have bounded : |r| < overflowBound := by
    apply lt_of_le_of_lt _ (max_lt hd.bounded (abs_value_lt hd.finite))
    rcases Set.mem_uIcc.mp between with ⟨low, high⟩ | ⟨low, high⟩
    · exact abs_le_max_abs_abs low high
    · rw [max_comm]
      exact abs_le_max_abs_abs low high
  refine ⟨hd.finite, bounded, fun e finite => ?_, fun e finite other tie => ?_⟩
  · have := hd.nearest e finite
    linarith [near e]
  · have := hd.nearest e finite
    exact hd.even e finite other (by linarith [near e])

end RoundsTo

/-- A finite double is the one that its own value is rounded to. -/
lemma roundsTo_value {d : Double} (finite : d.isFinite = true) : RoundsTo d.value d where
  finite := finite
  bounded := abs_value_lt finite
  nearest e _ := by
    rw [sub_self, abs_zero]
    exact abs_nonneg _
  even e _ other tie := by
    rw [sub_self, abs_zero, abs_eq_zero, sub_eq_zero] at tie
    exact absurd tie other

/-- The distance of a magnitude from a quotient of units. -/
lemma abs_div_one_sub {num den : Nat} (pos : 0 < den) (mag : Nat) :
    |(mag : ℚ) / one - num / (den * one)| = (Nat.dist (mag * den) num : Nat) / (den * one) := by
  have pos' : (0 : ℚ) < den := Nat.cast_pos.mpr pos
  have nonneg : (0 : ℚ) ≤ den * one := (mul_pos pos' one_pos_rat).le
  have common : (mag : ℚ) / one = (mag * den : Nat) / (den * one) := by
    rw [Nat.cast_mul, mul_comm (mag : ℚ), mul_div_mul_left _ _ pos'.ne']
  rw [common, ← sub_div, abs_div, abs_of_nonneg nonneg, cast_dist]

/-- A quotient of units lies below the bound exactly if it is not rounded past the finite
magnitudes. -/
lemma div_lt_overflowBound_iff {num den : Nat} (pos : 0 < den) :
    (num : ℚ) / (den * one) < overflowBound ↔ nearestMagnitude num den < 2 ^ 2098 := by
  have pos' : (0 : ℚ) < den := Nat.cast_pos.mpr pos
  have bound : overflowBound * (den * one) = (2 ^ 54 - 1) * (halfStep * den) := by
    rw [mul_left_comm, overflowBound_mul_one, mul_one, mul_left_comm, mul_comm den]
  have units : (num : ℚ) / (den * one) < overflowBound ↔ num < overflowBound * (den * one) := by
    rw [div_lt_iff₀ (mul_pos pos' one_pos_rat), ← Nat.cast_mul, ← Nat.cast_mul, Nat.cast_lt]
  rw [units, bound]
  refine ⟨nearestMagnitude_lt pos, fun below => ?_⟩
  by_contra large
  exact absurd below (not_lt.mpr (le_nearestMagnitude pos (not_lt.mp large)))

/-- The significand of a rounded quotient is even where it is an even multiple of the step. -/
lemma significand_even_of_nearestMagnitude {num den : Nat} {d : Double} (pos : 0 < den)
    (finite : d.isFinite = true) (rounded : nearestMagnitude num den = d.magnitude)
    (even : roundHalfEven num (step num den) % 2 = 0) : d.significand % 2 = 0 := by
  have below : nearestMagnitude num den < 2 ^ 2098 := by
    rw [rounded]
    exact magnitude_lt finite
  obtain ⟨m, p, v, mag, even'⟩ := exists_isSignificand_nearestMagnitude pos below
  have built := ofMagnitude_magnitude finite
  rw [← rounded, ← mag] at built
  rw [← built, v.significand_ofMagnitude]
  exact even' even

/-- A number is only halfway between a double and its negative if both are zero, which is nearer
otherwise. -/
lemma value_eq_of_abs_eq {q : ℚ} {d e : Double}
    (nearest : ∀ e : Double, e.isFinite = true → |d.value - q| ≤ |e.value - q|)
    (size : |e.value| = |d.value|) (tie : |e.value - q| = |d.value - q|) :
    e.value = d.value := by
  obtain ⟨z, finite, zero⟩ := exists_value_eq_zero
  rcases abs_eq_abs.mp size with same | opposite
  · exact same
  · rw [opposite] at tie ⊢
    rcases abs_eq_abs.mp tie with equal | equal
    · exact sub_left_injective equal
    · have between : q = 0 := by linarith
      have near := nearest z finite
      rw [zero, between, sub_self, sub_zero, abs_zero] at near
      rw [abs_nonpos_iff.mp near, neg_zero]

/-- The nearest magnitude is that of the double which a quotient of units is rounded to. -/
lemma roundsTo_of_nearestMagnitude {num den : Nat} {d : Double} (pos : 0 < den)
    (finite : d.isFinite = true) (rounded : nearestMagnitude num den = d.magnitude) :
    RoundsTo (signed d.isNegative (num / (den * one))) d := by
  have pos' : (0 : ℚ) < den * one := mul_pos (Nat.cast_pos.mpr pos) one_pos_rat
  have size : |signed d.isNegative (num / (den * one))| = num / (den * one) := by
    rw [abs_signed, abs_of_nonneg (div_nonneg (Nat.cast_nonneg _) pos'.le)]
  -- The distances from the quotient and from the signed number compare alike, for the double itself
  -- with equality.
  have own : |d.value - signed d.isNegative (num / (den * one))| =
      (Nat.dist (nearestMagnitude num den * den) num : Nat) / (den * one) := by
    rw [value_eq, abs_signed_sub_signed, abs_div_one_sub pos, rounded]
  have rival (e : Double) : (Nat.dist (e.magnitude * den) num : Nat) / (den * one) ≤
      |e.value - signed d.isNegative (num / (den * one))| := by
    have le := abs_abs_sub_abs_le e.value (signed d.isNegative (num / (den * one)))
    rwa [size, abs_value, abs_div_one_sub pos] at le
  have near {e : Double} (fe : e.isFinite = true) :
      Nat.dist (nearestMagnitude num den * den) num ≤ Nat.dist (e.magnitude * den) num := by
    rw [e.magnitude_eq]
    exact nearestMagnitude_nearest num pos (isSignificand fe)
  have nearest (e : Double) (fe : e.isFinite = true) :
      |d.value - signed d.isNegative (num / (den * one))| ≤
        |e.value - signed d.isNegative (num / (den * one))| := by
    rw [own]
    exact ((div_le_div_iff_of_pos_right pos').mpr (Nat.cast_le.mpr (near fe))).trans (rival e)
  refine ⟨finite, ?_, nearest, fun e fe other tie => ?_⟩
  · rw [size, div_lt_overflowBound_iff pos, rounded]
    exact magnitude_lt finite
  · have le := rival e
    rw [tie, own, div_le_div_iff_of_pos_right pos', Nat.cast_le] at le
    have same := le_antisymm le (near fe)
    by_cases mag : e.magnitude = nearestMagnitude num den
    · -- The doubles differ only in their signs.
      have size : |e.value| = |d.value| := by
        rw [abs_value, abs_value, mag, rounded]
      exact absurd (value_eq_of_abs_eq nearest size tie) other
    · rw [e.magnitude_eq] at same mag
      apply significand_even_of_nearestMagnitude pos finite rounded
      exact nearestMagnitude_even_of_tie pos (isSignificand fe) mag same

/-- A quotient of units with a sign is rounded to a double with the nearest magnitude, if this is a
finite one. -/
lemma exists_roundsTo_signed {num den : Nat} (negative : Bool) (pos : 0 < den)
    (below : nearestMagnitude num den < 2 ^ 2098) :
    ∃ d, d.magnitude = nearestMagnitude num den ∧
      RoundsTo (signed negative (num / (den * one))) d := by
  obtain ⟨m, p, v, mag, -⟩ := exists_isSignificand_nearestMagnitude pos below
  have magnitude := v.magnitude_ofMagnitude negative
  have rounds := roundsTo_of_nearestMagnitude pos (v.isFinite_ofMagnitude negative)
    (mag.symm.trans magnitude.symm)
  rw [v.isNegative_ofMagnitude] at rounds
  exact ⟨_, magnitude.trans mag, rounds⟩

/-- Whatever is rounded to a double, its absolute value is rounded to the magnitude. -/
theorem RoundsTo.nearestMagnitude_eq {num den : Nat} {negative : Bool} {d : Double} (pos : 0 < den)
    (rounds : RoundsTo (signed negative (num / (den * one))) d) :
    nearestMagnitude num den = d.magnitude := by
  have pos' : (0 : ℚ) < den * one := mul_pos (Nat.cast_pos.mpr pos) one_pos_rat
  have bounded := rounds.bounded
  rw [abs_signed, abs_of_nonneg (div_nonneg (Nat.cast_nonneg _) pos'.le),
    div_lt_overflowBound_iff pos] at bounded
  obtain ⟨e, magnitude, other⟩ := exists_roundsTo_signed negative pos bounded
  rw [← magnitude, magnitude_eq_of_value (other.unique rounds)]

/-- The absolute value of a number is a quotient of units. -/
lemma exists_abs_eq_div (q : ℚ) : ∃ num den : Nat, 0 < den ∧ |q| = num / (den * one) := by
  refine ⟨q.num.natAbs * one, q.den, q.den_pos, ?_⟩
  rw [Nat.cast_mul, mul_div_mul_right _ _ one_pos_rat.ne', Nat.cast_natAbs, Int.cast_abs]
  nth_rewrite 1 [← Rat.num_div_den q]
  rw [abs_div, Nat.abs_cast]

/-- The sign of a double may be put in front of what is rounded to it: only zero is the double of
numbers of either sign. -/
lemma RoundsTo.with_sign {q : ℚ} {d : Double} (rounds : RoundsTo q d) :
    RoundsTo (signed d.isNegative |q|) d := by
  obtain ⟨num, den, pos, size⟩ := exists_abs_eq_div q
  rw [← signed_abs q, size] at rounds
  rw [size]
  exact roundsTo_of_nearestMagnitude pos rounds.finite (rounds.nearestMagnitude_eq pos)

end Double

end LuaChunk
