import LuaChunk.Double.Shortest
import LuaChunk.Proofs.Double.Nearest

/-!
# The coarsest grid of an interval

`Double.firstFrom` looks for a multiple of a power of ten that passes a test.  If the test is passed
by an interval around a number, the neighbours of the number are the only multiples that need to be
tried (`IsInterval.neighbour`), so what is found is `Double.IsFirst`: it lies on the coarsest grid
that has a point in the interval, and no other point of this grid in the interval is nearer to the
number.
-/

namespace LuaChunk.Double

/-- A test is passed by a number and by everything between the number and what passes. -/
structure IsInterval (passes : Nat → Bool) (centre : Nat) : Prop where
  centre_passes : passes centre = true
  above : ∀ i j, passes i = true → i ≤ j → j ≤ centre → passes j = true
  below : ∀ i j, passes i = true → centre ≤ j → j ≤ i → passes j = true

/-- A number is nearest to another one among the multiples of a step that pass a test. -/
structure IsNearestPoint (passes : Nat → Bool) (centre step n : Nat) : Prop where
  point_passes : passes (n * step) = true
  nearest : ∀ k, passes (k * step) = true →
    Nat.dist (n * step) centre ≤ Nat.dist (k * step) centre

/-- The first grid, from steps of ten to the power `top` down, with a point that passes a test, and
the nearest such point. -/
structure IsFirst (passes : Nat → Bool) (centre top : Nat) (point : Nat × Nat) : Prop where
  le : point.2 ≤ top
  isNearestPoint : IsNearestPoint passes centre (10 ^ point.2) point.1
  coarser : ∀ i k, point.2 < i → i ≤ top → passes (k * 10 ^ i) = false

section

variable {passes : Nat → Bool} {centre step n : Nat}

/-- A multiple that passes lies below the number, and then the lower neighbour passes as well, or
above it, and then the upper one does. -/
lemma IsInterval.neighbour {k : Nat} (interval : IsInterval passes centre) (pos : 0 < step)
    (multiple : passes (k * step) = true) :
    (k * step ≤ centre / step * step ∧ passes (centre / step * step) = true) ∨
      ((centre / step + 1) * step ≤ k * step ∧ passes ((centre / step + 1) * step) = true) := by
  have low := Nat.div_mul_le_self centre step
  have high := Nat.lt_div_mul_add pos (a := centre)
  rw [← Nat.succ_mul] at high
  rcases mul_le_or_le_mul centre step k with below | above
  · exact .inl ⟨below, interval.above _ _ multiple below low⟩
  · rw [← Nat.succ_mul] at above
    exact .inr ⟨above, interval.below _ _ multiple high.le above⟩

/-- The point that is chosen on a grid passes and is the nearest one that does. -/
lemma IsInterval.onGrid?_eq_some (interval : IsInterval passes centre) (pos : 0 < step)
    (chosen : onGrid? passes centre step = some n) : IsNearestPoint passes centre step n := by
  have low := Nat.div_mul_le_self centre step
  have high := Nat.lt_div_mul_add pos (a := centre)
  rw [← Nat.succ_mul] at high
  unfold onGrid? at chosen
  dsimp only at chosen
  split at chosen
  case h_1 below above =>
    cases chosen
    refine ⟨?_, fun k _ => roundHalfEven_nearest centre pos k⟩
    rcases roundHalfEven_cases centre step with ⟨e, -⟩ | ⟨e, -⟩
    · rw [e, below]
    · rw [e, above]
  case h_2 below above =>
    cases chosen
    refine ⟨below, fun k multiple => ?_⟩
    rcases interval.neighbour pos multiple with ⟨le, -⟩ | ⟨-, other⟩
    · rw [Nat.dist_eq_sub_of_le low, Nat.dist_eq_sub_of_le (le.trans low)]
      exact Nat.sub_le_sub_left le centre
    · rw [above] at other
      cases other
  case h_3 below above =>
    cases chosen
    refine ⟨above, fun k multiple => ?_⟩
    rcases interval.neighbour pos multiple with ⟨-, other⟩ | ⟨le, -⟩
    · rw [below] at other
      cases other
    · rw [Nat.dist_eq_sub_of_le_right high.le, Nat.dist_eq_sub_of_le_right (high.le.trans le)]
      exact Nat.sub_le_sub_right le centre
  case h_4 => cases chosen

/-- A grid is passed over only if none of its points passes. -/
lemma IsInterval.onGrid?_eq_none (interval : IsInterval passes centre) (pos : 0 < step)
    (refused : onGrid? passes centre step = none) (k : Nat) : passes (k * step) = false := by
  rw [Bool.eq_false_iff]
  intro multiple
  unfold onGrid? at refused
  dsimp only at refused
  split at refused
  case h_4 below above =>
    rcases interval.neighbour pos multiple with ⟨-, low⟩ | ⟨-, high⟩
    · rw [below] at low
      cases low
    · rw [above] at high
      cases high
  all_goals cases refused

/-- The search finds the first grid. -/
theorem IsInterval.isFirst_firstFrom (interval : IsInterval passes centre) (top : Nat) :
    IsFirst passes centre top (firstFrom passes centre top) := by
  induction top with
  | zero =>
    rw [firstFrom]
    refine ⟨le_rfl, ⟨?_, fun k _ => ?_⟩, fun i k above le => ?_⟩
    · rw [pow_zero, mul_one]
      exact interval.centre_passes
    · rw [pow_zero, mul_one, Nat.dist_self]
      exact Nat.zero_le _
    · exact absurd le (not_le.mpr above)
  | succ top ih =>
    have pos : 0 < Nat.pow 10 (top + 1) := Nat.pow_pos (by decide)
    rw [firstFrom]
    split
    case h_1 point chosen =>
      refine ⟨le_rfl, interval.onGrid?_eq_some pos chosen, fun i k above le => ?_⟩
      exact absurd le (not_le.mpr above)
    case h_2 refused =>
      refine ⟨ih.le.trans (Nat.le_succ top), ih.isNearestPoint, fun i k above le => ?_⟩
      rcases Nat.le_succ_iff.mp le with le' | rfl
      · exact ih.coarser i k above le'
      · exact interval.onGrid?_eq_none pos refused k

/-- The first grid leaves few digits to its point, unless they are a power of ten: otherwise this
power would be a nearer point. -/
lemma IsFirst.le_pow {top : Nat} {point : Nat × Nat} (first : IsFirst passes centre top point)
    (interval : IsInterval passes centre) (high : centre < 10 ^ (top + 1)) :
    point.1 ≤ 10 ^ (top + 1 - point.2) := by
  by_contra many
  rw [not_le] at many
  have le := first.le
  obtain ⟨reached, nearest⟩ := first.isNearestPoint
  have split : 10 ^ (top + 1) = 10 ^ (top + 1 - point.2) * 10 ^ point.2 := by
    rw [← pow_add, Nat.sub_add_cancel (by omega)]
  have pos : 0 < 10 ^ point.2 := Nat.pow_pos (by decide)
  have lt := Nat.mul_lt_mul_of_pos_right many pos
  rw [← split] at lt
  have nearer := interval.below _ _ reached high.le lt.le
  rw [split] at nearer
  have distance := nearest _ nearer
  rw [← split, Nat.dist_eq_sub_of_le_right high.le,
    Nat.dist_eq_sub_of_le_right (high.trans lt).le] at distance
  omega

end

end LuaChunk.Double
