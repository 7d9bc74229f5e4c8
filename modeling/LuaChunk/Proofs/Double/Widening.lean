import LuaChunk.Proofs.Double.Magnitude

/-!
# Widening single precision

`Double.IsWidened` says which double has the value of a single-precision pattern;
`Double.isWidened_iff` shows that it is the one that `Double.ofSingle` builds.
-/

namespace LuaChunk.Double

/-- The exponent field of a single-precision pattern. -/
def singleExponentField (word : Nat) : Nat :=
  word / 2 ^ 23 % 2 ^ 8

/-- The fraction field of a single-precision pattern. -/
def singleFraction (word : Nat) : Nat :=
  word % 2 ^ 23

/-- The absolute value of a finite single-precision number in units of 2⁻¹⁴⁹. -/
def singleMagnitude (word : Nat) : Nat :=
  if singleExponentField word = 0 then singleFraction word
  else (2 ^ 23 + singleFraction word) * 2 ^ (singleExponentField word - 1)

/-- A double has the value of a single-precision pattern.  A unit of 2⁻¹⁴⁹ is 2⁹²⁵ units of 2⁻¹⁰⁷⁴;
an infinity has no fraction, and a NaN keeps its fraction at the upper end of the wider field, where
the leading bit is set. -/
structure IsWidened (word : Nat) (d : Double) : Prop where
  sign : d.isNegative = decide (2 ^ 31 ≤ word)
  finite : singleExponentField word ≠ 255 →
    d.isFinite = true ∧ d.magnitude = singleMagnitude word * 2 ^ 925
  special : singleExponentField word = 255 → d.exponentField = 2047
  infinite : singleExponentField word = 255 → singleFraction word = 0 → d.fraction = 0
  notANumber : singleExponentField word = 255 → singleFraction word ≠ 0 →
    d.fraction = (2 ^ 22 + singleFraction word % 2 ^ 22) * 2 ^ 29

/-- A unit of single precision is 2⁹²⁵ units of double precision. -/
lemma singleUnit_eq : singleUnit = 2 ^ 925 := by
  delta singleUnit
  generalize 925 = e
  exact Nat.pow_eq

/-- The fraction of what is not finite has its leading bit set, unless it is zero. -/
lemma quietFraction_eq {fraction : Nat} (lt : fraction < 2 ^ 23) :
    quietFraction fraction = if fraction = 0 then 0 else 2 ^ 22 + fraction % 2 ^ 22 := by
  unfold quietFraction singleQuietBit
  split_ifs with h <;> omega

/-- It takes no more bits than before. -/
lemma quietFraction_lt {fraction : Nat} (lt : fraction < 2 ^ 23) :
    quietFraction fraction < 2 ^ 23 := by
  rw [quietFraction_eq lt]
  split_ifs <;> omega

/-- The value of a finite single-precision number is one of a double. -/
lemma exists_isSignificand_single (word : Nat) :
    ∃ m p, IsSignificand m p ∧ m * 2 ^ p = singleMagnitude word * 2 ^ 925 := by
  have hf : singleFraction word < 2 ^ 23 := Nat.mod_lt _ (by decide)
  have he : singleExponentField word < 2 ^ 8 := Nat.mod_lt _ (by decide)
  unfold singleMagnitude
  split
  case isTrue zero =>
    exact exists_isSignificand (by omega) (mul_two_pow_lt hf (by decide))
  case isFalse pos =>
    have lt : 2 ^ 23 + singleFraction word < 2 ^ 24 := by omega
    rw [mul_assoc, ← pow_add]
    exact exists_isSignificand (by omega) (mul_two_pow_lt lt (by omega))

/-- A pattern is widened to a double of its value. -/
lemma isWidened_ofSingle {word : Nat} (lt : word < 2 ^ 32) :
    IsWidened word (ofSingle (UInt32.ofNat word)) := by
  have toNat : (UInt32.ofNat word).toNat = word := UInt32.toNat_ofNat_of_lt' lt
  have hf : singleFraction word < 2 ^ 23 := Nat.mod_lt _ (by decide)
  by_cases special : singleExponentField word = 255
  · have e : ofSingle (UInt32.ofNat word) = ofBits (decide (2 ^ 31 ≤ word))
        (2047 * 2 ^ 52 + quietFraction (singleFraction word) * 2 ^ 29) := by
      rw [ofSingle, toNat]
      exact if_pos special
    have kept := quietFraction_lt hf
    have fits : 2047 * 2 ^ 52 + quietFraction (singleFraction word) * 2 ^ 29 < 2 ^ 63 := by omega
    have fraction : (2047 * 2 ^ 52 + quietFraction (singleFraction word) * 2 ^ 29) % 2 ^ 52 =
        quietFraction (singleFraction word) * 2 ^ 29 := by omega
    rw [e]
    refine ⟨isNegative_ofBits fits, fun finite => absurd special finite, fun _ => ?_,
      fun _ none => ?_, fun _ some => ?_⟩
    · rw [exponentField_ofBits fits]
      omega
    · rw [fraction_ofBits fits, fraction, quietFraction_eq hf, if_pos none, Nat.zero_mul]
    · rw [fraction_ofBits fits, fraction, quietFraction_eq hf, if_neg some]
  · have e : ofSingle (UInt32.ofNat word) =
        ofMagnitude (decide (2 ^ 31 ≤ word)) (singleMagnitude word * 2 ^ 925) := by
      rw [← singleUnit_eq, ofSingle, toNat]
      refine (if_neg special).trans ?_
      unfold singleMagnitude
      by_cases zero : singleExponentField word = 0
      · rw [if_pos zero]
        exact if_pos zero
      · rw [if_neg zero]
        exact if_neg zero
    obtain ⟨m, p, v, mag⟩ := exists_isSignificand_single word
    rw [e, ← mag]
    refine ⟨v.isNegative_ofMagnitude _, fun _ => ⟨v.isFinite_ofMagnitude _, ?_⟩,
      fun h => absurd h special, fun h => absurd h special, fun h => absurd h special⟩
    rw [v.magnitude_ofMagnitude, mag]

/-- A pattern has the value of one double only. -/
lemma IsWidened.unique {word : Nat} {d e : Double} (hd : IsWidened word d)
    (he : IsWidened word e) : d = e := by
  have sign : d.isNegative = e.isNegative := hd.sign.trans he.sign.symm
  by_cases special : singleExponentField word = 255
  · have fraction : d.fraction = e.fraction := by
      by_cases none : singleFraction word = 0
      · exact (hd.infinite special none).trans (he.infinite special none).symm
      · exact (hd.notANumber special none).trans (he.notANumber special none).symm
    rw [← d.ofBits_fields, ← e.ofBits_fields, sign, hd.special special, he.special special,
      fraction]
  · obtain ⟨df, dm⟩ := hd.finite special
    obtain ⟨ef, em⟩ := he.finite special
    exact eq_of_magnitude_eq df ef sign (dm.trans em.symm)

/-- Widening gives the double of the same value. -/
lemma isWidened_iff {word : Nat} {d : Double} (lt : word < 2 ^ 32) :
    IsWidened word d ↔ d = ofSingle (UInt32.ofNat word) := by
  constructor
  · intro h
    exact h.unique (isWidened_ofSingle lt)
  · rintro rfl
    exact isWidened_ofSingle lt

end LuaChunk.Double
