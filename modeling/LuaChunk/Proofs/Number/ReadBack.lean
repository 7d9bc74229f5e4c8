import LuaChunk.Number
import LuaChunk.Proofs.Double.Shortest
import LuaChunk.Proofs.Double.Whole
import LuaChunk.Proofs.Number.Decimal

/-!
# Reading numbers back

The text of a finite double is a decimal numeral whose value is rounded to the double again
(`Number.text_readsBack`).  A whole double below 2⁶³ is printed as its integer; of any other one the
numeral is the shortest, and the nearest of the shortest (`Decimal.IsShortestFor`).
-/

namespace LuaChunk

/-- A positive number does not begin with a zero. -/
lemma toDigits_head {n : Nat} (pos : 0 < n) : ∀ c ∈ (Nat.toDigits 10 n).head?, c ≠ '0' := by
  induction n using Nat.strong_induction_on with
  | h n ih =>
    rcases Nat.lt_or_ge n 10 with one | more
    · rw [Nat.toDigits_of_lt_base one]
      rintro c ⟨⟩
      interval_cases n <;> decide
    · rw [Nat.toDigits_of_base_le (by decide) more,
        List.head?_append_of_ne_nil _ Nat.toDigits_ne_nil]
      exact ih (n / 10) (by omega) (by omega)

/-- A power of ten is a one with zeros. -/
lemma toDigits_ten_pow (n : Nat) : Nat.toDigits 10 (10 ^ n) = '1' :: List.replicate n '0' := by
  induction n with
  | zero => rfl
  | succ n ih =>
    have split := Nat.toDigits_append_toDigits (b := 10) (n := 10 ^ n) (d := 0) (by decide)
      (Nat.pow_pos (by decide)) (by decide)
    rw [add_zero, ih, Nat.toDigits_zero] at split
    rw [pow_succ', ← split, List.cons_append, ← List.replicate_succ']

namespace Double

/-- Zeros at the end do not matter if the zeros at the end are dropped. -/
lemma trimZeros_append_zeros (cs : List Char) (n : Nat) :
    trimZeros (cs ++ List.replicate n '0') = trimZeros cs := by
  rw [trimZeros, List.reverse_append, List.reverse_replicate, List.dropWhile_append_of_pos]
  · rfl
  · intro c mem
    rw [List.eq_of_mem_replicate mem]
    rfl

/-- Only zeros are dropped. -/
lemma exists_trimZeros_append (cs : List Char) :
    ∃ n, cs = trimZeros cs ++ List.replicate n '0' := by
  have parts : trimZeros cs ++ cs.rtakeWhile (· == '0') = cs := List.rdropWhile_append_rtakeWhile
  have zeros : cs.rtakeWhile (· == '0') =
      List.replicate (cs.rtakeWhile (· == '0')).length '0' := by
    rw [List.eq_replicate_iff]
    refine ⟨rfl, fun c mem => ?_⟩
    have zero : (c == '0') = true := List.mem_rtakeWhile_imp (p := (· == '0')) mem
    exact beq_iff_eq.mp zero
  rw [zeros] at parts
  exact ⟨_, parts.symm⟩

/-- Few digits are left of a number that is at most a power of ten. -/
lemma length_trimZeros_le {n k : Nat} (le : n ≤ 10 ^ k) (pos : 0 < k) :
    (trimZeros (Nat.toDigits 10 n)).length ≤ k := by
  rcases le.lt_or_eq with lt | rfl
  · have trimmed : trimZeros (Nat.toDigits 10 n) <+: Nat.toDigits 10 n := List.rdropWhile_prefix _ _
    exact trimmed.length_le.trans ((Nat.length_toDigits_le_iff (by decide) pos).mpr lt)
  · rw [toDigits_ten_pow]
    have one : trimZeros ('1' :: List.replicate k '0') = ['1'] := trimZeros_append_zeros ['1'] k
    rw [one]
    exact pos

end Double

/-- Some digit of a positive number is left. -/
lemma Double.trimZeros_ne_nil {n : Nat} (pos : 0 < n) : trimZeros (Nat.toDigits 10 n) ≠ [] := by
  intro blank
  obtain ⟨k, e⟩ := exists_trimZeros_append (Nat.toDigits 10 n)
  rw [blank, List.nil_append] at e
  have zero := spelled_toDigits n
  rw [e, spelled_zeros] at zero
  exact pos.ne zero

/-- Zeros around the digits of a positive number do not count. -/
lemma Decimal.precision_eq {x : Decimal} {n a b : Nat} (pos : 0 < n)
    (figures : x.figures = List.replicate a '0' ++
      (Double.trimZeros (Nat.toDigits 10 n) ++ List.replicate b '0')) :
    x.precision = (Double.trimZeros (Nat.toDigits 10 n)).length := by
  have zeros : ∀ c ∈ List.replicate a '0', (c == '0') = true := by
    intro c mem
    rw [List.eq_of_mem_replicate mem]
    rfl
  obtain ⟨c, cs, e⟩ := List.exists_cons_of_ne_nil (Double.trimZeros_ne_nil pos)
  obtain ⟨k, digits⟩ := Double.exists_trimZeros_append (Nat.toDigits 10 n)
  have first : c ≠ '0' := by
    apply toDigits_head pos
    rw [digits, e]
    rfl
  have idempotent : Double.trimZeros (c :: cs) = c :: cs := by
    rw [← e]
    exact List.rdropWhile_idempotent _ _
  rw [precision, figures, List.dropWhile_append_of_pos zeros, e, List.cons_append,
    List.dropWhile_cons_of_neg (by rw [beq_iff_eq]; exact first), ← List.cons_append]
  have trimmed := Double.trimZeros_append_zeros (c :: cs) b
  rw [idempotent] at trimmed
  exact congrArg List.length trimmed

namespace Double

/-- The notation of a decimal is a numeral of the digits that are left when the zeros at the end are
cut off. -/
lemma exists_decimalText {point : Nat × Nat} (pos : 0 < point.1) (negative : Bool) :
    ∃ x : Decimal, x.chars = Decimal.signChars negative ++ decimalText point ∧
      x.precision = (trimZeros (Nat.toDigits 10 point.1)).length ∧
      x.value = signed negative (decimal (point.1 * 10 ^ point.2)) := by
  obtain ⟨k, digits⟩ := exists_trimZeros_append (Nat.toDigits 10 point.1)
  have length := congrArg List.length digits
  have number := congrArg spelled digits
  rw [List.length_append, List.length_replicate] at length
  rw [spelled_toDigits, spelled_append_zeros] at number
  have areDigits : AreDigits (trimZeros (Nat.toDigits 10 point.1)) :=
    (AreDigits.toDigits _).sublist (List.rdropWhile_prefix _ _).sublist
  obtain ⟨x, chars, ⟨a, b, figures⟩, value⟩ := layout.exists_shows
    ⟨_, trimZeros_ne_nil pos, areDigits⟩
    ((Nat.toDigits 10 point.1).length + point.2 - 1074) negative
  refine ⟨x, chars, Decimal.precision_eq pos figures, ?_⟩
  have shift : (k : ℤ) + (point.2 - 1074) = (Nat.toDigits 10 point.1).length + point.2 - 1074 -
      (trimZeros (Nat.toDigits 10 point.1)).length := by omega
  have scaled : (point.1 : ℚ) * 10 ^ ((point.2 : ℤ) - 1074) =
      spelled (trimZeros (Nat.toDigits 10 point.1)) *
        10 ^ ((k : ℤ) + (point.2 - 1074)) := by
    rw [zpow_add₀ (by norm_num), ← mul_assoc, zpow_natCast]
    exact_mod_cast congrArg (fun n : Nat => (n : ℚ) * 10 ^ ((point.2 : ℤ) - 1074)) number
  rw [value, decimal_mul_ten_pow, scaled, shift]

/-- The text of a double that is neither zero nor infinite. -/
lemma toList_text {d : Double} (finite : d.isFinite = true) (nonzero : d.magnitude ≠ 0) :
    d.text.toList = Decimal.signChars d.isNegative ++ magnitudeText d.magnitude := by
  obtain ⟨number, bounded⟩ := not_special_of_isFinite finite
  unfold text
  dsimp only
  rw [number, bounded, if_neg Bool.false_ne_true, if_neg Bool.false_ne_true, if_neg nonzero,
    String.toList_ofList]
  rfl

end Double

/-- A numeral has the fewest digits of all decimals that are rounded to a double, and of those with
as many digits none is nearer to the double. -/
structure Decimal.IsShortestFor (x : Decimal) (d : Double) : Prop where
  fewest : ∀ a b : ℤ, Double.RoundsTo (a * 10 ^ b) d →
    x.precision ≤ (Nat.toDigits 10 a.natAbs).length
  nearest : ∀ a b : ℤ, Double.RoundsTo (a * 10 ^ b) d →
    (Nat.toDigits 10 a.natAbs).length = x.precision → |x.value - d.value| ≤ |a * 10 ^ b - d.value|

/-- The absolute value of a decimal is that of its significand, at the same power of ten. -/
lemma abs_mul_zpow (a b : ℤ) : |(a : ℚ) * 10 ^ b| = a.natAbs * 10 ^ b := by
  have ten : (0 : ℚ) < 10 := by norm_num
  rw [abs_mul, abs_of_pos (zpow_pos ten b), Nat.cast_natAbs, Int.cast_abs]

/-- A number that reaches a power of ten has more digits than its exponent. -/
lemma lt_length_toDigits {n k : Nat} (le : 10 ^ k ≤ n) : k < (Nat.toDigits 10 n).length := by
  by_contra short
  rw [not_lt] at short
  have lt := (Nat.length_toDigits_le_iff (by decide)
    (Nat.length_toDigits_pos.trans_le short)).mp short
  exact absurd le (not_le.mpr lt)

/-- The text of a double is the shortest decimal that is rounded to it. -/
theorem Double.exists_shortest {d : Double} (finite : d.isFinite = true)
    (nonzero : d.magnitude ≠ 0) :
    ∃ x : Decimal, d.text.toList = x.chars ∧ RoundsTo x.value d ∧ x.IsShortestFor d := by
  obtain ⟨top, low, high, first⟩ := isFirst_shortest finite nonzero
  have reads := first.isNearestPoint.point_passes
  have pos : 0 < (shortest d.magnitude).1 := by
    by_contra zero
    rw [Nat.eq_zero_of_not_pos zero, zero_mul, readsBack_zero nonzero] at reads
    cases reads
  obtain ⟨x, chars, precision, value⟩ := exists_decimalText pos d.isNegative
  have few : x.precision ≤ top - (shortest d.magnitude).2 + 1 := by
    rw [precision, ← Nat.sub_add_comm first.le]
    apply length_trimZeros_le (first.le_pow (isInterval_readsBack finite) high)
    exact Nat.sub_pos_of_lt (Nat.lt_succ_of_le first.le)
  have own : d.value = signed d.isNegative (decimal d.inDecimalUnits) := by
    rw [decimal_inDecimalUnits, signed_abs_value]
  refine ⟨x, ?_, ?_, ⟨fun a b rounds => ?_, fun a b rounds as_many => ?_⟩⟩
  · rw [toList_text finite nonzero, magnitudeText, chars]
  · rw [value]
    exact (readsBack_iff finite).mp reads
  · have size := abs_mul_zpow a b
    exact few.trans (lt_length_toDigits (first.pow_le_of_roundsTo low nonzero rounds size))
  · have digits : a.natAbs < 10 ^ (top + 1 - (shortest d.magnitude).2) := by
      rw [Nat.sub_add_comm first.le, ← Nat.length_toDigits_le_iff (by decide) (Nat.succ_pos _),
        as_many]
      exact few
    calc |x.value - d.value| = |decimal ((shortest d.magnitude).1 * 10 ^ (shortest d.magnitude).2) -
          decimal d.inDecimalUnits| := by rw [value, own, abs_signed_sub_signed]
      _ ≤ |abs ((a : ℚ) * 10 ^ b) - decimal d.inDecimalUnits| :=
        first.nearest_of_roundsTo low rounds (abs_mul_zpow a b) digits
      _ ≤ |(a : ℚ) * 10 ^ b - d.value| := by
        rw [decimal_inDecimalUnits]
        exact abs_abs_sub_abs_le _ _

/-- The digits of a natural number are a plain numeral. -/
lemma exists_plain (negative : Bool) (n : Nat) :
    ∃ x : Decimal, x.chars = Decimal.signChars negative ++ Nat.toDigits 10 n ∧ x.IsPlain ∧
      x.value = signed negative n := by
  let x : Decimal := ⟨negative, ⟨_, Nat.toDigits_ne_nil, .toDigits n⟩, none, none⟩
  have figures : x.figures =
      List.replicate 0 '0' ++ (Nat.toDigits 10 n ++ List.replicate 0 '0') := rfl
  refine ⟨x, congrArg _ (List.append_nil _), ⟨rfl, rfl⟩, ?_⟩
  rw [Decimal.value_eq_of_figures figures rfl, spelled_toDigits]
  exact congrArg (signed negative) (mul_one _)

/-- An integer is written as a plain numeral. -/
lemma exists_decimal_toString (n : ℤ) :
    ∃ x : Decimal, (toString n).toList = x.chars ∧ x.IsPlain ∧ x.value = n := by
  cases n with
  | ofNat k =>
    obtain ⟨x, chars, plain, value⟩ := exists_plain false k
    refine ⟨x, ?_, plain, value⟩
    have text : toString (Int.ofNat k) = toString k := rfl
    rw [text, Nat.toString_eq_ofList_toDigits, String.toList_ofList, chars]
    rfl
  | negSucc k =>
    obtain ⟨x, chars, plain, value⟩ := exists_plain true (k + 1)
    refine ⟨x, ?_, plain, ?_⟩
    · have text : toString (Int.negSucc k) = "-" ++ toString (k + 1) := rfl
      rw [text, String.toList_append, Nat.toString_eq_ofList_toDigits, String.toList_ofList,
        String.toList_ofList, chars]
      rfl
    · rw [value, Int.cast_negSucc]
      rfl

/-- The value of a double is an integer below 2⁶³. -/
def Double.IsPrintedWhole (d : Double) : Prop :=
  ∃ n : ℤ, d.value = n ∧ |n| < 2 ^ 63

/-- The test of a finite double agrees with being an integer below 2⁶³. -/
lemma Double.isPrintedWhole_iff {d : Double} (finite : d.isFinite = true) :
    d.IsPrintedWhole ↔ (d.isWhole && decide (d.truncate.natAbs < wholeTextLimit)) = true := by
  have bound (n : ℤ) : |n| < 2 ^ 63 ↔ n.natAbs < wholeTextLimit := by
    rw [Int.abs_eq_natAbs]
    exact Int.ofNat_lt (m := wholeTextLimit)
  rw [Bool.and_eq_true, decide_eq_true_eq]
  constructor
  · rintro ⟨n, value, small⟩
    rw [truncate_eq_of_value finite value]
    exact ⟨isWhole_iff.mpr ⟨finite, n, value⟩, (bound n).mp small⟩
  · rintro ⟨whole, small⟩
    exact ⟨d.truncate, (truncate_eq_value whole).symm, (bound _).mpr small⟩

namespace Double

/-- A whole double below 2⁶³ has its integer as a literal. -/
lemma literal_of_isPrintedWhole {d : Double} (finite : d.isFinite = true)
    (printed : d.IsPrintedWhole) : d.literal = toString d.truncate := by
  obtain ⟨number, bounded⟩ := not_special_of_isFinite finite
  rw [literal, number, bounded, (isPrintedWhole_iff finite).mp printed]
  rfl

/-- Every other finite double has its shortest decimal as a literal. -/
lemma literal_of_not_isPrintedWhole {d : Double} (finite : d.isFinite = true)
    (other : ¬ d.IsPrintedWhole) : d.literal = d.text := by
  obtain ⟨number, bounded⟩ := not_special_of_isFinite finite
  rw [isPrintedWhole_iff finite, Bool.not_eq_true] at other
  rw [literal, number, bounded, other]
  rfl

/-- The numeral that a finite double is printed as. -/
lemma exists_decimal_literal {d : Double} (finite : d.isFinite = true) :
    ∃ x : Decimal, d.literal.toList = x.chars ∧ RoundsTo x.value d ∧
      (d.IsPrintedWhole → x.IsPlain ∧ x.value = d.value) ∧
      (¬ d.IsPrintedWhole → x.IsShortestFor d) := by
  by_cases printed : d.IsPrintedWhole
  · obtain ⟨x, chars, plain, value⟩ := exists_decimal_toString d.truncate
    have ⟨n, integer, _⟩ := printed
    rw [truncate_eq_of_value finite integer, ← integer] at value
    refine ⟨x, ?_, ?_, fun _ => ⟨plain, value⟩, fun other => absurd printed other⟩
    · rw [literal_of_isPrintedWhole finite printed, chars]
    · rw [value]
      exact roundsTo_value finite
  · have nonzero : d.magnitude ≠ 0 := by
      intro zero
      refine printed ⟨0, ?_, by decide⟩
      rw [Int.cast_zero, ← abs_eq_zero, abs_value, zero, Nat.cast_zero, zero_div]
    obtain ⟨x, chars, rounds, shortest⟩ := exists_shortest finite nonzero
    refine ⟨x, ?_, rounds, fun whole => absurd whole printed, fun _ => shortest⟩
    rw [literal_of_not_isPrintedWhole finite printed, chars]

end Double

namespace Number

/-- Every finite double has a text.  It is a decimal numeral whose value is rounded to the double:
the integer itself if this lies below 2⁶³, and otherwise the shortest decimal.  So only doubles of
the same value share a text. -/
theorem text_readsBack {d : Double} (finite : d.isFinite = true) :
    (∃ x : Decimal, (double d).text = .ok (String.ofList x.chars) ∧ Double.RoundsTo x.value d ∧
      (∀ n : ℤ, d.value = n → |n| < 2 ^ 63 →
        (double d).text = .ok (toString n) ∧ x.IsPlain ∧ x.value = n) ∧
      ((¬ ∃ n : ℤ, d.value = n ∧ |n| < 2 ^ 63) → x.IsShortestFor d)) ∧
    ∀ e : Double, e.isFinite = true → (double e).text = (double d).text → e.value = d.value := by
  obtain ⟨x, chars, rounds, whole, shortest⟩ := Double.exists_decimal_literal finite
  refine ⟨⟨x, ?_, rounds, fun n value small => ?_, shortest⟩, fun e finite' same => ?_⟩
  · rw [← chars, String.ofList_toList, text]
  · obtain ⟨plain, integer⟩ := whole ⟨n, value, small⟩
    refine ⟨?_, plain, integer.trans value⟩
    rw [text, Double.literal_of_isPrintedWhole finite ⟨n, value, small⟩,
      Double.truncate_eq_of_value finite value]
  · obtain ⟨y, chars', rounds', -⟩ := Double.exists_decimal_literal finite'
    rw [Except.ok.inj same, chars] at chars'
    rw [← Decimal.chars_injective chars'] at rounds'
    exact rounds'.unique rounds

/-- The double next to 10²³ is printed with one digit, which is rounded to it. -/
theorem text_readsBack_tenPow23 :
    ∃ x : Decimal, (double ⟨0x44B52D02C7E14AF6⟩).text = .ok "1e+23" ∧
      "1e+23" = String.ofList x.chars ∧ Double.RoundsTo x.value ⟨0x44B52D02C7E14AF6⟩ ∧
      x.IsShortestFor ⟨0x44B52D02C7E14AF6⟩ := by
  have finite : (⟨0x44B52D02C7E14AF6⟩ : Double).isFinite = true := by decide
  have large : ¬ (⟨0x44B52D02C7E14AF6⟩ : Double).IsPrintedWhole := by
    rw [Double.isPrintedWhole_iff finite]
    decide +kernel
  have text : (double ⟨0x44B52D02C7E14AF6⟩).text = .ok "1e+23" := by decide +kernel
  obtain ⟨⟨x, chars, rounds, -, shortest⟩, -⟩ := text_readsBack finite
  exact ⟨x, text, Except.ok.inj (text.symm.trans chars), rounds, shortest large⟩

end Number

end LuaChunk
