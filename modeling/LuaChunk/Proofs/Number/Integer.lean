import LuaChunk.Constant
import LuaChunk.Proofs.Number.ReadBack
import LuaChunk.Proofs.Text

/-!
# Numbers that are integers

Whether a number is an integer, which integer of 32 bits it stands for and whether its text is the
numeral of an integer are computed in three ways.  `Constant.toInt32_literal` says how they agree,
and that only whole numbers with too many digits have no literal.
-/

namespace LuaChunk

namespace Double

/-- The notation of digits always has a point or an exponent. -/
lemma Layout.point_or_letter_mem_write (layout : Layout) (digits : List Char) (point : Int) :
    '.' ∈ layout.write digits point ∨ 'e' ∈ layout.write digits point := by
  unfold Layout.write
  split
  case isTrue => exact .inr (List.mem_append_right _ List.mem_cons_self)
  case isFalse =>
    left
    split
    case isTrue => exact List.mem_cons_of_mem _ List.mem_cons_self
    case isFalse =>
      split
      case isTrue => exact List.mem_append_right _ List.mem_cons_self
      case isFalse => exact List.mem_append_right _ List.mem_cons_self

/-- So does the text of a finite double. -/
lemma point_or_letter_mem_text {d : Double} (finite : d.isFinite = true) :
    '.' ∈ d.text.toList ∨ 'e' ∈ d.text.toList := by
  obtain ⟨number, bounded⟩ := not_special_of_isFinite finite
  by_cases zero : d.magnitude = 0
  · left
    rw [text, number, bounded]
    dsimp only
    rw [if_neg Bool.false_ne_true, if_neg Bool.false_ne_true, if_pos zero, String.toList_ofList]
    apply List.mem_append_right
    decide
  · rw [toList_text finite zero]
    have mem := layout.point_or_letter_mem_write
    exact (mem _ _).imp (List.mem_append_right _) (List.mem_append_right _)

end Double

/-- What is neither finite nor NaN is infinite. -/
lemma Double.isInfinite_of_not_isFinite {d : Double} (special : ¬ d.isFinite = true)
    (number : d.isNaN = false) : d.isInfinite = true := by
  rw [isFinite, bne_iff_ne, not_not, ← beq_iff_eq] at special
  rw [isNaN, special, Bool.true_and, bne_eq_false_iff_eq] at number
  rw [isInfinite, special, number]
  rfl

/-- A plain numeral has only digits behind its sign. -/
lemma Decimal.IsPlain.chars_eq {x : Decimal} (plain : x.IsPlain) :
    x.chars = signChars x.negative ++ x.whole.chars := by
  rw [chars, pointChars, exponentChars, plain.1, plain.2, Option.elim_none, Option.elim_none,
    List.append_nil, List.append_nil]

/-- So it has no other characters. -/
lemma Decimal.IsPlain.isDigit_of_mem {x : Decimal} (plain : x.IsPlain) {c : Char}
    (mem : c ∈ x.chars) : c = '-' ∨ c.isDigit = true := by
  rw [plain.chars_eq, List.mem_append] at mem
  rcases mem with sign | digit
  · left
    unfold signChars at sign
    split at sign
    · exact List.mem_singleton.mp sign
    · cases sign
  · exact .inr (x.whole.areDigits c digit)

namespace Number

/-- The exact value of a number that is not infinite and not NaN. -/
def value? : Number → Option ℚ
  | whole n => some n
  | double d => if d.isFinite then some d.value else none

/-- A number is written as a numeral of an integer: a whole number that has a text, or a double
whose value is an integer below 2⁶³. -/
def IsPrintedWhole : Number → Prop
  | whole n => IsShort n
  | double d => d.isWhole = true ∧ |d.value| < 2 ^ 63

/-- A double has a value exactly if it is finite. -/
lemma value?_double_eq_some_iff {d : Double} {q : ℚ} :
    (double d).value? = some q ↔ d.isFinite = true ∧ d.value = q := by
  rw [value?, Option.ite_none_right_eq_some, Option.some_inj]

/-- A number is whole if its exact value is an integer. -/
lemma isWhole_iff {n : Number} : n.isWhole = true ↔ ∃ k : ℤ, n.value? = some (k : ℚ) := by
  cases n with
  | whole n => exact ⟨fun _ => ⟨n, rfl⟩, fun _ => rfl⟩
  | double d =>
    simp only [value?_double_eq_some_iff, exists_and_left]
    exact Double.isWhole_iff

/-- The 32-bit integer of a number is the nearest one to its value. -/
lemma toInt32?_of_value? {n : Number} {k : ℤ} (value : n.value? = some (k : ℚ)) :
    n.toInt32? = some (max (-2 ^ 31) (min (2 ^ 31 - 1) k)) := by
  rw [toInt32?, if_pos (isWhole_iff.mpr ⟨k, value⟩)]
  cases n with
  | whole n =>
    rw [Int.cast_injective (Option.some.inj value)]
    rfl
  | double d =>
    obtain ⟨finite, value⟩ := value?_double_eq_some_iff.mp value
    obtain ⟨number, bounded⟩ := Double.not_special_of_isFinite finite
    rw [truncate, number, bounded, Double.truncate_eq_of_value finite value]
    rfl

/-- A double is printed as an integer exactly if it is finite and an integer below 2⁶³. -/
lemma isPrintedWhole_double_iff {d : Double} :
    (double d).IsPrintedWhole ↔ d.isFinite = true ∧ d.IsPrintedWhole := by
  have bound (n : ℤ) : |(n : ℚ)| < 2 ^ 63 ↔ |n| < 2 ^ 63 := by
    rw [← Int.cast_abs]
    exact_mod_cast Iff.rfl
  rw [IsPrintedWhole, Double.isWhole_iff]
  constructor
  · rintro ⟨⟨finite, n, value⟩, small⟩
    rw [value, bound] at small
    exact ⟨finite, n, value, small⟩
  · rintro ⟨finite, n, value, small⟩
    rw [value, bound]
    exact ⟨⟨finite, n, rfl⟩, small⟩

/-- What is written as a numeral of an integer has its value. -/
lemma exists_plain_of_isPrintedWhole {v : Number} (printed : v.IsPrintedWhole) :
    ∃ (x : Decimal) (k : ℤ), v.text = .ok (String.ofList x.chars) ∧ x.IsPlain ∧ x.value = k ∧
      v.value? = some (k : ℚ) := by
  cases v with
  | whole n =>
    obtain ⟨x, chars, plain, value⟩ := exists_decimal_toString n
    refine ⟨x, n, ?_, plain, value, rfl⟩
    rw [text, wholeText_of_isShort printed, ← chars, String.ofList_toList]
  | double d =>
    obtain ⟨finite, printed⟩ := isPrintedWhole_double_iff.mp printed
    obtain ⟨x, chars, -, whole, -⟩ := Double.exists_decimal_literal finite
    obtain ⟨plain, value⟩ := whole printed
    obtain ⟨k, integer, -⟩ := printed
    refine ⟨x, k, ?_, plain, value.trans integer, value?_double_eq_some_iff.mpr ⟨finite, integer⟩⟩
    rw [text, ← chars, String.ofList_toList]

/-- A number without a value is a double that is not finite. -/
lemma exists_of_value?_eq_none {n : Number} (special : n.value? = none) :
    ∃ d, n = double d ∧ ¬ d.isFinite = true := by
  cases n with
  | whole n => cases special
  | double d =>
    refine ⟨d, rfl, fun finite => ?_⟩
    rw [value?, if_pos finite] at special
    cases special

/-- Other numbers that are not infinite and not NaN are written with a point or an exponent, if they
have a text. -/
lemma point_or_letter_mem_text {v : Number} {text : String} (finite : v.value? ≠ none)
    (other : ¬ v.IsPrintedWhole) (shown : v.text = .ok text) :
    '.' ∈ text.toList ∨ 'e' ∈ text.toList := by
  cases v with
  | whole n => exact absurd (wholeText_eq_ok_iff.mp shown).1 other
  | double d =>
    obtain rfl := Except.ok.inj shown
    have fin : d.isFinite = true := by
      by_contra special
      exact finite (if_neg special)
    rw [Double.literal_of_not_isPrintedWhole fin
      fun h => other (isPrintedWhole_double_iff.mpr ⟨fin, h⟩)]
    exact Double.point_or_letter_mem_text fin

/-- What is not has a character that is in no numeral of an integer. -/
lemma exists_mem_text_of_not_isPrintedWhole {v : Number} {text : String}
    (other : ¬ v.IsPrintedWhole) (shown : v.text = .ok text) :
    ∃ c ∈ text.toList, c ≠ '-' ∧ c.isDigit = false := by
  by_cases finite : v.value? = none
  · obtain ⟨d, rfl, special⟩ := exists_of_value?_eq_none finite
    obtain rfl := Except.ok.inj shown
    rw [Double.literal]
    split
    case isTrue => exact ⟨'/', by decide, by decide, rfl⟩
    case isFalse number =>
      rw [if_pos (Double.isInfinite_of_not_isFinite special (Bool.eq_false_of_not_eq_true number))]
      split
      · exact ⟨'e', by decide, by decide, rfl⟩
      · exact ⟨'e', by decide, by decide, rfl⟩
  · rcases point_or_letter_mem_text finite other shown with point | letter
    · exact ⟨'.', point, by decide, rfl⟩
    · exact ⟨'e', letter, by decide, rfl⟩

/-- The text of a number is a numeral of an integer exactly if it is written so. -/
lemma exists_plain_iff {v : Number} :
    (∃ x : Decimal, x.IsPlain ∧ v.text = .ok (String.ofList x.chars)) ↔ v.IsPrintedWhole := by
  constructor
  · rintro ⟨x, plain, shown⟩
    by_contra other
    obtain ⟨c, mem, sign, digit⟩ := exists_mem_text_of_not_isPrintedWhole other shown
    rw [String.toList_ofList] at mem
    rcases plain.isDigit_of_mem mem with minus | digit'
    · exact sign minus
    · rw [digit] at digit'
      cases digit'
  · intro printed
    obtain ⟨x, -, shown, plain, -⟩ := exists_plain_of_isPrintedWhole printed
    exact ⟨x, plain, shown⟩

end Number

/-- The characters of a numeral are bytes. -/
lemma Decimal.IsPlain.isText {x : Decimal} (plain : x.IsPlain) :
    Latin1.IsText (String.ofList x.chars) := by
  refine .ofList (.of_numeric fun c mem => ?_)
  rcases plain.isDigit_of_mem mem with rfl | digit
  · decide
  · rw [isNumeric, digit, Bool.true_or]

namespace Constant

variable {v : Number}

/-- The literal of a number is that of a plain numeral if its text is. -/
lemma literal_eq_iff {x : Decimal} (plain : x.IsPlain) :
    (number v).literal = .ok (Latin1.bytes (String.ofList x.chars)) ↔
      v.text = .ok (String.ofList x.chars) := by
  rw [literal_number_eq_ok_iff]
  constructor
  · rintro ⟨text, shown, same⟩
    rw [shown, Latin1.bytes_inj plain.isText (Number.isText_text shown) same]
  · intro shown
    exact ⟨_, shown, rfl⟩

/-- Only a whole number with too many digits has no literal. -/
lemma literal_eq_error_iff {fault : Overlong} :
    (number v).literal = .error fault ↔ ∃ n, v = .whole n ∧ ¬ LuaChunk.IsShort n ∧ fault = ⟨n⟩ := by
  constructor
  · intro refused
    have long : ¬ (number v).IsShort := by
      rw [← exists_literal_iff, refused]
      rintro ⟨_, impossible⟩
      cases impossible
    obtain ⟨n, e, long⟩ := exists_of_not_isShort long
    obtain rfl := Constant.number.inj e
    rw [literal_of_not_isShort long] at refused
    exact ⟨n, rfl, long, (Except.error.inj refused).symm⟩
  · rintro ⟨n, rfl, long, rfl⟩
    exact literal_of_not_isShort long

/-- A number whose exact value is an integer stands for the nearest one of 32 bits. -/
lemma toInt32_of_value? {k : ℤ} (value : v.value? = some (k : ℚ)) :
    (number v).toInt32 = .ok (max (-2 ^ 31) (min (2 ^ 31 - 1) k)) := by
  rw [toInt32, Number.toInt32?_of_value? value]

/-- A number that is not whole stands for no integer, which is reported as such. -/
lemma exists_diagnostic_of_not_isWhole (other : v.isWhole = false) :
    ∃ fault d, (number v).toInt32 = .error fault ∧ fault.diagnostic = .ok d ∧
      d.category = .notIntegral := by
  cases v with
  | whole n => cases other
  | double d =>
    have none : (Number.double d).toInt32? = none := by
      rw [Number.toInt32?, other]
      rfl
    refine ⟨.notWhole (number (.double d)), _, ?_, rfl, rfl⟩
    rw [toInt32, none]

/-- Whether a number is whole, the 32-bit integer that it stands for and the form of its literal
agree with its exact value.  It has a literal unless it is a whole number with too many digits. -/
theorem toInt32_literal (v : Number) :
    ((number v).isWhole = true ↔ ∃ k : ℤ, v.value? = some (k : ℚ)) ∧
    ((number v).isWhole = false ↔ ∃ fault d, (number v).toInt32 = .error fault ∧
      fault.diagnostic = .ok d ∧ d.category = .notIntegral) ∧
    (∀ k : ℤ, v.value? = some (k : ℚ) →
      (number v).toInt32 = .ok (max (-2 ^ 31) (min (2 ^ 31 - 1) k))) ∧
    (∀ fault, (number v).literal = .error fault ↔
      ∃ n, v = .whole n ∧ ¬ LuaChunk.IsShort n ∧ fault = ⟨n⟩ ∧ fault.name = "ValueError") ∧
    ((∃ x : Decimal, x.IsPlain ∧ (number v).literal = .ok (Latin1.bytes (String.ofList x.chars))) ↔
      v.IsPrintedWhole) ∧
    (∀ x : Decimal, x.IsPlain → (number v).literal = .ok (Latin1.bytes (String.ofList x.chars)) →
      ∃ k : ℤ, x.value = k ∧ (number v).toInt32 = .ok (max (-2 ^ 31) (min (2 ^ 31 - 1) k))) ∧
    (v.value? ≠ none → ¬ v.IsPrintedWhole → ∀ literal, (number v).literal = .ok literal →
      0x2E ∈ literal ∨ 0x65 ∈ literal) ∧
    (v.value? = none → (number v).isWhole = false) := by
  refine ⟨Number.isWhole_iff, ⟨exists_diagnostic_of_not_isWhole, ?_⟩, fun k => toInt32_of_value?,
    fun fault => ?_, ?_, ?_, ?_, ?_⟩
  · rintro ⟨fault, _, failed, -⟩
    rw [Bool.eq_false_iff]
    intro whole
    obtain ⟨k, value⟩ := Number.isWhole_iff.mp whole
    rw [toInt32_of_value? value] at failed
    cases failed
  · have named : (fault.name = "ValueError") = True := eq_true rfl
    simp only [named, and_true]
    exact literal_eq_error_iff
  · rw [← Number.exists_plain_iff]
    exact exists_congr fun x => and_congr_right literal_eq_iff
  · intro x plain literal
    have shown := (literal_eq_iff plain).mp literal
    obtain ⟨y, k, shown', -, value, exactly⟩ :=
      Number.exists_plain_of_isPrintedWhole (Number.exists_plain_iff.mp ⟨x, plain, shown⟩)
    have chars := String.ofList_injective (Except.ok.inj (shown.symm.trans shown'))
    rw [Decimal.chars_injective chars]
    exact ⟨k, value, toInt32_of_value? exactly⟩
  · intro finite other literal has
    obtain ⟨text, shown, rfl⟩ := literal_number_eq_ok_iff.mp has
    have mem := Number.point_or_letter_mem_text finite other shown
    have byte {c : Char} := List.mem_map_of_mem (f := Char.toUInt8) (a := c) (l := text.toList)
    exact mem.imp byte byte
  · intro special
    rw [Bool.eq_false_iff]
    intro whole
    obtain ⟨k, value⟩ := Number.isWhole_iff.mp whole
    rw [special] at value
    cases value

/-- Not every whole number is written as the numeral of an integer. -/
theorem not_forall_plain_literal :
    ¬ ∀ n : ℤ, ∃ x : Decimal, x.IsPlain ∧
      (number (.whole n)).literal = .ok (Latin1.bytes (String.ofList x.chars)) := by
  intro always
  obtain ⟨x, -, written⟩ := always (10 ^ digitLimit)
  rw [literal_of_not_isShort not_isShort_ten_pow] at written
  cases written

end Constant

end LuaChunk
