import Mathlib
import LuaChunk.Constant

/-!
# Numbers that have a text

A whole number has a text if it is smaller than a power of ten (`isShort_iff`).  A few bytes spell
no larger one, so everything that is read from a chunk has a text (`isShort_of_lt_two_pow`).  A
constant lacks a literal only if it is a whole number with too many digits
(`Constant.exists_literal_iff`).
-/

namespace LuaChunk

variable {n : Int}

/-- The numbers with few digits are those below a power of ten. -/
lemma isShort_iff : IsShort n ↔ n.natAbs < 10 ^ digitLimit :=
  Nat.length_toDigits_le_iff (by decide) (by decide)

/-- A power of two whose exponent is no more than the number of digits allowed bounds short
numbers. -/
lemma isShort_of_lt_two_pow {k : Nat} (lt : n.natAbs < 2 ^ k) (few : k ≤ digitLimit) :
    IsShort n := by
  apply isShort_iff.mpr
  calc n.natAbs < 2 ^ k := lt
    _ ≤ 10 ^ k := Nat.pow_le_pow_left (by decide) k
    _ ≤ 10 ^ digitLimit := Nat.pow_le_pow_right (by decide) few

/-- The power of ten with as many zeros as digits are allowed has one digit too many. -/
lemma not_isShort_ten_pow : ¬ IsShort (10 ^ digitLimit) := by
  have ten : (10 : Int).natAbs = 10 := rfl
  rw [isShort_iff, Int.natAbs_pow, ten]
  exact Nat.lt_irrefl _

/-- A number with few digits has its numeral as a text. -/
lemma wholeText_of_isShort (short : IsShort n) : wholeText n = .ok (toString n) :=
  if_pos short

/-- A number with too many digits has no text. -/
lemma wholeText_of_not_isShort (long : ¬ IsShort n) : wholeText n = .error ⟨n⟩ :=
  if_neg long

/-- The text of a number is its numeral. -/
lemma wholeText_eq_ok_iff {text : String} :
    wholeText n = .ok text ↔ IsShort n ∧ text = toString n := by
  by_cases short : IsShort n
  · rw [wholeText_of_isShort short, Except.ok.injEq, eq_comm]
    exact (and_iff_right short).symm
  · rw [wholeText_of_not_isShort short]
    exact iff_of_false nofun fun both => short both.1

namespace Value

/-- The value is not an integer with too many digits. -/
def IsShort : Value → Prop
  | integer n => LuaChunk.IsShort n
  | _ => True

instance : DecidablePred IsShort
  | absent => .isTrue trivial
  | boolean _ => .isTrue trivial
  | integer n => inferInstanceAs (Decidable (LuaChunk.IsShort n))
  | float _ => .isTrue trivial
  | text _ => .isTrue trivial
  | bytes _ => .isTrue trivial

/-- A value can be shown unless it is an integer with too many digits. -/
lemma exists_display_iff {v : Value} : (∃ shown, v.display = .ok shown) ↔ v.IsShort := by
  cases v with
  | integer n =>
    constructor
    · rintro ⟨_, shown⟩
      exact (wholeText_eq_ok_iff.mp shown).1
    · intro short
      exact ⟨_, wholeText_of_isShort short⟩
  | _ => exact iff_of_true ⟨_, rfl⟩ trivial

/-- Where a value cannot be shown, this is what is reported. -/
lemma exists_display_eq_error {v : Value} (long : ¬ v.IsShort) :
    ∃ fault, v.display = .error fault := by
  cases shown : v.display with
  | ok text => exact absurd (exists_display_iff.mp ⟨text, shown⟩) long
  | error fault => exact ⟨fault, rfl⟩

end Value

namespace Constant

/-- The constant is not a whole number with too many digits. -/
def IsShort : Constant → Prop
  | number (.whole n) => LuaChunk.IsShort n
  | _ => True

instance : DecidablePred IsShort
  | nil => .isTrue trivial
  | boolean _ => .isTrue trivial
  | number (.whole n) => inferInstanceAs (Decidable (LuaChunk.IsShort n))
  | number (.double _) => .isTrue trivial
  | string _ => .isTrue trivial

/-- The literal of a number is its text. -/
lemma literal_number_eq_ok_iff {v : Number} {bytes : Bytes} :
    (number v).literal = .ok bytes ↔ ∃ text, v.text = .ok text ∧ bytes = Latin1.bytes text := by
  rw [literal]
  cases v.text with
  | ok text =>
    constructor
    · rintro ⟨⟩
      exact ⟨text, rfl, rfl⟩
    · rintro ⟨_, ⟨⟩, rfl⟩
      rfl
  | error fault =>
    constructor
    · rintro ⟨⟩
    · rintro ⟨_, ⟨⟩, _⟩

/-- A constant has a literal unless it is a whole number with too many digits. -/
lemma exists_literal_iff {c : Constant} : (∃ literal, c.literal = .ok literal) ↔ c.IsShort := by
  cases c with
  | nil => exact iff_of_true ⟨_, rfl⟩ trivial
  | boolean => exact iff_of_true ⟨_, rfl⟩ trivial
  | string => exact iff_of_true ⟨_, rfl⟩ trivial
  | number v =>
    cases v with
    | double d => exact iff_of_true ⟨_, rfl⟩ trivial
    | whole n =>
      by_cases short : LuaChunk.IsShort n
      · refine iff_of_true ⟨Latin1.bytes (toString n), ?_⟩ short
        rw [literal, Number.text, wholeText_of_isShort short]
        rfl
      · refine iff_of_false ?_ short
        rw [literal, Number.text, wholeText_of_not_isShort short]
        rintro ⟨_, impossible⟩
        cases impossible

/-- A whole number with too many digits has no literal. -/
lemma literal_of_not_isShort (long : ¬ LuaChunk.IsShort n) :
    (number (.whole n)).literal = .error ⟨n⟩ := by
  rw [literal, Number.text, wholeText_of_not_isShort long]
  rfl

/-- No other constant is without a literal. -/
lemma exists_of_not_isShort {c : Constant} (long : ¬ c.IsShort) :
    ∃ n, c = number (.whole n) ∧ ¬ LuaChunk.IsShort n := by
  cases c with
  | number v =>
    cases v with
    | whole n => exact ⟨n, rfl, long⟩
    | double d => exact absurd trivial long
  | _ => exact absurd trivial long

end Constant

end LuaChunk
