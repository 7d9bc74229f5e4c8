import LuaChunk.Double.Notation
import LuaChunk.Proofs.Double.Value

/-!
# Decimal numerals

A `Decimal` is a numeral of digits with a sign, a fraction and an exponent, which may all be
missing.  Its characters tell its parts (`Decimal.chars_injective`), so they have one value,
`Decimal.value`.  `Double.Layout.exists_shows` says that the notation of digits and a point is such
a numeral, of the same digits up to zeros at either end.
-/

namespace LuaChunk

/-- Every character is a decimal digit. -/
def AreDigits (cs : List Char) : Prop :=
  ∀ c ∈ cs, c.isDigit = true

namespace AreDigits

variable {cs ds : List Char}

/-- Digits one behind the other are digits. -/
lemma append (front : AreDigits cs) (back : AreDigits ds) : AreDigits (cs ++ ds) :=
  List.forall_mem_append.mpr ⟨front, back⟩

/-- Zeros are digits. -/
lemma zeros (n : Nat) : AreDigits (List.replicate n '0') := by
  intro c mem
  rw [List.eq_of_mem_replicate mem]
  rfl

/-- A part of digits is digits. -/
lemma sublist (h : AreDigits cs) (part : ds.Sublist cs) : AreDigits ds :=
  fun c mem => h c (part.subset mem)

/-- The digits of a number are digits. -/
lemma toDigits (n : Nat) : AreDigits (Nat.toDigits 10 n) :=
  fun _ mem => Nat.isDigit_of_mem_toDigits (by decide) le_rfl mem

/-- Where no digit follows, a run of digits ends. -/
lemma append_inj {r s : List Char} (front : AreDigits cs) (front' : AreDigits ds)
    (back : ∀ c ∈ r.head?, c.isDigit = false) (back' : ∀ c ∈ s.head?, c.isDigit = false)
    (e : cs ++ r = ds ++ s) : cs = ds ∧ r = s := by
  have ends {t : List Char} (h : ∀ c ∈ t.head?, c.isDigit = false) :
      t.takeWhile Char.isDigit = [] := by
    cases t with
    | nil => rfl
    | cons c t => rw [List.takeWhile_cons, h c rfl, if_neg Bool.false_ne_true]
  have runs := congrArg (List.takeWhile Char.isDigit) e
  rw [List.takeWhile_append_of_pos front, List.takeWhile_append_of_pos front', ends back,
    ends back', List.append_nil, List.append_nil] at runs
  rw [runs] at e
  exact ⟨runs, List.append_cancel_left e⟩

end AreDigits

/-- The number that a run of digits spells. -/
def spelled (cs : List Char) : Nat :=
  Nat.ofDigitChars 10 cs 0

/-- Digits in front of others count powers of ten. -/
lemma spelled_append (cs ds : List Char) :
    spelled (cs ++ ds) = spelled cs * 10 ^ ds.length + spelled ds := by
  rw [spelled, Nat.ofDigitChars_append, Nat.ofDigitChars_eq_ofDigitChars_zero, mul_comm]
  rfl

/-- Zeros spell zero. -/
lemma spelled_zeros (n : Nat) : spelled (List.replicate n '0') = 0 := by
  rw [spelled, Nat.ofDigitChars_replicate_zero, mul_zero]

/-- The digits of a number spell the number. -/
lemma spelled_toDigits (n : Nat) : spelled (Nat.toDigits 10 n) = n :=
  Nat.ofDigitChars_ten_toDigits

/-- Zeros in front of digits do not count. -/
lemma spelled_zeros_append (n : Nat) (cs : List Char) :
    spelled (List.replicate n '0' ++ cs) = spelled cs := by
  rw [spelled_append, spelled_zeros, zero_mul, zero_add]

/-- Each zero behind digits counts them ten times. -/
lemma spelled_append_zeros (cs : List Char) (n : Nat) :
    spelled (cs ++ List.replicate n '0') = spelled cs * 10 ^ n := by
  rw [spelled_append, spelled_zeros, List.length_replicate, add_zero]

/-- A run of digits that is not empty. -/
@[ext]
structure Digits where
  chars : List Char
  ne_nil : chars ≠ []
  areDigits : AreDigits chars

/-- A decimal numeral. -/
@[ext]
structure Decimal where
  /-- Whether a minus sign comes first. -/
  negative : Bool
  /-- The digits in front of the point. -/
  whole : Digits
  /-- The digits behind the point. -/
  fraction : Option Digits
  /-- Whether the exponent has a minus sign, and its digits. -/
  exponent : Option (Bool × Digits)

namespace Decimal

/-- The characters of the sign. -/
def signChars (negative : Bool) : List Char :=
  if negative then ['-'] else []

/-- The point with the digits behind it. -/
def pointChars (x : Decimal) : List Char :=
  x.fraction.elim [] fun digits => '.' :: digits.chars

/-- The letter of the exponent with its sign and its digits. -/
def exponentChars (x : Decimal) : List Char :=
  x.exponent.elim [] fun part => 'e' :: (if part.1 then '-' else '+') :: part.2.chars

/-- The characters of a numeral. -/
def chars (x : Decimal) : List Char :=
  signChars x.negative ++ (x.whole.chars ++ (x.pointChars ++ x.exponentChars))

/-- The digits behind the point. -/
def places (x : Decimal) : List Char :=
  x.fraction.elim [] Digits.chars

/-- The digits on both sides of the point. -/
def figures (x : Decimal) : List Char :=
  x.whole.chars ++ x.places

/-- The power of ten that the exponent names. -/
def power (x : Decimal) : ℤ :=
  x.exponent.elim 0 fun part =>
    if part.1 then -(spelled part.2.chars : ℤ) else spelled part.2.chars

/-- The exact value of a numeral. -/
def value (x : Decimal) : ℚ :=
  signed x.negative (spelled x.figures * 10 ^ (x.power - x.places.length))

/-- The number of digits from the first to the last one that is not zero. -/
def precision (x : Decimal) : Nat :=
  ((x.figures.dropWhile (· == '0')).rdropWhile (· == '0')).length

/-- A numeral without a fraction and without an exponent. -/
def IsPlain (x : Decimal) : Prop :=
  x.fraction = none ∧ x.exponent = none

section

variable {x y : Decimal}

/-- An exponent begins with its letter. -/
lemma exponentChars_head (x : Decimal) : ∀ c ∈ x.exponentChars.head?, c = 'e' := by
  unfold exponentChars
  cases x.exponent with
  | none => nofun
  | some part =>
    rintro c ⟨⟩
    rfl

/-- What follows the first digits does not begin with a digit. -/
lemma rest_head (x : Decimal) :
    ∀ c ∈ (x.pointChars ++ x.exponentChars).head?, c.isDigit = false := by
  unfold pointChars
  cases x.fraction with
  | none =>
    intro c mem
    rw [x.exponentChars_head c mem]
    rfl
  | some digits =>
    rintro c ⟨⟩
    rfl

/-- The characters of an exponent determine it. -/
lemma exponent_inj (e : x.exponentChars = y.exponentChars) : x.exponent = y.exponent := by
  unfold exponentChars at e
  cases hx : x.exponent <;> cases hy : y.exponent <;> rw [hx, hy] at e
  case none.some => cases e
  case some.none => cases e
  case some.some p q =>
    obtain ⟨sign, digits⟩ := List.cons.inj (List.cons.inj e).2
    have same : p.1 = q.1 := by
      cases hp : p.1 <;> cases hq : q.1 <;> rw [hp, hq] at sign
      case false.true => cases sign
      case true.false => cases sign
    exact congrArg some (Prod.ext same (Digits.ext digits))

/-- A point is not the letter of an exponent. -/
lemma exponentChars_ne_point (x : Decimal) (cs : List Char) : x.exponentChars ≠ '.' :: cs := by
  intro e
  have letter : '.' = 'e' := x.exponentChars_head '.' (by rw [e]; rfl)
  cases letter

/-- The characters behind the first digits determine the fraction, and where the exponent begins. -/
lemma fraction_inj (e : x.pointChars ++ x.exponentChars = y.pointChars ++ y.exponentChars) :
    x.fraction = y.fraction ∧ x.exponentChars = y.exponentChars := by
  unfold pointChars at e
  cases hx : x.fraction <;> cases hy : y.fraction <;> rw [hx, hy] at e
  case none.none => exact ⟨rfl, e⟩
  case none.some => exact absurd e (x.exponentChars_ne_point _)
  case some.none => exact absurd e.symm (y.exponentChars_ne_point _)
  case some.some ds es =>
    have letter (z : Decimal) : ∀ c ∈ z.exponentChars.head?, c.isDigit = false := by
      intro c mem
      rw [z.exponentChars_head c mem]
      rfl
    obtain ⟨digits, rest⟩ :=
      ds.areDigits.append_inj es.areDigits (letter x) (letter y) (List.cons.inj e).2
    exact ⟨congrArg some (Digits.ext digits), rest⟩

/-- A sign is not a digit. -/
lemma digits_ne_sign (ds : Digits) (r cs : List Char) : ds.chars ++ r ≠ '-' :: cs := by
  intro e
  obtain ⟨c, tail, hc⟩ := List.exists_cons_of_ne_nil ds.ne_nil
  have digit := ds.areDigits c (by rw [hc]; exact List.mem_cons_self)
  rw [hc] at e
  rw [(List.cons.inj e).1] at digit
  cases digit

/-- Characters with digits in front determine the sign. -/
lemma sign_inj {negative negative' : Bool} {ds es : Digits} {r s : List Char}
    (e : signChars negative ++ (ds.chars ++ r) = signChars negative' ++ (es.chars ++ s)) :
    negative = negative' ∧ ds.chars ++ r = es.chars ++ s := by
  cases negative <;> cases negative'
  case false.false => exact ⟨rfl, e⟩
  case false.true => exact absurd e (digits_ne_sign ds _ _)
  case true.false => exact absurd e.symm (digits_ne_sign es _ _)
  case true.true => exact ⟨rfl, (List.cons.inj e).2⟩

/-- Two numerals of the same characters are the same. -/
theorem chars_injective (e : x.chars = y.chars) : x = y := by
  obtain ⟨sign, digits⟩ := sign_inj e
  obtain ⟨whole, rest⟩ :=
    x.whole.areDigits.append_inj y.whole.areDigits x.rest_head y.rest_head digits
  obtain ⟨fraction, letter⟩ := fraction_inj rest
  exact Decimal.ext sign (Digits.ext whole) fraction (exponent_inj letter)

/-- Zeros around digits only move the point. -/
lemma value_eq_of_figures {cs : List Char} {a b : Nat} {scale : ℤ}
    (figures : x.figures = List.replicate a '0' ++ (cs ++ List.replicate b '0'))
    (shift : b + (x.power - x.places.length) = scale) :
    x.value = signed x.negative (spelled cs * 10 ^ scale) := by
  rw [value, figures, spelled_zeros_append, spelled_append_zeros, Nat.cast_mul, Nat.cast_pow,
    mul_assoc, ← zpow_natCast, Nat.cast_ofNat, ← zpow_add₀ (by norm_num), shift]

end

/-- The digits of an exponent spell its absolute value. -/
lemma exists_exponentText (width : Nat) (exponent : Int) :
    ∃ part : Bool × Digits,
      'e' :: Double.exponentText width exponent =
          'e' :: (if part.1 then '-' else '+') :: part.2.chars ∧
        (if part.1 then -(spelled part.2.chars : ℤ) else spelled part.2.chars) = exponent := by
  refine ⟨⟨exponent < 0, List.replicate (width - (Nat.toDigits 10 exponent.natAbs).length) '0' ++
    Nat.toDigits 10 exponent.natAbs, ?_, ?_⟩, ?_, ?_⟩
  · exact List.append_ne_nil_of_right_ne_nil _ Nat.toDigits_ne_nil
  · exact (AreDigits.zeros _).append (.toDigits _)
  · unfold Double.exponentText
    simp only [decide_eq_true_eq]
  · simp only [decide_eq_true_eq, spelled_zeros_append, spelled_toDigits]
    split <;> omega

/-- A numeral with given characters behind its sign shows given digits, up to zeros around them, and
has the value of the digits at a given power of ten. -/
structure Shows (x : Decimal) (negative : Bool) (text digits : List Char) (scale : ℤ) : Prop where
  chars_eq : x.chars = signChars negative ++ text
  figures_eq : ∃ a b, x.figures = List.replicate a '0' ++ (digits ++ List.replicate b '0')
  value_eq : x.value = signed negative (spelled digits * 10 ^ scale)

section

variable {whole places digits : List Char} {a b : Nat} {scale : ℤ}

/-- Digits on both sides of a point are a numeral. -/
lemma exists_shows_of_point (negative : Bool) (nonempty : whole ≠ []) (nonempty' : places ≠ [])
    (areDigits : AreDigits (whole ++ places))
    (figures : whole ++ places = List.replicate a '0' ++ (digits ++ List.replicate b '0'))
    (shift : (b : ℤ) - places.length = scale) :
    ∃ x : Decimal, x.Shows negative (whole ++ '.' :: places) digits scale := by
  obtain ⟨front, back⟩ := List.forall_mem_append.mp areDigits
  refine ⟨⟨negative, ⟨whole, nonempty, front⟩, some ⟨places, nonempty', back⟩, none⟩, ?_,
    ⟨a, b, figures⟩, value_eq_of_figures figures ?_⟩
  · rw [chars, pointChars, exponentChars, Option.elim_some, Option.elim_none, List.append_nil]
  · rw [power, Decimal.places, Option.elim_some, Option.elim_none, zero_sub, ← sub_eq_add_neg]
    exact shift

/-- Digits with a point, unless nothing follows it, and an exponent are a numeral. -/
lemma exists_shows_of_exponent (negative : Bool) (nonempty : whole ≠ [])
    (areDigits : AreDigits (whole ++ places)) (width : Nat) {exponent : ℤ}
    (shift : exponent - places.length = scale) :
    ∃ x : Decimal, x.Shows negative
      (whole ++ (if places.isEmpty then [] else '.' :: places) ++
        'e' :: Double.exponentText width exponent) (whole ++ places) scale := by
  obtain ⟨front, back⟩ := List.forall_mem_append.mp areDigits
  obtain ⟨part, text, number⟩ := exists_exponentText width exponent
  have figures : whole ++ places =
      List.replicate 0 '0' ++ (whole ++ places ++ List.replicate 0 '0') := by simp
  rw [text]
  by_cases blank : places = []
  · subst blank
    refine ⟨⟨negative, ⟨whole, nonempty, front⟩, none, some part⟩, ?_, ⟨0, 0, figures⟩,
      value_eq_of_figures figures ?_⟩
    · rw [List.isEmpty_nil, if_pos rfl, List.append_nil]
      rfl
    · rw [← shift, ← number, Nat.cast_zero, zero_add]
      rfl
  · refine ⟨⟨negative, ⟨whole, nonempty, front⟩, some ⟨places, blank, back⟩, some part⟩, ?_,
      ⟨0, 0, figures⟩, value_eq_of_figures figures ?_⟩
    · rw [List.isEmpty_eq_false_iff.mpr blank, if_neg Bool.false_ne_true, List.append_assoc]
      rfl
    · rw [← shift, ← number, Nat.cast_zero, zero_add]
      rfl

end

end Decimal

/-- The notation of digits and a point is a numeral of these digits. -/
theorem Double.Layout.exists_shows (layout : Layout) (digits : Digits) (point : Int)
    (negative : Bool) :
    ∃ x : Decimal, x.Shows negative (layout.write digits.chars point) digits.chars
      (point - digits.chars.length) := by
  obtain ⟨cs, nonempty, areDigits⟩ := digits
  have pos := List.length_pos_of_ne_nil nonempty
  have parted (n : Nat) : AreDigits (cs.take n ++ cs.drop n) := by
    rw [List.take_append_drop]
    exact areDigits
  dsimp only
  unfold Layout.write
  split
  case isTrue =>
    have first : cs.take 1 ≠ [] := List.ne_nil_of_length_pos (by rw [List.length_take]; omega)
    have shift : point - 1 - ((cs.drop 1).length : ℤ) = point - cs.length := by
      rw [List.length_drop]
      omega
    have shows := Decimal.exists_shows_of_exponent negative first (parted 1)
      layout.exponentDigits shift
    rwa [List.take_append_drop] at shows
  case isFalse =>
    split
    case isTrue small =>
      refine Decimal.exists_shows_of_point (a := point.natAbs + 1) (b := 0) negative
        (List.cons_ne_nil '0' []) (List.append_ne_nil_of_right_ne_nil _ nonempty) ?_ ?_ ?_
      · exact (AreDigits.zeros 1).append ((AreDigits.zeros _).append areDigits)
      · rw [List.replicate_succ, List.replicate_zero, List.append_nil]
        rfl
      · rw [List.length_append, List.length_replicate]
        omega
    case isFalse large =>
      split
      case isTrue short =>
        refine Decimal.exists_shows_of_point (a := 0) (b := point.natAbs - cs.length + 1) negative
          (List.append_ne_nil_of_left_ne_nil nonempty _) (List.cons_ne_nil '0' []) ?_ ?_ ?_
        · exact (areDigits.append (.zeros _)).append (.zeros 1)
        · rw [List.append_assoc, ← List.replicate_succ']
          rfl
        · rw [List.length_singleton]
          omega
      case isFalse long =>
        refine Decimal.exists_shows_of_point (a := 0) (b := 0) negative ?_ ?_ (parted _) ?_ ?_
        · exact List.ne_nil_of_length_pos (by rw [List.length_take]; omega)
        · exact List.ne_nil_of_length_pos (by rw [List.length_drop]; omega)
        · rw [List.take_append_drop, List.replicate_zero, List.append_nil, List.nil_append]
        · rw [List.length_drop]
          omega

end LuaChunk
