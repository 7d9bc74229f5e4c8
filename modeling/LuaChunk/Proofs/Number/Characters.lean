import LuaChunk.Proofs.Number.Digits

/-!
# The characters of numbers

Numerals are made of digits and signs, a decimal has a point or an exponent as well, and what is not
a number is written with a slash.  `Number.areNumeric_text` says that nothing else occurs in the
text of a number.
-/

namespace LuaChunk

/-- The characters that texts of numbers are made of. -/
def isNumeric (c : Char) : Bool :=
  c.isDigit || ['-', '+', '.', 'e', '/'].contains c

/-- The characters of numbers stand in a part of ASCII. -/
lemma bounds_of_isNumeric {c : Char} (numeric : isNumeric c = true) :
    0x2B ≤ c.toNat ∧ c.toNat ≤ 0x65 := by
  rw [isNumeric, Bool.or_eq_true, List.contains_iff_mem] at numeric
  obtain digit | other := numeric
  · rw [Char.isDigit, Bool.and_eq_true, decide_eq_true_eq, decide_eq_true_eq] at digit
    have low : 0x30 ≤ c.toNat := digit.1
    have high : c.toNat ≤ 0x39 := digit.2
    omega
  · have each : ∀ d ∈ ['-', '+', '.', 'e', '/'], 0x2B ≤ d.toNat ∧ d.toNat ≤ 0x65 := by simp
    exact each c other

/-- Every character is one of the texts of numbers. -/
def AreNumeric (cs : List Char) : Prop :=
  ∀ c ∈ cs, isNumeric c = true

instance (cs : List Char) : Decidable (AreNumeric cs) :=
  List.decidableBAll _ cs

namespace AreNumeric

variable {c : Char} {cs ds : List Char}

/-- No characters are numeric. -/
lemma nil : AreNumeric [] :=
  fun _ mem => absurd mem List.not_mem_nil

/-- A numeric character in front of numeric ones makes numeric ones. -/
lemma cons (first : isNumeric c = true) (others : AreNumeric cs) : AreNumeric (c :: cs) :=
  List.forall_mem_cons.mpr ⟨first, others⟩

/-- Numeric characters one behind the other are numeric. -/
lemma append (front : AreNumeric cs) (back : AreNumeric ds) : AreNumeric (cs ++ ds) :=
  List.forall_mem_append.mpr ⟨front, back⟩

/-- A numeric character may be repeated. -/
lemma replicate (h : isNumeric c = true) (n : Nat) : AreNumeric (List.replicate n c) := by
  intro d mem
  rw [List.eq_of_mem_replicate mem]
  exact h

/-- A character that is not numeric is not among numeric ones. -/
lemma not_mem (h : AreNumeric cs) (other : isNumeric c = false) : c ∉ cs := by
  intro mem
  have numeric := h c mem
  rw [other] at numeric
  cases numeric

/-- A part of numeric characters is numeric. -/
lemma sublist (h : AreNumeric cs) (part : ds.Sublist cs) : AreNumeric ds :=
  fun d mem => h d (part.subset mem)

/-- Whichever of two numeric texts is chosen is numeric. -/
lemma ite {holds : Prop} [Decidable holds] (yes : AreNumeric cs) (no : AreNumeric ds) :
    AreNumeric (if holds then cs else ds) := by
  split
  · exact yes
  · exact no

/-- The digits of decimal numerals. -/
lemma toDigits (n : Nat) : AreNumeric (Nat.toDigits 10 n) := by
  intro d mem
  rw [isNumeric, Nat.isDigit_of_mem_toDigits (by decide) le_rfl mem, Bool.true_or]

/-- The digits of a natural number are numeric. -/
lemma toString_nat (n : Nat) : AreNumeric (toString n).toList := by
  rw [Nat.toString_eq_ofList_toDigits, String.toList_ofList]
  exact toDigits n

/-- The digits of an integer and its sign are numeric. -/
lemma toString_int (n : Int) : AreNumeric (toString n).toList := by
  cases n with
  | ofNat n => exact toString_nat n
  | negSucc n =>
    have parts : toString (Int.negSucc n) = "-" ++ toString (n + 1) := rfl
    rw [parts, String.toList_append]
    exact .append (by decide) (toString_nat (n + 1))

end AreNumeric

namespace Double

/-- Digits without the zeros at their end are numeric. -/
lemma areNumeric_trimZeros {digits : List Char} (h : AreNumeric digits) :
    AreNumeric (trimZeros digits) := by
  refine h.sublist ?_
  rw [← List.reverse_sublist, trimZeros, List.reverse_reverse]
  exact List.dropWhile_sublist _

/-- An exponent is numeric. -/
lemma areNumeric_exponentText (width : Nat) (exponent : Int) :
    AreNumeric (exponentText width exponent) := by
  refine .cons ?_ ((AreNumeric.replicate (by decide) _).append (.toDigits _))
  split <;> decide

/-- Digits written with a point or an exponent are numeric. -/
lemma areNumeric_write (layout : Layout) {digits : List Char} (h : AreNumeric digits)
    (point : Int) : AreNumeric (layout.write digits point) := by
  have front (n : Nat) : AreNumeric (digits.take n) := h.sublist (List.take_sublist _ _)
  have back (n : Nat) : AreNumeric (digits.drop n) := h.sublist (List.drop_sublist _ _)
  have zeros (n : Nat) : AreNumeric (List.replicate n '0') := .replicate (by decide) n
  unfold Layout.write
  refine .ite ?_ (.ite ?_ (.ite ?_ ?_))
  · refine ((front 1).append ?_).append (.cons (by decide) (areNumeric_exponentText _ _))
    exact .ite .nil (.cons (by decide) (back 1))
  · exact .cons (by decide) (.cons (by decide) ((zeros _).append h))
  · exact (h.append (zeros _)).append (by decide)
  · exact (front _).append (.cons (by decide) (back _))

/-- The notation of a magnitude is numeric. -/
lemma areNumeric_magnitudeText (magnitude : Nat) : AreNumeric (magnitudeText magnitude) :=
  areNumeric_write layout (areNumeric_trimZeros (.toDigits _)) _

/-- Only infinity and what is not a number have letters in their text. -/
lemma areNumeric_text {d : Double} (number : d.isNaN = false) (finite : d.isInfinite = false) :
    AreNumeric d.text.toList := by
  have sign : AreNumeric (if d.isNegative then ['-'] else []) := .ite (by decide) .nil
  have zero : AreNumeric ['0', '.', '0'] := by decide
  unfold text
  dsimp only
  rw [number, finite, if_neg Bool.false_ne_true, if_neg Bool.false_ne_true]
  split
  · rw [String.toList_ofList]
    exact sign.append zero
  · rw [String.toList_ofList]
    exact sign.append (areNumeric_magnitudeText _)

/-- The literal of a double is made of the characters of numbers. -/
lemma areNumeric_literal (d : Double) : AreNumeric d.literal.toList := by
  rw [literal]
  split
  case isTrue => decide
  case isFalse number =>
    split
    case isTrue => split <;> decide
    case isFalse finite =>
      split
      · exact .toString_int _
      · exact areNumeric_text (Bool.eq_false_of_not_eq_true number)
          (Bool.eq_false_of_not_eq_true finite)

end Double

/-- The text of a number is made of the characters of numbers. -/
theorem Number.areNumeric_text {v : Number} {text : String} (shown : v.text = .ok text) :
    AreNumeric text.toList := by
  cases v with
  | whole n =>
    obtain ⟨-, rfl⟩ := wholeText_eq_ok_iff.mp shown
    exact .toString_int n
  | double d =>
    obtain rfl := Except.ok.inj shown
    exact d.areNumeric_literal

end LuaChunk
