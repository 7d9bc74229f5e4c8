import LuaChunk.Double.Shortest

/-!
# Decimal notation

The text of a double is built from the digits of its shortest decimal and the place of its decimal
point.  Where positional notation ends and how an exponent is written is the record
`Double.Layout`.
-/

namespace LuaChunk.Double

/-- The choices that the notation of a decimal leaves open. -/
structure Layout where
  /-- The lowest place of the point, counted from the first digit, that is written positionally. -/
  lowestPoint : Int
  /-- The highest place of the point that is written positionally. -/
  highestPoint : Int
  /-- The least number of digits in an exponent. -/
  exponentDigits : Nat
deriving DecidableEq, Repr

/-- Decimals between 10⁻⁴ and 10¹⁶ are written positionally and an exponent has two digits. -/
def layout : Layout := ⟨-3, 16, 2⟩

/-- The digits without the zeros at their end. -/
def trimZeros (digits : List Char) : List Char :=
  (digits.reverse.dropWhile (· == '0')).reverse

/-- An exponent with its sign, filled with zeros to the least number of digits. -/
def exponentText (width : Nat) (exponent : Int) : List Char :=
  let digits := Nat.toDigits 10 exponent.natAbs
  (if exponent < 0 then '-' else '+') :: (List.replicate (width - digits.length) '0' ++ digits)

/-- The notation of digits with the point after the first `point` of them. -/
def Layout.write (layout : Layout) (digits : List Char) (point : Int) : List Char :=
  if point < layout.lowestPoint ∨ layout.highestPoint < point then
    let fraction := digits.drop 1
    digits.take 1 ++ (if fraction.isEmpty then [] else '.' :: fraction) ++
      'e' :: exponentText layout.exponentDigits (point - 1)
  else if point ≤ 0 then
    '0' :: '.' :: (List.replicate point.natAbs '0' ++ digits)
  else if digits.length ≤ point.natAbs then
    digits ++ List.replicate (point.natAbs - digits.length) '0' ++ ['.', '0']
  else
    digits.take point.natAbs ++ '.' :: digits.drop point.natAbs

/-- The notation of a decimal: a number and the power of ten, in units of 10⁻¹⁰⁷⁴, that it
counts. -/
def decimalText (decimal : Nat × Nat) : List Char :=
  let digits := Nat.toDigits 10 decimal.1
  layout.write (trimZeros digits) ((digits.length : Int) + decimal.2 - 1074)

/-- The notation of a positive magnitude. -/
def magnitudeText (magnitude : Nat) : List Char :=
  decimalText (shortest magnitude)

/-- The text of a double: the shortest decimal that reads back, always with a point or an
exponent. -/
def text (d : Double) : String :=
  if d.isNaN then "nan"
  else
    let sign := if d.isNegative then ['-'] else []
    if d.isInfinite then String.ofList (sign ++ ['i', 'n', 'f'])
    else if d.magnitude = 0 then String.ofList (sign ++ ['0', '.', '0'])
    else String.ofList (sign ++ magnitudeText d.magnitude)

end LuaChunk.Double
