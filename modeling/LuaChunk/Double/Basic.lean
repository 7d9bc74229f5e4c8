/-!
# Double-precision numbers

A double is its 64-bit pattern.  Every finite double is a whole number of units of 2⁻¹⁰⁷⁴, the
smallest positive double, so its absolute value is kept as the natural number `Double.magnitude` of
such units and all questions about its value are questions about naturals.  `Double.ofMagnitude`
builds the double of a given sign and magnitude back.

`Double.nearestMagnitude` rounds an exact quotient of units to the nearest double, and a half to the
one with the even significand.  A result of `Double.limit` or more is past the finite doubles.
-/

namespace LuaChunk

/-- The whole number nearest to a quotient, of two equally near ones the even one. -/
def roundHalfEven (num den : Nat) : Nat :=
  let low := num / den
  let rest := num % den
  if 2 * rest < den then low
  else if den < 2 * rest then low + 1
  else if low % 2 = 0 then low
  else low + 1

/-- A double-precision number, given by its bits. -/
structure Double where
  bits : UInt64
deriving DecidableEq, Repr, Inhabited

namespace Double

/-- The number of units of 2⁻¹⁰⁷⁴ that make the number one. -/
def one : Nat := Nat.pow 2 1074

/-- The first magnitude past the finite doubles, the number 2¹⁰²⁴ in units. -/
def limit : Nat := Nat.pow 2 2098

/-- The weight of the sign bit, 2⁶³. -/
def signWeight : Nat := 0x8000000000000000

/-- The weight of the lowest exponent bit, 2⁵², which is also the leading bit that the fraction
leaves out. -/
def exponentWeight : Nat := 0x10000000000000

/-- The exponent field of the infinities and of what is not a number. -/
def specialExponent : Nat := 0x7FF

/-- The pattern read as a number. -/
def word (d : Double) : Nat := d.bits.toNat

/-- Whether the sign bit is set. -/
def isNegative (d : Double) : Bool := signWeight ≤ d.word

/-- The eleven bits of the exponent field. -/
def exponentField (d : Double) : Nat := d.word / exponentWeight % 0x800

/-- The fifty-two bits of the fraction field. -/
def fraction (d : Double) : Nat := d.word % exponentWeight

/-- Whether the number is neither infinite nor NaN. -/
def isFinite (d : Double) : Bool := d.exponentField != specialExponent

/-- Whether the pattern is not a number. -/
def isNaN (d : Double) : Bool := d.exponentField == specialExponent && d.fraction != 0

/-- Whether the number is one of the two infinities. -/
def isInfinite (d : Double) : Bool := d.exponentField == specialExponent && d.fraction == 0

/-- The absolute value of a finite double in units of 2⁻¹⁰⁷⁴. -/
def magnitude (d : Double) : Nat :=
  if d.exponentField = 0 then d.fraction
  else (exponentWeight + d.fraction) * Nat.pow 2 (d.exponentField - 1)

/-- The value of a finite double in units of 2⁻¹⁰⁷⁴. -/
def scaled (d : Double) : Int :=
  if d.isNegative then -(d.magnitude : Int) else d.magnitude

/-- Whether the number is finite and whole. -/
def isWhole (d : Double) : Bool :=
  d.isFinite && d.magnitude % one == 0

/-- A finite double with its fractional part cut off. -/
def truncate (d : Double) : Int :=
  if d.isNegative then -((d.magnitude / one : Nat) : Int) else (d.magnitude / one : Nat)

/-- How many doublings separate the spacing of the doubles at a magnitude from one unit. -/
def spacing (magnitude : Nat) : Nat := magnitude.log2 - 52

/-- The double with the given sign and the other bits. -/
def ofBits (negative : Bool) (others : Nat) : Double :=
  ⟨UInt64.ofNat (if negative then signWeight + others else others)⟩

/-- The double with the given sign and magnitude; the magnitude is one that a finite double has. -/
def ofMagnitude (negative : Bool) (magnitude : Nat) : Double :=
  ofBits negative
    (spacing magnitude * exponentWeight + magnitude / Nat.pow 2 (spacing magnitude))

/-- The number of units of 2⁻¹⁰⁷⁴ in the smallest positive single-precision number, 2⁻¹⁴⁹. -/
def singleUnit : Nat := Nat.pow 2 925

/-- The leading bit of the fraction of a single-precision pattern, which is set in a quiet NaN. -/
def singleQuietBit : Nat := 0x400000

/-- The fraction of a single-precision pattern that is not finite, where a NaN becomes a quiet
one. -/
def quietFraction (fraction : Nat) : Nat :=
  if fraction = 0 ∨ singleQuietBit ≤ fraction then fraction else singleQuietBit + fraction

/-- The double of the same value as a single-precision pattern.  A NaN keeps its sign and the bits
of its fraction behind the leading one, and is a quiet one. -/
def ofSingle (pattern : UInt32) : Double :=
  let word := pattern.toNat
  let negative : Bool := 0x80000000 ≤ word
  let exponentField := word / 0x800000 % 0x100
  let fraction := word % 0x800000
  if exponentField = 0xFF then
    ofBits negative (specialExponent * exponentWeight + quietFraction fraction * 0x20000000)
  else if exponentField = 0 then ofMagnitude negative (fraction * singleUnit)
  else
    ofMagnitude negative ((0x800000 + fraction) * Nat.pow 2 (exponentField - 1) * singleUnit)

/-- The magnitude of the double nearest to a quotient of units. -/
def nearestMagnitude (num den : Nat) : Nat :=
  let step := Nat.pow 2 (spacing (num / den))
  roundHalfEven num (den * step) * step

/-- The double nearest to a whole number, unless it rounds past the finite ones. -/
def ofInt? (n : Int) : Option Double :=
  let magnitude := nearestMagnitude (n.natAbs * one) 1
  if magnitude < limit then some (ofMagnitude (n < 0) magnitude) else none

end Double

end LuaChunk
