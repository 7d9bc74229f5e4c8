import LuaChunk.Double.Basic

/-!
# The shortest decimal of a double

A magnitude of `m` units of 2⁻¹⁰⁷⁴ is exactly `m * 5¹⁰⁷⁴` units of 10⁻¹⁰⁷⁴, so the decimals near it
are naturals too.  The decimals of a given number of digits are the multiples of one power of ten;
`Double.shortest` tries these grids from the coarsest on and takes the first point that rounds back
to the magnitude.  The search is written for any test of the decimals.
-/

namespace LuaChunk.Double

/-- The number of units of 10⁻¹⁰⁷⁴ in one unit of 2⁻¹⁰⁷⁴. -/
def decimalUnit : Nat := Nat.pow 5 1074

/-- Whether a decimal, in units of 10⁻¹⁰⁷⁴, rounds to the given magnitude. -/
def readsBack (magnitude decimal : Nat) : Bool :=
  nearestMagnitude decimal decimalUnit == magnitude

/-- The multiple of `step` that passes a test and is nearest to a number, of two equally near ones
the even one, counted in steps.  Only the two neighbours of the number need to be tried. -/
def onGrid? (passes : Nat → Bool) (exact step : Nat) : Option Nat :=
  let low := exact / step
  match passes (low * step), passes ((low + 1) * step) with
  | true, true => some (roundHalfEven exact step)
  | true, false => some low
  | false, true => some (low + 1)
  | false, false => none

/-- The first grid, from steps of ten to the power `exponent` down, that has a point which passes a
test, with that point; with steps of one the number itself is a point. -/
def firstFrom (passes : Nat → Bool) (exact : Nat) : Nat → Nat × Nat
  | 0 => (exact, 0)
  | exponent + 1 =>
    match onGrid? passes exact (Nat.pow 10 (exponent + 1)) with
    | some point => (point, exponent + 1)
    | none => firstFrom passes exact exponent

/-- The shortest decimal that reads back as a magnitude: a number and the power of ten, in units of
10⁻¹⁰⁷⁴, that it counts. -/
def shortest (magnitude : Nat) : Nat × Nat :=
  let exact := magnitude * decimalUnit
  firstFrom (readsBack magnitude) exact ((Nat.toDigits 10 exact).length - 1)

end LuaChunk.Double
