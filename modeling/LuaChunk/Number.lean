import LuaChunk.Double.Notation

/-!
# Numbers

A number is a whole number of any size or a double.  Its text shows a double whose value is whole
and below 2⁶³ as that whole number, and spells infinity and NaN as expressions.  A whole number with
more than `digitLimit` digits has no text: where it would be put into a text, its digits are refused
and nothing else is done (`Overlong`).
-/

namespace LuaChunk

/-- The most decimal digits that a whole number can have in a text. -/
def digitLimit : Nat := 4300

/-- The whole number has no more digits than can stand in a text. -/
def IsShort (n : Int) : Prop :=
  (Nat.toDigits 10 n.natAbs).length ≤ digitLimit

instance : DecidablePred IsShort :=
  fun n => inferInstanceAs (Decidable ((Nat.toDigits 10 n.natAbs).length ≤ digitLimit))

/-- A whole number has too many digits to stand in a text. -/
structure Overlong where
  n : Int
deriving DecidableEq, Repr

/-- The name under which it is reported that a number has too many digits. -/
def Overlong.name (_ : Overlong) : String := "ValueError"

/-- The digits of a whole number behind its sign, unless they are too many. -/
def wholeText (n : Int) : Except Overlong String :=
  if IsShort n then .ok (toString n) else .error ⟨n⟩

/-- A numeric constant. -/
inductive Number
  | whole (n : Int)
  | double (d : Double)
deriving DecidableEq, Repr

/-- Why a number has no whole part. -/
inductive WholeFault
  | notANumber
  | infinite
deriving DecidableEq, Repr

/-- The name under which a fault is reported. -/
def WholeFault.name : WholeFault → String
  | notANumber => "ValueError"
  | infinite => "OverflowError"

/-- Doubles from 2⁶³ on print with an exponent even when they are whole. -/
def Double.wholeTextLimit : Nat := 0x8000000000000000

/-- The text of a double as a literal.  A double that is shown as a whole number has at most
nineteen digits. -/
def Double.literal (d : Double) : String :=
  if d.isNaN then "0/0"
  else if d.isInfinite then (if d.isNegative then "-1e9999" else "1e9999")
  else if d.isWhole && d.truncate.natAbs < wholeTextLimit then toString d.truncate
  else d.text

/-- The greatest integer of 32 bits. -/
def int32Max : Int := 0x7FFFFFFF

/-- The least integer of 32 bits. -/
def int32Min : Int := -0x80000000

namespace Number

/-- Whether the value is finite and whole. -/
def isWhole : Number → Bool
  | whole _ => true
  | double d => d.isWhole

/-- The value with its fractional part cut off. -/
def truncate : Number → Except WholeFault Int
  | whole n => .ok n
  | double d =>
    if d.isNaN then .error .notANumber
    else if d.isInfinite then .error .infinite
    else .ok d.truncate

/-- The value as a 32-bit integer, a greater one as the greatest and a smaller one as the least, if
it is whole. -/
def toInt32? (n : Number) : Option Int :=
  if n.isWhole then
    match n.truncate with
    | .ok value => some (max int32Min (min int32Max value))
    | .error _ => none
  else none

/-- The text of a number as a literal. -/
def text : Number → Except Overlong String
  | whole n => wholeText n
  | double d => .ok d.literal

end Number

end LuaChunk
