import LuaChunk.Latin1
import LuaChunk.Value

/-!
# Emissions

Writing a chunk produces an `Emission`: the bytes so far and, if something could not be written, why
writing stopped there.  Emissions are joined with `++`, and nothing is added to one that has
stopped.
-/

namespace LuaChunk

/-- Why something cannot be written. -/
inductive WriteFault
  /-- A name has a character outside Latin-1. -/
  | unencodable (name : String)
  /-- A number does not fit a byte. -/
  | byteRange (n : Int)
  /-- A number does not fit a field of the given width. -/
  | fieldRange (width : Nat) (n : Int)
  /-- A whole number rounds past the finite doubles. -/
  | overflow (n : Int)
  /-- A value is not a constant. -/
  | foreign (v : Value)
deriving DecidableEq, Repr

/-- The name under which a fault is reported.  A whole number that does not fit a double counts as
one that does not fit its field, and a value that no message can show is reported as such. -/
def WriteFault.name : WriteFault → String
  | unencodable _ => "UnicodeEncodeError"
  | byteRange _ => "ValueError"
  | fieldRange _ _ => "struct.error"
  | overflow _ => "struct.error"
  | foreign v =>
    match v.display with
    | .ok _ => "TypeError"
    | .error fault => fault.name

/-- The message of a fault that has one. -/
def WriteFault.message? : WriteFault → Option String
  | foreign v => v.display.toOption.map ("cannot dump " ++ ·)
  | _ => none

/-- Written bytes, and what stopped the writing after them. -/
structure Emission where
  bytes : Bytes
  stop : Option WriteFault
deriving DecidableEq, Repr

namespace Emission

/-- Bytes that are written without a fault. -/
def ofBytes (bytes : Bytes) : Emission := ⟨bytes, none⟩

/-- Nothing, because of a fault. -/
def stopped (fault : WriteFault) : Emission := ⟨[], some fault⟩

/-- One emission after another. -/
def append (a b : Emission) : Emission :=
  match a.stop with
  | some fault => ⟨a.bytes, some fault⟩
  | none => ⟨a.bytes ++ b.bytes, b.stop⟩

instance : Append Emission := ⟨append⟩

/-- Emissions in order. -/
def concat : List Emission → Emission
  | [] => ofBytes []
  | e :: rest => e ++ concat rest

/-- The bytes, unless something stopped the writing. -/
def toExcept (e : Emission) : Except WriteFault Bytes :=
  match e.stop with
  | some fault => .error fault
  | none => .ok e.bytes

/-- Writing is associative: what is written does not depend on how the steps are grouped. -/
theorem append_assoc (a b c : Emission) : a ++ b ++ c = a ++ (b ++ c) := by
  simp only [HAppend.hAppend, Append.append, append]
  cases a.stop <;> cases b.stop <;> simp [List.append_assoc]

end Emission

end LuaChunk
