import LuaChunk.Bytes
import LuaChunk.Diagnostic

/-!
# Chunk headers

The header of a chunk names the byte order and the widths of everything after it.  Any widths are
accepted for integers, sizes and instructions; a number that is not an integer has four or eight
bytes.
-/

namespace LuaChunk

/-- The four bytes that every chunk begins with. -/
def signature : Bytes := [0x1B, 0x4C, 0x75, 0x61]

/-- The version of the chunk format, 5.1. -/
def versionByte : UInt8 := 0x51

/-- The fields of a header after its signature and version. -/
structure Header where
  /-- Zero for the official format. -/
  format : UInt8
  /-- Zero if the most significant byte comes first. -/
  endianness : UInt8
  intSize : UInt8
  sizeSize : UInt8
  instructionSize : UInt8
  numberSize : UInt8
  /-- Zero if numbers are in floating point. -/
  integral : UInt8
deriving DecidableEq, Repr

/-- How the numbers of a chunk are stored. -/
inductive NumberFormat
  | integer
  | double
  | single
deriving DecidableEq, Repr

namespace Header

/-- The byte order that a header names. -/
def byteOrder (h : Header) : ByteOrder :=
  if h.endianness = 0 then .big else .little

/-- The storage of numbers that a header names. -/
def numberFormat (h : Header) : NumberFormat :=
  if h.integral ≠ 0 then .integer
  else if h.numberSize = 8 then .double
  else .single

/-- Whether the width of numbers is one that their storage can have. -/
def hasNumberSize (h : Header) : Bool :=
  h.numberSize == 4 || h.numberSize == 8 || h.integral != 0

/-- The widths and flags of a header, as information entries. -/
def summary (h : Header) : List String :=
  ["lfile: Lua bytecode executable, version " ++ toString (versionByte.toNat / 16) ++ "." ++
      toString (versionByte.toNat % 16),
    "   standard             " ++ (if h.format = 0 then "yes" else "no"),
    "   endianness           " ++
      (if h.endianness = 1 then "little" else if h.endianness = 0 then "big" else "INVALID"),
    "   sizeof(int)          " ++ toString h.intSize.toNat,
    "   sizeof(instruction)  " ++ toString h.instructionSize.toNat,
    "   sizeof(size_t)       " ++ toString h.sizeSize.toNat,
    "   sizeof(lua_Number)   " ++ toString h.numberSize.toNat,
    "   typeof(lua_Number)   " ++ (if h.integral = 0 then "float/double" else "integral")]

/-- What is unusual about a header: each condition with its warning. -/
def concerns (h : Header) : List (Bool × String) :=
  [(h.endianness != 0 && h.endianness != 1, "Invalid endianness (should be 0 or 1)"),
    (h.intSize != 4, "Unusual int size (Lua expects 4 bytes)"),
    (h.sizeSize != 4 && h.sizeSize != 8, "Unusual size_t size (4 or 8 bytes expected)"),
    (h.instructionSize != 4, "Instruction size should be 4 bytes for standard Lua"),
    (h.numberSize != 4 && h.numberSize != 8, "Unusual lua_Number size (4 or 8 bytes expected)"),
    (h.integral != 0 && h.integral != 1, "Integral flag must be 0/1")]

/-- The log entries that describe a header. -/
def entries (h : Header) : Log :=
  h.summary.map (LogEntry.mk .info) ++
    (h.concerns.filter (·.1)).map fun concern => ⟨.warning, concern.2⟩

end Header

end LuaChunk
