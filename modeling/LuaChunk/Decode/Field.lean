import LuaChunk.Decode.Cursor
import LuaChunk.Latin1
import LuaChunk.Proto

/-!
# The fields of a chunk

The header comes first; it fixes how every later field is read: whole numbers, sizes, strings,
names, numbers and constants.
-/

namespace LuaChunk

/-- The header of a chunk, from its first byte on. -/
def readHeader : ReadM Header := do
  let start ← readBytes signature.length
  require (start == signature) .noSignature 0
  let version ← readByte
  require (version == versionByte) (.unsupportedVersion version) 4
  let format ← readByte
  let endianness ← readByte
  let intSize ← readByte
  let sizeSize ← readByte
  let instructionSize ← readByte
  let numberSize ← readByte
  let integral ← readByte
  let header : Header :=
    ⟨format, endianness, intSize, sizeSize, instructionSize, numberSize, integral⟩
  require header.hasNumberSize (.unsupportedNumberSize numberSize) 10
  return header

/-- The tags of the four kinds of constants. -/
def Kind.tag : Kind → UInt8
  | nil => 0
  | boolean => 1
  | number => 3
  | string => 4

/-- The kind with the given tag. -/
def Kind.ofTag? (tag : UInt8) : Option Kind :=
  [nil, boolean, number, string].find? fun kind => kind.tag == tag

/-- The tag of a kind is read as this kind. -/
theorem Kind.ofTag?_tag (kind : Kind) : Kind.ofTag? kind.tag = some kind := by
  cases kind <;> rfl

namespace Header

/-- Logs what a header says. -/
def logSummary (h : Header) : ReadM Unit :=
  modify fun c => { c with log := c.log ++ h.entries }

/-- A whole number without a sign, of the given width. -/
def readUnsigned (h : Header) (width : Nat) : ReadM Nat := do
  return h.byteOrder.unsigned (← readBytes width)

/-- A size. -/
def readSize (h : Header) : ReadM Nat :=
  h.readUnsigned h.sizeSize.toNat

/-- An integer with a sign. -/
def readInt (h : Header) : ReadM Int := do
  return h.byteOrder.signed (← readBytes h.intSize.toNat)

/-- A string with the size of its bytes and their terminator before it, or nothing if the size is
zero.  Whatever byte comes last is taken for the terminator. -/
def readString? (h : Header) : ReadM (Option Bytes) := do
  let size ← h.readSize
  if size = 0 then return none
  return some (← readBytes size).dropLast

/-- A name; nothing counts as the empty name. -/
def readName (h : Header) : ReadM String := do
  match ← h.readString? with
  | none => return ""
  | some bytes => return Latin1.decode bytes

/-- The number that bytes store. -/
def number (h : Header) (bytes : Bytes) : Number :=
  match h.numberFormat with
  | .integer => .whole (h.byteOrder.signed bytes)
  | .double => .double ⟨UInt64.ofNat (h.byteOrder.unsigned bytes)⟩
  | .single => .double (Double.ofSingle (UInt32.ofNat (h.byteOrder.unsigned bytes)))

/-- A number. -/
def readNumber (h : Header) : ReadM Number := do
  return h.number (← readBytes h.numberSize.toNat)

/-- A constant of the given kind, after its tag. -/
def readPayload (h : Header) : Kind → ReadM PoolEntry
  | .nil => pure .nil
  | .boolean => do return .boolean (if (← readByte) = 0 then 0 else 1)
  | .number => do return .number (← h.readNumber)
  | .string => do return .string ((← h.readString?).getD [])

/-- A constant, or a failure at the position of its tag. -/
def readConstant (h : Header) : ReadM PoolEntry := do
  let offset := (← get).position
  let tag ← readByte
  match Kind.ofTag? tag with
  | some kind => h.readPayload kind
  | none => failAt (.illegalTag tag) offset

/-- A local variable. -/
def readLocal (h : Header) : ReadM LocalVariable := do
  let name ← h.readName
  let first ← h.readInt
  let last ← h.readInt
  return ⟨name, first, last⟩

/-- A list with its length before it; a length below zero counts as none. -/
def readList {α : Type} (h : Header) (step : ReadM α) : ReadM (List α) := do
  let count ← h.readInt
  readTimes step count.toNat

end Header

end LuaChunk
