import LuaChunk.Encode.Emission
import LuaChunk.Header
import LuaChunk.Proto

/-!
# Writing a chunk

A chunk is written in little-endian order with integers and instructions of four bytes, sizes and
numbers of eight, and numbers in double precision.  A name without characters is written as a size
of zero; a string constant keeps its terminator even when it is empty.
-/

namespace LuaChunk

/-- The header of the chunks that are written. -/
def standardHeader : Header := ⟨0, 1, 4, 8, 4, 8, 0⟩

/-- The bytes of a header. -/
def Header.bytes (h : Header) : Bytes :=
  signature ++ [versionByte, h.format, h.endianness, h.intSize, h.sizeSize, h.instructionSize,
    h.numberSize, h.integral]

namespace Emission

/-- The standard header. -/
def header : Emission := ofBytes standardHeader.bytes

/-- A number as one byte. -/
def byte (n : Int) : Emission :=
  if 0 ≤ n ∧ n < 256 then ofBytes [lowByte n] else stopped (.byteRange n)

/-- A number that is not negative in a field of the given width. -/
def field (width : Nat) (n : Int) : Emission :=
  if 0 ≤ n ∧ n < Nat.pow 256 width then ofBytes (toLittleEndian width n.toNat)
  else stopped (.fieldRange width n)

/-- An integer or an instruction. -/
def int (n : Int) : Emission := field 4 n

/-- A size. -/
def size (n : Int) : Emission := field 8 n

/-- Bytes with their size before them and their terminator after them. -/
def terminated (data : Bytes) : Emission :=
  size (data.length + 1) ++ ofBytes (data ++ [0])

/-- A string that is written as a size of zero when it is empty. -/
def string (data : Bytes) : Emission :=
  if data.isEmpty then size 0 else terminated data

/-- A name, if it is Latin-1 text. -/
def name (text : String) : Emission :=
  match Latin1.encode? text with
  | some data => string data
  | none => stopped (.unencodable text)

/-- A number as a double. -/
def number : Number → Emission
  | .double d => ofBytes (toLittleEndian 8 d.word)
  | .whole n =>
    match Double.ofInt? n with
    | some d => ofBytes (toLittleEndian 8 d.word)
    | none => stopped (.overflow n)

/-- A constant with its tag before it. -/
def constant : PoolEntry → Emission
  | .nil => byte 0
  | .boolean v => byte 1 ++ byte v
  | .number n => byte 3 ++ number n
  | .string data => byte 4 ++ terminated data
  | .foreign v => stopped (.foreign v)

/-- A local variable. -/
def localVariable (l : LocalVariable) : Emission :=
  name l.name ++ int l.first ++ int l.last

/-- A list with its length before it. -/
def list {α : Type} (item : α → Emission) (items : List α) : Emission :=
  int items.length ++ concat (items.map item)

/-- What is written of a function before the functions nested in it. -/
def bodyBefore (b : FunctionBody) : Emission :=
  name b.source ++ int b.firstLine ++ int b.lastLine ++ byte b.upvalueCount ++
    byte b.parameterCount ++ byte b.varargFlag ++ byte b.stackSize ++ list int b.code ++
    list constant b.constants

/-- What is written of a function after the functions nested in it. -/
def bodyAfter (b : FunctionBody) : Emission :=
  list int b.lines ++ list localVariable b.locals ++ list name b.upvalues

mutual

/-- A function. -/
def proto : Proto → Emission
  | ⟨body, nested⟩ => bodyBefore body ++ int nested.length ++ protos nested ++ bodyAfter body

/-- Functions in order. -/
def protos : List Proto → Emission
  | [] => ofBytes []
  | p :: rest => proto p ++ protos rest

end

end Emission

/-- The chunk of a function. -/
def Proto.encode (p : Proto) : Except WriteFault Bytes :=
  (Emission.header ++ Emission.proto p).toExcept

end LuaChunk
