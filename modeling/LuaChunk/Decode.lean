import LuaChunk.Decode.Field

/-!
# Reading a chunk

A function is read field by field, with the functions nested in it in the middle.  A function
without a source name takes the name of the function around it.

Every function takes at least four bytes, which bounds the nesting by the bytes that are left;
`Header.readProtoWithin` recurses on that bound, and `Header.readProto` starts it high enough.
-/

namespace LuaChunk

namespace Header

/-- A function, given how the list of functions nested in it is read once its source name is
known. -/
def readProtoWith (h : Header) (readNested : String → ReadM (List Proto)) (parent : String) :
    ReadM Proto := do
  modify Cursor.entered
  let name ← h.readName
  let source := if name.isEmpty then parent else name
  let firstLine ← h.readInt
  let lastLine ← h.readInt
  let upvalueCount ← readByte
  let parameterCount ← readByte
  let varargFlag ← readByte
  let stackSize ← readByte
  let code ← h.readList (h.readUnsigned h.instructionSize.toNat)
  let constants ← h.readList h.readConstant
  let nested ← readNested source
  let lines ← h.readList h.readInt
  let locals ← h.readList h.readLocal
  let upvalues ← h.readList h.readName
  let body : FunctionBody :=
    { source, firstLine, lastLine
      upvalueCount := upvalueCount.toNat
      parameterCount := parameterCount.toNat
      varargFlag := varargFlag.toNat
      stackSize := stackSize.toNat
      code := code.map Int.ofNat
      constants, lines, locals, upvalues }
  let proto : Proto := ⟨body, nested⟩
  writeLog .debug ("read " ++ proto.display)
  return proto

/-- A function whose nesting is at most `depth` deep. -/
def readProtoWithin (h : Header) : Nat → String → ReadM Proto
  | 0 => h.readProtoWith fun _ => pure []
  | depth + 1 => h.readProtoWith fun source => h.readList (h.readProtoWithin depth source)

/-- A function inside one of the given source name. -/
def readProto (h : Header) (parent : String) : ReadM Proto := fun c =>
  h.readProtoWithin (c.rest.length / 4) parent c

end Header

/-- A whole chunk, and its header's summary in the log if asked for. -/
def readChunk (withSummary : Bool) : ReadM Proto := do
  let h ← readHeader
  if withSummary then h.logSummary
  h.readProto ""

end LuaChunk
