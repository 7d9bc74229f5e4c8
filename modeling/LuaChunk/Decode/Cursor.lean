import LuaChunk.Header

/-!
# The position in a chunk

Reading moves a `Cursor` over the bytes of a chunk.  A read that fails tells its cause and a
position in a `ReadError` and leaves the cursor where it stood, so that reading can go on from
there.
-/

namespace LuaChunk

/-- Why a chunk cannot be read on. -/
inductive ReadFault
  /-- Fewer bytes are left than were asked for. -/
  | unexpectedEnd (wanted : Nat)
  /-- The chunk does not begin with the signature. -/
  | noSignature
  /-- The version is not 5.1. -/
  | unsupportedVersion (version : UInt8)
  /-- Numbers that are not integers have a width other than four and eight. -/
  | unsupportedNumberSize (size : UInt8)
  /-- No kind of constant has the tag. -/
  | illegalTag (tag : UInt8)
  /-- The caller gives up with a message of its own. -/
  | refused (message : String)
deriving DecidableEq, Repr

namespace ReadFault

/-- The category under which a fault is reported. -/
def category : ReadFault → Category
  | illegalTag _ => .invalidConstantKind
  | _ => .bytecode

/-- The message of a fault.  A chunk never asks for so many bytes that their number could not be
shown (`asksFew_readChunk`); see `Reader.ask` for a caller who asks for that many. -/
def message : ReadFault → String
  | unexpectedEnd wanted => "Unexpected end of chunk (wanted " ++ toString wanted ++ " bytes)"
  | noSignature => "Not a luac file"
  | unsupportedVersion version =>
    "Unsupported bytecode version " ++ toString (version.toNat / 16) ++ "." ++
      toString (version.toNat % 16)
  | unsupportedNumberSize size => "Unsupported lua_Number size " ++ toString size.toNat
  | illegalTag tag => "Illegal constant type: " ++ toString tag.toNat
  | refused message => message

end ReadFault

/-- A fault and the position in the chunk that it is reported for. -/
structure ReadError where
  fault : ReadFault
  offset : Int
deriving DecidableEq, Repr

/-- The diagnostic that reports an error in a file. -/
def ReadError.diagnostic (file : Option String) (e : ReadError) : Diagnostic :=
  ⟨e.fault.category, e.fault.message, some e.offset, file⟩

/-- The state of reading a chunk. -/
structure Cursor where
  /-- The number of bytes behind the cursor. -/
  position : Nat
  /-- The bytes before the cursor. -/
  rest : Bytes
  /-- What reading has logged so far. -/
  log : Log
  /-- How many functions reading has begun so far. -/
  begun : Nat
deriving DecidableEq, Repr

namespace Cursor

/-- The cursor at the start of a chunk. -/
def start (data : Bytes) : Cursor := ⟨0, data, [], 0⟩

/-- The cursor `n` bytes further. -/
def advance (n : Nat) (c : Cursor) : Cursor :=
  { c with position := c.position + n, rest := c.rest.drop n }

/-- The cursor `n` bytes back in the chunk `data`.  Going back beyond the start of the chunk is left
out: the cursor stops there. -/
def retreat (data : Bytes) (n : Nat) (c : Cursor) : Cursor :=
  { c with position := c.position - n, rest := data.drop (c.position - n) }

/-- The cursor after another log entry. -/
def logged (entry : LogEntry) (c : Cursor) : Cursor :=
  { c with log := c.log ++ [entry] }

/-- The cursor after the beginning of another function. -/
def entered (c : Cursor) : Cursor :=
  { c with begun := c.begun + 1 }

end Cursor

/-- A step of reading. -/
abbrev ReadM := EStateM ReadError Cursor

/-- Fails at the cursor. -/
def failHere {α : Type} (fault : ReadFault) : ReadM α := fun c =>
  .error ⟨fault, c.position⟩ c

/-- Fails at a given position. -/
def failAt {α : Type} (fault : ReadFault) (offset : Int) : ReadM α :=
  throw ⟨fault, offset⟩

/-- Fails at a given position unless a condition holds. -/
def require (holds : Bool) (fault : ReadFault) (offset : Int) : ReadM Unit :=
  if holds then pure () else failAt fault offset

/-- The next `n` bytes; at the end of the chunk the cursor stays where it is. -/
def readBytes (n : Nat) : ReadM Bytes := fun c =>
  if c.rest.hasAtLeast n then .ok (c.rest.take n) (c.advance n)
  else failHere (.unexpectedEnd n) c

/-- The next `n` bytes of the chunk `data`.  A negative `n` moves the cursor back by as many bytes
and yields none, as long as this does not lead beyond the start of the chunk; a position in front of
it, from where bytes would be counted from the end, is left out. -/
def readSpan (data : Bytes) : Int → ReadM Bytes
  | .ofNat n => readBytes n
  | .negSucc n => do
    modify (Cursor.retreat data (n + 1))
    return []

/-- The next byte. -/
def readByte : ReadM UInt8 := fun c =>
  match c.rest with
  | b :: _ => .ok b (c.advance 1)
  | [] => failHere (.unexpectedEnd 1) c

/-- Adds an entry to the log. -/
def writeLog (level : Level) (message : String) : ReadM Unit :=
  modify (Cursor.logged ⟨level, message⟩)

/-- Repeats a step and collects the results. -/
def readTimes {α : Type} (step : ReadM α) : Nat → ReadM (List α)
  | 0 => pure []
  | n + 1 => do
    let first ← step
    let others ← readTimes step n
    return first :: others

end LuaChunk
