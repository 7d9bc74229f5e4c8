import LuaChunk.Decode

/-!
# Readers

A reader is a chunk with its header and a position in it.  It is asked for one field after another.
A request that fails leaves the reader where it gave up, and the next request goes on from there.
-/

namespace LuaChunk

/-- What a reader can be asked for. -/
inductive Request
  | byte
  | bytes (n : Int)
  | unsigned (width : Int)
  | size
  | int
  | string
  | name
  | number
  | constant
  /-- A function inside one of the given source name. -/
  | proto (outer : String)
  /-- The summary of the header, which goes to the log. -/
  | summary
  /-- A failure with a message of its own, at the position unless told otherwise. -/
  | failure (message : String) (offset : Option Int)
deriving DecidableEq, Repr

/-- What a request yields. -/
inductive Answer
  | nothing
  | whole (n : Int)
  | bytes (data : Bytes)
  | string (data : Option Bytes)
  | name (text : String)
  | number (n : Number)
  | constant (e : PoolEntry)
  | proto (p : Proto)

/-- Why a request fails. -/
inductive RequestFault
  /-- The failure is reported by a diagnostic. -/
  | reported (d : Diagnostic)
  /-- The diagnostic would have to show a number with too many digits. -/
  | overlong (fault : Overlong)
deriving DecidableEq, Repr

/-- What is reported of an error.  The caller may have asked for more bytes than a message can
say. -/
def ReadError.requestFault (file : Option String) (e : ReadError) : RequestFault :=
  match e.fault with
  | .unexpectedEnd wanted =>
    match wholeText wanted with
    | .ok _ => .reported (e.diagnostic file)
    | .error fault => .overlong fault
  | _ => .reported (e.diagnostic file)

/-- How a request is answered in the chunk `data` under its header. -/
def Request.read (data : Bytes) (h : Header) : Request → ReadM Answer
  | byte => do return .whole (← readByte).toNat
  | bytes n => do return .bytes (← readSpan data n)
  | unsigned width => do return .whole (h.byteOrder.unsigned (← readSpan data width))
  | size => do return .whole (← h.readSize)
  | int => do return .whole (← h.readInt)
  | string => do return .string (← h.readString?)
  | name => do return .name (← h.readName)
  | number => do return .number (← h.readNumber)
  | constant => do return .constant (← h.readConstant)
  | proto outer => do return .proto (← h.readProto outer)
  | summary => do
    h.logSummary
    return .nothing
  | failure message none => failHere (.refused message)
  | failure message (some offset) => failAt (.refused message) offset

/-- A chunk, the name of its file if it has one, its header and a position in it. -/
structure Reader where
  data : Bytes
  file : Option String
  header : Header
  cursor : Cursor

namespace Reader

/-- The reader of a chunk, which stands behind the header. -/
def opened (file : Option String) (data : Bytes) : Except Diagnostic Reader :=
  match readHeader (.start data) with
  | .ok header cursor => .ok { data, file, header, cursor }
  | .error e _ => .error (e.diagnostic file)

/-- The outcome of a request, and the reader after it. -/
def ask (r : Reader) (q : Request) : Except RequestFault Answer × Reader :=
  match q.read r.data r.header r.cursor with
  | .ok a cursor => (.ok a, { r with cursor })
  | .error e cursor => (.error (e.requestFault r.file), { r with cursor })

/-- The reader after requests in order, failed ones among them. -/
def askAll (r : Reader) (qs : List Request) : Reader :=
  qs.foldl (fun r q => (r.ask q).2) r

end Reader

end LuaChunk
