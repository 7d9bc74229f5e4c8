import LuaChunk.Constant

/-!
# Indented output

A `Sink` collects the bytes of a listing.  The first print on a line writes the indentation before
it; a line without any print stays empty.  Text is written one byte for each character.

An output is called again and again.  A call that is refused does not end the sequence: what it did
before it failed stays, and the next call goes on from there (`Sink.performAll`).
-/

namespace LuaChunk

/-- The state of an output. -/
structure Sink where
  /-- The bytes so far. -/
  written : Array UInt8
  /-- How many spaces begin a line; a negative number counts as none. -/
  level : Int
  /-- By how much indenting changes the level. -/
  width : Int
  /-- Whether nothing was printed on the line. -/
  atLineStart : Bool
deriving DecidableEq, Repr

/-- Why something cannot be printed. -/
inductive SinkFault
  /-- A text has a character outside Latin-1. -/
  | unencodable (text : String)
  /-- A number has no text. -/
  | overlong (fault : Overlong)
deriving DecidableEq, Repr

/-- The name under which a fault is reported. -/
def SinkFault.name : SinkFault → String
  | unencodable _ => "UnicodeEncodeError"
  | overlong fault => fault.name

/-- A step of output. -/
abbrev SinkM := EStateM SinkFault Sink

namespace Sink

/-- An output without bytes. -/
def empty (width : Int) : Sink := ⟨#[], 0, width, true⟩

/-- The change of level by one indentation, unless told otherwise. -/
def defaultWidth : Int := 2

/-- More indentation. -/
def indent (s : Sink) : Sink := { s with level := s.level + s.width }

/-- Less indentation. -/
def dedent (s : Sink) : Sink := { s with level := s.level - s.width }

/-- Adds bytes as they are. -/
def append (s : Sink) (bytes : Bytes) : Sink :=
  { s with written := s.written.appendList bytes }

/-- Begins the line if nothing was printed on it. -/
def begin (s : Sink) : Sink :=
  if s.atLineStart then
    { s with atLineStart := false }.append (List.replicate s.level.toNat 0x20)
  else s

/-- Prints bytes. -/
def put (bytes : Bytes) (s : Sink) : Sink := s.begin.append bytes

/-- Prints the low eight bits of a number. -/
def printByte (n : Int) (s : Sink) : Sink := s.put [lowByte n]

/-- Ends the line. -/
def newline (s : Sink) : Sink :=
  { s with atLineStart := true }.append [0x0A]

/-- Prints a text; one that cannot be encoded still begins the line. -/
def print (text : String) : SinkM Unit := fun s =>
  match Latin1.encode? text with
  | some bytes => .ok () (s.put bytes)
  | none => .error (.unencodable text) s.begin

/-- Prints a text, if there is any, and ends the line. -/
def println (text : String) : SinkM Unit := do
  if !text.isEmpty then print text
  modify newline

/-- What an output can be asked to do. -/
inductive Call
  | print (text : String)
  /-- Prints the low eight bits of a number. -/
  | printByte (n : Int)
  | println (text : String)
  | indent
  | dedent
deriving DecidableEq, Repr

/-- The step of output that a call is. -/
def Call.run : Call → SinkM Unit
  | print text => Sink.print text
  | printByte n => modify (Sink.printByte n)
  | println text => Sink.println text
  | indent => modify Sink.indent
  | dedent => modify Sink.dedent

/-- The outcome of a call, and the output after it. -/
def perform (s : Sink) (call : Call) : Except SinkFault Unit × Sink :=
  match call.run s with
  | .ok _ s => (.ok (), s)
  | .error e s => (.error e, s)

/-- The output after calls in order, refused ones among them. -/
def performAll (s : Sink) (calls : List Call) : Sink :=
  calls.foldl (fun s call => (s.perform call).2) s

end Sink

/-- Prints a piece of a string literal, a multi-byte run byte by byte. -/
def Piece.print (piece : Piece) (s : Sink) : Sink :=
  match piece with
  | .raw run => run.foldl (fun s b => s.put [b]) s
  | _ => s.put piece.written

/-- Prints a string as a literal, piece by piece. -/
def Sink.putQuoted (data : Bytes) (s : Sink) : Sink :=
  ((pieces data).foldl (fun s piece => piece.print s) (s.put [quoteByte])).put [quoteByte]

/-- Prints a constant as a literal.  Of a number without a text nothing is printed. -/
def Constant.print (c : Constant) : SinkM Unit := fun s =>
  match c with
  | .string data => .ok () (s.putQuoted data)
  | _ =>
    match c.literal with
    | .ok literal => .ok () (s.put literal)
    | .error fault => .error (.overlong fault) s

end LuaChunk
