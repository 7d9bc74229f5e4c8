import LuaChunk.Command.Invocation
import LuaChunk.Decode
import LuaChunk.Listing

/-!
# What a command does

The constants command reads a chunk and lists it; the literal command writes one line.  An
`Outcome` is the bytes and the text that a command leaves on the two output streams and its exit
status.
-/

namespace LuaChunk

/-- Why a file cannot be read. -/
inductive FileFault
  /-- No file has the name. -/
  | notFound
  /-- The path names a directory. -/
  | isDirectory
  /-- The path goes on after a file. -/
  | notDirectory
  /-- The path holds a null byte. -/
  | nullInPath
  /-- The user may not read the file. -/
  | notPermitted
  /-- Reading fails for a reason that has no name of its own. -/
  | unreadable
deriving DecidableEq, Repr

/-- The name of a fault. -/
def FileFault.name : FileFault → String
  | notFound => "FileNotFoundError"
  | isDirectory => "IsADirectoryError"
  | notDirectory => "NotADirectoryError"
  | nullInPath => "ValueError"
  | notPermitted => "PermissionError"
  | unreadable => "OSError"

/-- A fault that a command does not report itself. -/
inductive Escaped
  | file (fault : FileFault)
  | listing (fault : ListingFault)
deriving DecidableEq, Repr

/-- The name of a fault. -/
def Escaped.name : Escaped → String
  | file fault => fault.name
  | listing fault => fault.name

/-- What a command leaves behind. -/
structure Outcome where
  exitCode : Nat
  output : Bytes
  errors : String
  escaped : Option Escaped
deriving DecidableEq, Repr

namespace Outcome

/-- The entries that are shown, each on a line: all of them or those above debugging. -/
def logText (verbose : Bool) (log : Log) : String :=
  String.join ((log.filter fun e => verbose || e.level != .debug).map fun e => e.line ++ "\n")

/-- A byte that belongs to no character of UTF-8, as messages show it. -/
def byteEscape (b : UInt8) : List Char :=
  ['\\', 'u', 'd', 'c'] ++ Nat.toDigits 16 b.toNat

/-- The characters that bytes stand for in UTF-8, with an escape for each byte that belongs to none.
The first `skip` bytes belong to the character in front of them. -/
def nameCharacters (skip : Nat) : Bytes → List Char
  | [] => []
  | b :: rest =>
    match skip with
    | skip + 1 => nameCharacters skip rest
    | 0 =>
      match ByteArray.utf8DecodeChar? ⟨((b :: rest).take 4).toArray⟩ 0 with
      | some c => c :: nameCharacters (c.utf8Size - 1) rest
      | none => byteEscape b ++ nameCharacters 0 rest

/-- A file name in a message. -/
def fileName (file : Bytes) : String :=
  String.ofList (nameCharacters 0 file)

/-- The outcome of the literal command. -/
def literal (text : Bytes) : Outcome :=
  let line := ((Sink.empty Sink.defaultWidth).putQuoted text).newline
  ⟨0, line.written.toList, "", none⟩

/-- The outcome of listing a function that was read, after the given log. -/
def list (verbose : Bool) (readLog : Log) (p : Proto) : Outcome :=
  match p.listing mainName (Sink.empty Sink.defaultWidth) with
  | .ok _ t => ⟨0, t.sink.written.toList, logText verbose (readLog ++ t.log), none⟩
  | .error fault t =>
    ⟨1, t.sink.written.toList, logText verbose (readLog ++ t.log), some (.listing fault)⟩

/-- The outcome of the constants command on the content of a file. -/
def constants (verbose header : Bool) (file : Bytes) (content : Bytes) : Outcome :=
  match readChunk header (Cursor.start content) with
  | .ok p c => list verbose c.log p
  | .error e c =>
    let report := (e.diagnostic (some (fileName file))).plainReport
    ⟨1, [], logText verbose c.log ++ report ++ "\n", none⟩

end Outcome

/-- The outcome of an invocation, given how files are read. -/
def Invocation.outcome {m : Type → Type} [Monad m]
    (readFile : Bytes → m (Except FileFault Bytes)) (i : Invocation) : m Outcome := do
  match i.command with
  | .literal text => return Outcome.literal text
  | .constants file header =>
    match ← readFile file with
    | .ok content => return Outcome.constants i.verbose header file content
    | .error fault => return ⟨1, [], "", some (.file fault)⟩

end LuaChunk
