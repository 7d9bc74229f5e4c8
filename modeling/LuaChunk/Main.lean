import LuaChunk.Command.Outcome

/-!
# The program

The command line, files and streams are read and written here; what is done with them is decided by
`Invocation.parse?` and `Invocation.outcome`.
-/

namespace LuaChunk

/-- The fault that an error of the system stands for.  A path that goes on after a file is found out
on opening, and that error has the path; a directory is found out on reading, and that error has
none. -/
def FileFault.ofError : IO.Error → FileFault
  | .noFileOrDirectory .. => .notFound
  | .inappropriateType (some _) .. => .notDirectory
  | .inappropriateType none .. => .isDirectory
  | .permissionDenied .. => .notPermitted
  | _ => .unreadable

/-- The content of a file. -/
def readContent (path : Bytes) : IO (Except FileFault Bytes) := do
  if path.contains 0 then return .error .nullInPath
  try
    return .ok (← IO.FS.readBinFile (Outcome.fileName path)).toList
  catch e => return .error (FileFault.ofError e)

end LuaChunk

open LuaChunk

/-- Runs the command line; a command line that is not correct exits with 2. -/
def main (arguments : List String) : IO UInt32 := do
  match Invocation.parse? (arguments.map fun a => a.toUTF8.toList) with
  | none =>
    IO.eprintln "usage: [-v] constants [--header | --no-header] FILE | literal TEXT"
    return 2
  | some invocation =>
    let outcome ← invocation.outcome readContent
    IO.eprint outcome.errors
    (← IO.getStdout).write ⟨outcome.output.toArray⟩
    if let some fault := outcome.escaped then IO.eprintln fault.name
    return outcome.exitCode.toUInt32
