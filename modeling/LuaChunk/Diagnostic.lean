/-!
# Diagnostics and log entries

A diagnostic is a message with its category and, where they are known, the position in the chunk and
the file that it is about.  `Diagnostic.text` is one line, `Diagnostic.report` the coloured form for
a terminal.  Beside that, reading and listing leave entries in a log, each with a level.
-/

namespace LuaChunk

/-- What a diagnostic is about. -/
inductive Category
  | decompile
  | invalidConstantKind
  | notIntegral
  | notString
  | bytecode
deriving DecidableEq, Repr

/-- The heading of a category. -/
def Category.name : Category → String
  | decompile => "DecompileError"
  | invalidConstantKind => "InvalidConstantKind"
  | notIntegral => "NotIntegral"
  | notString => "NotString"
  | bytecode => "BytecodeError"

/-- A message with what it is about. -/
structure Diagnostic where
  category : Category
  message : String
  offset : Option Int := none
  file : Option String := none
deriving DecidableEq, Repr

/-- An offset in upper-case hexadecimal, with its sign after the base mark. -/
def offsetText (offset : Int) : String :=
  let digits := (Nat.toDigits 16 offset.natAbs).map Char.toUpper
  "0x" ++ String.ofList (if offset < 0 then '-' :: digits else digits)

/-- A terminal code that changes the colour or the weight of the text after it. -/
def colour (code : String) : String :=
  "\x1b[" ++ code ++ "m"

namespace Diagnostic

/-- The message after its position. -/
def text (d : Diagnostic) : String :=
  match d.offset with
  | none => d.message
  | some offset => "[offset " ++ offsetText offset ++ "] " ++ d.message

/-- The line that names the file, if there is a name. -/
def fileLine (d : Diagnostic) : String :=
  match d.file with
  | none => ""
  | some file =>
    if file.isEmpty then "" else colour "36" ++ "In " ++ file ++ ":" ++ colour "0" ++ "\n"

/-- The form for a terminal: the file in cyan, the category and the text in bright red. -/
def report (d : Diagnostic) : String :=
  d.fileLine ++ colour "31" ++ colour "1" ++ d.category.name ++ ": " ++ d.text ++ colour "0"

end Diagnostic

/-- The rest of a text after the parameters and the final letter of a terminal code. -/
def afterCode? (text : List Char) : Option (List Char) :=
  match text.dropWhile fun c => c.isDigit || c == ';' || c == '?' with
  | c :: rest => if c.isAlpha then some rest else none
  | [] => none

/-- Text behind a colour code is shorter than the text with the code. -/
theorem length_afterCode? {text rest : List Char} (h : afterCode? text = some rest) :
    rest.length < text.length := by
  have shorter := (List.dropWhile_sublist
    (fun c : Char => c.isDigit || c == ';' || c == '?') (l := text)).length_le
  unfold afterCode? at h
  split at h
  · next c r e =>
    rw [e, List.length_cons] at shorter
    split at h
    · obtain rfl := Option.some.inj h
      omega
    · cases h
  · cases h

/-- A text without its terminal codes, for a file or a pipe. -/
def withoutCodes : List Char → List Char
  | '\x1b' :: '[' :: rest =>
    match _found : afterCode? rest with
    | some after => withoutCodes after
    | none => '\x1b' :: withoutCodes ('[' :: rest)
  | c :: rest => c :: withoutCodes rest
  | [] => []
termination_by text => text.length
decreasing_by
  · have := length_afterCode? _found
    simp only [List.length_cons]
    omega
  · simp
  · simp

/-- The form of a diagnostic without colours. -/
def Diagnostic.plainReport (d : Diagnostic) : String :=
  String.ofList (withoutCodes d.report.toList)

/-- How much attention an entry asks for. -/
inductive Level
  | debug
  | info
  | warning
deriving DecidableEq, Repr

/-- The heading of a level. -/
def Level.name : Level → String
  | debug => "DEBUG"
  | info => "INFO"
  | warning => "WARNING"

/-- A message in a log. -/
structure LogEntry where
  level : Level
  message : String
deriving DecidableEq, Repr

/-- The entries so far, the oldest one first. -/
abbrev Log := List LogEntry

/-- An entry as a line of the error stream. -/
def LogEntry.line (entry : LogEntry) : String :=
  entry.level.name ++ ":root:" ++ entry.message

end LuaChunk
