import LuaChunk.Proto
import LuaChunk.Sink

/-!
# Listings

The listing of a function has a line that describes it, a line for each of its constants, and the
listings of the functions nested in it, one indentation further.  A listing stops at the first line
that cannot be written.  The text that describes a function is put together before its line is
begun, so nothing of the line is written if the number of a line in it has too many digits.  The
other numbers in a listing count the members of lists and never have so many.
-/

namespace LuaChunk

/-- Why a line of a listing cannot be written. -/
inductive ListingFault
  /-- A text cannot be printed. -/
  | output (fault : SinkFault)
  /-- An entry of the pool is not a constant. -/
  | constant (fault : ConstantFault)
deriving DecidableEq, Repr

/-- The name under which a fault is reported. -/
def ListingFault.name : ListingFault → String
  | output fault => fault.name
  | constant fault => fault.name

/-- The state of a listing. -/
structure Transcript where
  sink : Sink
  log : Log
deriving DecidableEq, Repr

/-- A step of a listing. -/
abbrev ListingM := EStateM ListingFault Transcript

namespace Listing

/-- Changes the output. -/
def output (change : Sink → Sink) : ListingM Unit :=
  modify fun t => { t with sink := change t.sink }

/-- Prints on the output. -/
def onSink (step : SinkM Unit) : ListingM Unit := fun t =>
  match step t.sink with
  | .ok _ sink => .ok () { t with sink }
  | .error fault sink => .error (.output fault) { t with sink }

/-- A number of things, with the noun in the plural unless there is one. -/
def count (n : Nat) (noun : String) : String :=
  toString n ++ " " ++ noun ++ (if n = 1 then "" else "s")

/-- The line that describes a function, with the lines on which its definition begins and ends. -/
def headingText (name : String) (body : FunctionBody) (nested : Nat) (first last : String) :
    String :=
  "function " ++ name ++ " <" ++ (if body.source.isEmpty then "?" else body.source) ++ ":" ++
    first ++ "," ++ last ++ "> (" ++ count body.constants.length "constant" ++ ", " ++
    count nested "function" ++ ")"

/-- The line that describes a function, unless the number of a line has too many digits. -/
def heading (name : String) (body : FunctionBody) (nested : Nat) : Except Overlong String := do
  let first ← wholeText body.firstLine
  let last ← wholeText body.lastLine
  return headingText name body nested first last

/-- Prints the line that describes a function. -/
def describe (name : String) (body : FunctionBody) (nested : Nat) : ListingM Unit :=
  match heading name body nested with
  | .ok line => onSink (Sink.println line)
  | .error fault => throw (.output (.overlong fault))

/-- The least width of the number before a constant. -/
def numberWidth : Nat := 7

/-- The number before a constant, filled with blanks, and one more blank. -/
def numbering (n : Nat) : String :=
  let digits := Nat.toDigits 10 n
  String.ofList (digits ++ List.replicate (numberWidth - digits.length) ' ' ++ [' '])

/-- The mark after a constant that is an identifier. -/
def identifierMark : String := " [ident]"

/-- The line of a constant, numbered `n`. -/
def entry (n : Nat) (e : PoolEntry) : ListingM Unit := do
  match e.constant with
  | .error fault => throw (.constant fault)
  | .ok c =>
    onSink (Sink.print (numbering n))
    onSink c.print
    if c.isIdentifier then onSink (Sink.print identifierMark)
    onSink (Sink.println "")

/-- The lines of constants, numbered from `n` on. -/
def entries : Nat → List PoolEntry → ListingM Unit
  | _, [] => pure ()
  | n, e :: rest => do
    entry n e
    entries (n + 1) rest

/-- The name of a nested function: its number after the name of the function around it. -/
def nestedName (name : String) (i : Nat) : String :=
  name ++ "." ++ toString i

mutual

/-- The listing of a function. -/
def function (name : String) : Proto → ListingM Unit
  | ⟨body, nested⟩ => do
    describe name body nested.length
    output Sink.indent
    entries 1 body.constants
    functions name 0 nested
    output Sink.dedent

/-- The listings of nested functions, numbered from `i` on. -/
def functions (name : String) (i : Nat) : List Proto → ListingM Unit
  | [] => pure ()
  | p :: rest => do
    modify fun t =>
      { t with log := t.log ++ [⟨.debug, "dumping nested function " ++ nestedName name i⟩] }
    function (nestedName name i) p
    functions name (i + 1) rest

end

end Listing

/-- The name that a listing gives to the outermost function. -/
def mainName : String := "main"

/-- The listing of a function into an output. -/
def Proto.listing (p : Proto) (name : String) (sink : Sink) :
    EStateM.Result ListingFault Transcript Unit :=
  Listing.function name p ⟨sink, []⟩

end LuaChunk
