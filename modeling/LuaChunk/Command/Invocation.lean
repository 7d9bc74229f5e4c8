import LuaChunk.Latin1

/-!
# Command lines

A command line names one of two commands after the options of the program.  An argument that begins
with a dash and is longer than that is an option, until an argument of two dashes ends the options;
the options of the program end at the name of the command as well.
-/

namespace LuaChunk

/-- What the user asks for. -/
inductive Command
  /-- List the constants of a file, with the header in the log if asked for. -/
  | constants (file : Bytes) (header : Bool)
  /-- Render a text as a string literal. -/
  | literal (text : Bytes)
deriving DecidableEq, Repr

/-- A command and whether debugging entries are shown. -/
structure Invocation where
  verbose : Bool
  command : Command
deriving DecidableEq, Repr

namespace Invocation

/-- The dash that begins an option. -/
def dash : UInt8 := 0x2D

/-- The argument that ends the options. -/
def terminator : Bytes := [dash, dash]

/-- Whether an argument is to be taken for an option. -/
def looksLikeOption (argument : Bytes) : Bool :=
  argument.head? == some dash && 1 < argument.length

/-- Whether an option of the program is one that asks for debugging entries: its long form, or its
letter any number of times. -/
def isVerboseOption (argument : Bytes) : Bool :=
  argument == Latin1.bytes "--verbose" ||
    (argument.head? == some dash && argument.tail.all (· == 0x76))

/-- The options of the program and the arguments after them, if every option is known. -/
def splitOptions : List Bytes → Option (Bool × List Bytes)
  | [] => some (false, [])
  | argument :: rest =>
    if argument == terminator then some (false, rest)
    else if looksLikeOption argument then
      if isVerboseOption argument then (splitOptions rest).map fun (_, after) => (true, after)
      else none
    else some (false, argument :: rest)

/-- The last choice about the header and the other arguments of the constants command, if every
option is known. -/
def splitHeaderOptions : List Bytes → Option (Option Bool × List Bytes)
  | [] => some (none, [])
  | argument :: rest =>
    if argument == terminator then some (none, rest)
    else if looksLikeOption argument then
      if argument == Latin1.bytes "--header" then
        (splitHeaderOptions rest).map fun (later, others) => (some (later.getD true), others)
      else if argument == Latin1.bytes "--no-header" then
        (splitHeaderOptions rest).map fun (later, others) => (some (later.getD false), others)
      else none
    else (splitHeaderOptions rest).map fun (later, others) => (later, argument :: others)

/-- The arguments of a command without options, if there is no option among them. -/
def splitNoOptions : List Bytes → Option (List Bytes)
  | [] => some []
  | argument :: rest =>
    if argument == terminator then some rest
    else if looksLikeOption argument then none
    else (splitNoOptions rest).map (argument :: ·)

/-- The command that a name and its arguments ask for. -/
def command? (name : Bytes) (arguments : List Bytes) : Option Command :=
  if name == Latin1.bytes "constants" then
    match splitHeaderOptions arguments with
    | some (header, [file]) => some (.constants file (header.getD false))
    | _ => none
  else if name == Latin1.bytes "literal" then
    match splitNoOptions arguments with
    | some [text] => some (.literal text)
    | _ => none
  else none

/-- The invocation that a command line spells, if it is a correct one. -/
def parse? (arguments : List Bytes) : Option Invocation :=
  match splitOptions arguments with
  | some (verbose, name :: rest) => (command? name rest).map (Invocation.mk verbose)
  | _ => none

end Invocation

end LuaChunk
