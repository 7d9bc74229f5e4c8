import LuaChunk.Diagnostic
import LuaChunk.Literal.Piece
import LuaChunk.Value

/-!
# Constants

A constant of a function is nil, a truth value, a number or a string.  `Constant.literal` is its
form in source text, which only a number with too many digits does not have; `Constant.toInt32` and
`Constant.name` are the integer and the name it stands for, and fail with a `ConstantFault` where it
stands for none.

A string constant can be an identifier: a letter or an underscore followed by letters, digits and
underscores, and none of the reserved words.  Letters and digits are those of Latin-1.
-/

namespace LuaChunk

/-- The four kinds of constants. -/
inductive Kind
  | nil
  | boolean
  | number
  | string
deriving DecidableEq, Repr

/-- The name of a kind in messages. -/
def Kind.name : Kind → String
  | nil => "NIL"
  | boolean => "BOOLEAN"
  | number => "NUMBER"
  | string => "STRING"

/-- A constant of a function. -/
inductive Constant
  | nil
  | boolean (b : Bool)
  | number (n : Number)
  | string (data : Bytes)
deriving DecidableEq, Repr

/-- What a constant may be asked to hold: a number, or a bare value. -/
inductive Payload
  | number (n : Number)
  | bare (v : Value)
deriving DecidableEq, Repr

/-- The name of the type of a payload. -/
def Payload.typeName : Payload → String
  | number _ => "LNumber"
  | bare v => v.typeName

/-- Why a constant cannot be built or used. -/
inductive ConstantFault
  /-- The value is not a constant. -/
  | illegal (v : Value)
  /-- The payload is not one for the kind. -/
  | cannotHold (kind : Kind) (payload : Payload)
  /-- The constant is not a whole number. -/
  | notWhole (c : Constant)
  /-- The constant is not a string. -/
  | notString (c : Constant)
deriving DecidableEq, Repr

namespace Constant

/-- The kind of a constant. -/
def kind : Constant → Kind
  | nil => .nil
  | boolean _ => .boolean
  | number _ => .number
  | string _ => .string

/-- A constant as messages show it; nothing follows the kind of nil but a blank. -/
def display (c : Constant) : Except Overlong String := do
  let payload ← match c with
    | nil => pure ""
    | boolean b => pure (Value.displayBool b)
    | number n => n.text
    | string data => pure (Value.displayBytes data)
  return "Kind." ++ c.kind.name ++ " " ++ payload

/-- The constant of a kind that holds a payload. -/
def ofPayload : Kind → Payload → Except ConstantFault Constant
  | .nil, .bare .absent => .ok nil
  | .boolean, .bare (.boolean b) => .ok (boolean b)
  | .number, .number n => .ok (number n)
  | .string, .bare (.bytes data) => .ok (string data)
  | kind, payload => .error (.cannotHold kind payload)

/-- Whether a constant is a whole number. -/
def isWhole : Constant → Bool
  | number n => n.isWhole
  | _ => false

/-- The 32-bit integer nearest to a constant that is a whole number. -/
def toInt32 (c : Constant) : Except ConstantFault Int :=
  match c with
  | number n =>
    match n.toInt32? with
    | some value => .ok value
    | none => .error (.notWhole c)
  | _ => .error (.notWhole c)

/-- The text of a string constant. -/
def name (c : Constant) : Except ConstantFault String :=
  match c with
  | string data => .ok (Latin1.decode data)
  | _ => .error (.notString c)

/-- A constant as a literal of the source language. -/
def literal : Constant → Except Overlong Bytes
  | nil => .ok (Latin1.bytes "nil")
  | boolean b => .ok (Latin1.bytes (if b then "true" else "false"))
  | number n => n.text.map Latin1.bytes
  | string data => .ok (quoted data)

end Constant

namespace ConstantFault

/-- The category under which a fault is reported. -/
def category : ConstantFault → Category
  | illegal _ => .invalidConstantKind
  | cannotHold _ _ => .invalidConstantKind
  | notWhole _ => .notIntegral
  | notString _ => .notString

/-- The message of a fault. -/
def message : ConstantFault → Except Overlong String
  | illegal v => return "Illegal constant type: " ++ (← v.display)
  | cannotHold kind payload => return kind.name ++ " constant cannot hold " ++ payload.typeName
  | notWhole c => return (← c.display) ++ " is not an integral number"
  | notString c => return (← c.display) ++ " is not a string"

/-- The diagnostic that reports a fault. -/
def diagnostic (fault : ConstantFault) : Except Overlong Diagnostic :=
  return ⟨fault.category, ← fault.message, none, none⟩

/-- The name under which a fault is reported; without a message it is the name of what the message
lacks. -/
def name (fault : ConstantFault) : String :=
  match fault.message with
  | .ok _ => fault.category.name
  | .error e => e.name

end ConstantFault

/-- The words that cannot be used as names. -/
def reservedWords : List String :=
  ["and", "break", "do", "else", "elseif", "end", "false", "for", "function", "if", "in", "local",
    "nil", "not", "or", "repeat", "return", "then", "true", "until", "while"]

/-- Whether a character can begin an identifier. -/
def isIdentifierStart (c : Char) : Bool :=
  c == '_' || Latin1.isLetter c

/-- Whether a character can follow in an identifier. -/
def isIdentifierRest (c : Char) : Bool :=
  isIdentifierStart c || Latin1.isDigit c

/-- Whether a text is an identifier. -/
def isIdentifierText (text : String) : Bool :=
  !reservedWords.contains text &&
    match text.toList with
    | [] => false
    | first :: rest => isIdentifierStart first && rest.all isIdentifierRest

/-- Whether a constant is a string that is an identifier. -/
def Constant.isIdentifier : Constant → Bool
  | .string data => isIdentifierText (Latin1.decode data)
  | _ => false

end LuaChunk
