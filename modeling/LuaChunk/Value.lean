import LuaChunk.Latin1
import LuaChunk.Number

/-!
# Bare values

A bare value is one that no chunk stores as a constant.  It can stand where a constant is expected,
and is then refused by a message that shows it or names its type.

A message shows a text or a byte string between quotes, the bytes behind a `b`.  The quote is a
single one, unless what is shown holds a single quote and no double one.
-/

namespace LuaChunk

/-- A value that is not a constant of a chunk. -/
inductive Value
  | absent
  | boolean (b : Bool)
  | integer (n : Int)
  | float (d : Double)
  | text (s : String)
  | bytes (data : Bytes)
deriving DecidableEq, Repr

namespace Value

/-- The name of the type of a value. -/
def typeName : Value → String
  | absent => "NoneType"
  | boolean _ => "bool"
  | integer _ => "int"
  | float _ => "float"
  | text _ => "str"
  | bytes _ => "bytes"

/-- The escape of a character in two lower-case hexadecimal digits. -/
def hexEscape (c : Char) : List Char :=
  let digits := Nat.toDigits 16 c.toNat
  '\\' :: 'x' :: (List.replicate (2 - digits.length) '0' ++ digits)

/-- A character between the given quotes, where one that cannot be shown as it is has an escape. -/
def displayCharacter (isShown : Char → Bool) (quote c : Char) : List Char :=
  if c = quote ∨ c = '\\' then ['\\', c]
  else if c = '\t' then ['\\', 't']
  else if c = '\n' then ['\\', 'n']
  else if c = '\r' then ['\\', 'r']
  else if isShown c then [c]
  else hexEscape c

/-- A text with quotes around it. -/
def displayQuoted (isShown : Char → Bool) (text : String) : String :=
  let characters := text.toList
  let quote := if characters.contains '\'' && !characters.contains '"' then '"' else '\''
  String.ofList (quote :: characters.flatMap (displayCharacter isShown quote) ++ [quote])

/-- Whether a character is one of ASCII with a sign of its own. -/
def isShownInBytes (c : Char) : Bool :=
  ' ' ≤ c && c ≤ '~'

/-- Whether a character of a text is shown as it is.  In Latin-1 these are the characters with a
sign of their own, without the space that does not break a line and the hyphen that only stands at
the end of one.  Beyond Latin-1 all characters count as such. -/
def isShownInText (c : Char) : Bool :=
  isShownInBytes c || ('\u00A0' < c && c != '\u00AD')

/-- A truth value as messages show it. -/
def displayBool (b : Bool) : String :=
  if b then "True" else "False"

/-- A text as messages show it. -/
def displayText (text : String) : String :=
  displayQuoted isShownInText text

/-- A byte string as messages show it. -/
def displayBytes (data : Bytes) : String :=
  "b" ++ displayQuoted isShownInBytes (Latin1.decode data)

/-- A value as messages show it.  An integer with too many digits cannot be shown, and instead of
the message that would show it this is reported. -/
def display : Value → Except Overlong String
  | absent => .ok "None"
  | boolean b => .ok (displayBool b)
  | integer n => wholeText n
  | float d => .ok d.text
  | text s => .ok (displayText s)
  | bytes data => .ok (displayBytes data)

end Value

end LuaChunk
