import LuaChunk.Bytes

/-!
# String literals

The body of a string is cut from left to right into pieces: control characters with an escape letter
of their own, printable ASCII, complete multi-byte runs, and bytes that can only be written in
hexadecimal.  The literal of a string is the text of its pieces between double quotes.

A run is a lead byte and the continuation bytes that its range asks for, up to five, as in the first
definition of UTF-8 with its sequences of five and six bytes.  Neither overlong forms nor surrogates
are told apart.
-/

namespace LuaChunk

/-- The length of the run that a byte leads, 1 for an ASCII byte and 0 for one that leads none. -/
def leadLength (b : UInt8) : Nat :=
  if b < 0x80 then 1
  else if b < 0xC0 then 0
  else if b < 0xE0 then 2
  else if b < 0xF0 then 3
  else if b < 0xF8 then 4
  else if b < 0xFC then 5
  else if b < 0xFE then 6
  else 0

/-- Whether a byte is one of 0x80 to 0xBF, which continue a run. -/
def isContinuation (b : UInt8) : Bool :=
  0x80 ≤ b && b < 0xC0

/-- The length of the run at the front of a byte string, 0 if no complete one stands there. -/
def runLength : Bytes → Nat
  | [] => 0
  | lead :: rest =>
    let tail := rest.take (leadLength lead - 1)
    if tail.length = leadLength lead - 1 ∧ tail.all isContinuation then leadLength lead else 0

/-- The length of the run at a position, if the position is inside the byte string. -/
def runLengthAt? (data : Bytes) (start : Nat) : Option Nat :=
  if start < data.length then some (runLength (data.drop start)) else none

/-- The bytes that are written as a backslash and a letter or sign. -/
inductive Control
  | bell
  | backspace
  | tab
  | newline
  | verticalTab
  | formFeed
  | carriageReturn
  | quote
  | backslash
deriving DecidableEq, Repr

namespace Control

/-- The byte that is written. -/
def byte : Control → UInt8
  | bell => 0x07
  | backspace => 0x08
  | tab => 0x09
  | newline => 0x0A
  | verticalTab => 0x0B
  | formFeed => 0x0C
  | carriageReturn => 0x0D
  | quote => 0x22
  | backslash => 0x5C

/-- What follows the backslash. -/
def letter : Control → Char
  | bell => 'a'
  | backspace => 'b'
  | tab => 't'
  | newline => 'n'
  | verticalTab => 'v'
  | formFeed => 'f'
  | carriageReturn => 'r'
  | quote => '"'
  | backslash => '\\'

/-- All nine of them. -/
def all : List Control :=
  [bell, backspace, tab, newline, verticalTab, formFeed, carriageReturn, quote, backslash]

/-- The control with the given byte. -/
def ofByte? (b : UInt8) : Option Control :=
  all.find? fun c => c.byte == b

/-- A control is found by its byte. -/
theorem ofByte?_byte (c : Control) : ofByte? c.byte = some c := by
  cases c <;> rfl

/-- What is found by a byte has this byte. -/
theorem byte_of_ofByte? {b : UInt8} {c : Control} (h : ofByte? b = some c) : c.byte = b := by
  simpa using List.find?_some h

end Control

/-- The printable ASCII bytes, with the delete character among them. -/
def isPrintable (b : UInt8) : Bool :=
  0x20 ≤ b && b ≤ 0x7F

/-- An upper-case hexadecimal digit. -/
def hexDigit (n : Nat) : Char :=
  if n < 10 then Char.ofNat (0x30 + n) else Char.ofNat (0x37 + n)

/-- One piece of a string literal. -/
inductive Piece
  /-- A byte that stands for itself. -/
  | literal (b : UInt8)
  /-- A byte with an escape letter. -/
  | escape (c : Control)
  /-- A multi-byte run, copied as it is. -/
  | raw (run : Bytes)
  /-- A byte that is written as two hexadecimal digits. -/
  | hex (b : UInt8)
deriving DecidableEq, Repr

namespace Piece

/-- The bytes of the string that a piece covers. -/
def source : Piece → Bytes
  | literal b => [b]
  | escape c => [c.byte]
  | raw run => run
  | hex b => [b]

/-- The bytes that a piece puts into the literal. -/
def written : Piece → Bytes
  | literal b => [b]
  | escape c => ['\\', c.letter].map Char.toUInt8
  | raw run => run
  | hex b => ['\\', hexDigit (b.toNat / 16), hexDigit (b.toNat % 16)].map Char.toUInt8

end Piece

/-- The pieces of a string, from left to right. -/
def pieces : Bytes → List Piece
  | [] => []
  | b :: rest =>
    match Control.ofByte? b with
    | some c => .escape c :: pieces rest
    | none =>
      if isPrintable b then .literal b :: pieces rest
      else if 1 < runLength (b :: rest) then
        .raw ((b :: rest).take (runLength (b :: rest))) ::
          pieces (rest.drop (runLength (b :: rest) - 1))
      else .hex b :: pieces rest
termination_by data => data.length

/-- Nothing of a string is lost and nothing is covered twice. -/
theorem flatMap_source_pieces (data : Bytes) : (pieces data).flatMap Piece.source = data := by
  fun_induction pieces data with
  | case1 => rfl
  | case2 b rest c h ih => simp [ih, Piece.source, Control.byte_of_ofByte? h]
  | case3 b rest _ _ ih => simp [ih, Piece.source]
  | case4 b rest _ _ h ih =>
    obtain ⟨n, hn⟩ : ∃ n, runLength (b :: rest) = n + 1 :=
      ⟨_, (Nat.sub_add_cancel (Nat.le_of_lt h)).symm⟩
    rw [List.flatMap_cons, ih, Piece.source, hn]
    simp
  | case5 b rest _ _ _ ih => simp [ih, Piece.source]

/-- The double quote. -/
def quoteByte : UInt8 := 0x22

/-- What stands between the quotes of a string literal. -/
def literalBody (data : Bytes) : Bytes :=
  (pieces data).flatMap Piece.written

/-- The literal of a string. -/
def quoted (data : Bytes) : Bytes :=
  quoteByte :: literalBody data ++ [quoteByte]

end LuaChunk
