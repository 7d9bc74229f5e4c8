import LuaChunk.Bytes

/-!
# Latin-1 text

In ISO-8859-1 every byte is one character, so `Latin1.decode` never fails and `Latin1.encode?` fails
exactly on text with a character above U+00FF (`Latin1.encode?_decode`).
-/

namespace LuaChunk.Latin1

/-- The text with one character for each byte. -/
def decode (bytes : Bytes) : String :=
  String.ofList (bytes.map fun b => Char.ofNat b.toNat)

/-- The low eight bits of each character. -/
def bytes (text : String) : Bytes :=
  text.toList.map Char.toUInt8

/-- Whether a character is one of the 256 of Latin-1. -/
def isCharacter (c : Char) : Bool :=
  c.toNat < 256

/-- The bytes of a text, if every character is one of Latin-1. -/
def encode? (text : String) : Option Bytes :=
  if text.toList.all isCharacter then some (bytes text) else none

/-- The character of a byte has the number of the byte. -/
theorem toNat_ofNat_byte (b : UInt8) : (Char.ofNat b.toNat).toNat = b.toNat := by
  have := b.toNat_lt
  have valid : Nat.isValidChar b.toNat := Or.inl (by omega)
  rw [Char.ofNat, dif_pos valid]
  rfl

/-- The byte of the character of a byte is the byte. -/
theorem toUInt8_ofNat_byte (b : UInt8) : (Char.ofNat b.toNat).toUInt8 = b := by
  have h := toNat_ofNat_byte b
  apply UInt8.toNat_inj.mp
  have := b.toNat_lt
  simp only [Char.toNat] at h
  simp only [Char.toUInt8, UInt32.toNat_toUInt8, h]
  omega

/-- Decoded bytes give themselves back. -/
theorem bytes_decode (bs : Bytes) : bytes (decode bs) = bs := by
  simp [bytes, decode, Function.comp_def, toUInt8_ofNat_byte]

/-- Decoded bytes can be encoded, and give themselves back. -/
theorem encode?_decode (bs : Bytes) : encode? (decode bs) = some bs := by
  have all : (decode bs).toList.all isCharacter = true := by
    simp only [decode, String.toList_ofList, List.all_map, List.all_eq_true, Function.comp_apply,
      isCharacter, toNat_ofNat_byte, decide_eq_true_eq]
    intro b _
    exact b.toNat_lt
  rw [encode?, if_pos all, bytes_decode]

/-- A text has no Latin-1 encoding exactly if one of its characters lies beyond U+00FF. -/
theorem encode?_eq_none_iff {text : String} :
    encode? text = none ↔ ∃ c ∈ text.toList, 256 ≤ c.toNat := by
  simp [encode?, isCharacter]

/-- The letters of Latin-1: the two ASCII alphabets, the two ordinal indicators, the micro sign and
the accented letters, which leave out the multiplication and division signs. -/
def isLetter (c : Char) : Bool :=
  let n := c.toNat
  (0x41 ≤ n && n ≤ 0x5A) || (0x61 ≤ n && n ≤ 0x7A) || n == 0xAA || n == 0xB5 || n == 0xBA ||
    (0xC0 ≤ n && n ≤ 0xD6) || (0xD8 ≤ n && n ≤ 0xF6) || (0xF8 ≤ n && n ≤ 0xFF)

/-- The decimal digits of Latin-1, which leave out its superscripts. -/
def isDigit (c : Char) : Bool :=
  let n := c.toNat
  0x30 ≤ n && n ≤ 0x39

end LuaChunk.Latin1
