import LuaChunk.Constant
import LuaChunk.Proofs.Literal.Cut

/-!
# Reading string literals back

`unquote` decodes a string literal at the front of a text, without knowing how literals are cut into
pieces.  It takes back each piece on its own, whatever follows the piece, so that
`Constant.unquote_literal` finds the string in its literal and the rest of the text behind it.
-/

namespace LuaChunk

/-- The byte that a letter or sign behind a backslash names. -/
def namedByte? : UInt8 → Option UInt8
  | 0x61 => some 0x07
  | 0x62 => some 0x08
  | 0x66 => some 0x0C
  | 0x6E => some 0x0A
  | 0x72 => some 0x0D
  | 0x74 => some 0x09
  | 0x76 => some 0x0B
  | 0x22 => some 0x22
  | 0x5C => some 0x5C
  | _ => none

/-- The value of an upper-case hexadecimal digit. -/
def hexValue? (d : UInt8) : Option UInt8 :=
  if 0x30 ≤ d ∧ d ≤ 0x39 then some (d - 0x30)
  else if 0x41 ≤ d ∧ d ≤ 0x46 then some (d - 0x37)
  else none

/-- The byte that two upper-case hexadecimal digits spell. -/
def hexByte? (high low : UInt8) : Option UInt8 := do
  return 16 * (← hexValue? high) + (← hexValue? low)

/-- The string up to the first quote that no backslash escapes, and what follows the quote. -/
def unquoteBody : Bytes → Option (Bytes × Bytes)
  | [] => none
  | b :: rest =>
    let plain := (unquoteBody rest).map (Prod.map (b :: ·) id)
    if b = 0x22 then some ([], rest)
    else if b = 0x5C then
      match rest with
      | [] => plain
      | d :: behind =>
        match namedByte? d with
        | some c => (unquoteBody behind).map (Prod.map (c :: ·) id)
        | none =>
          match behind with
          | [] => plain
          | e :: behind =>
            match hexByte? d e with
            | some c => (unquoteBody behind).map (Prod.map (c :: ·) id)
            | none => plain
    else plain

/-- The string whose literal stands at the front of a text, and what follows the literal. -/
def unquote : Bytes → Option (Bytes × Bytes)
  | [] => none
  | b :: rest => if b = 0x22 then unquoteBody rest else none

/-- A quote ends a literal. -/
lemma unquoteBody_quote (rest : Bytes) : unquoteBody (0x22 :: rest) = some ([], rest) := by
  rw [unquoteBody.eq_def]
  rfl

/-- A byte other than the quote and the backslash stands for itself. -/
lemma unquoteBody_plain {b : UInt8} (quote : b ≠ 0x22) (backslash : b ≠ 0x5C) (rest : Bytes) :
    unquoteBody (b :: rest) = (unquoteBody rest).map (Prod.map (b :: ·) id) := by
  rw [unquoteBody.eq_def]
  dsimp only
  rw [if_neg quote, if_neg backslash]

/-- A backslash and a letter or sign stand for the byte that these name. -/
lemma unquoteBody_named {d c : UInt8} (named : namedByte? d = some c) (rest : Bytes) :
    unquoteBody (0x5C :: d :: rest) = (unquoteBody rest).map (Prod.map (c :: ·) id) := by
  rw [unquoteBody.eq_def]
  simp only [named]
  rfl

/-- A backslash and two hexadecimal digits stand for the byte that these spell. -/
lemma unquoteBody_hex {d e c : UInt8} (named : namedByte? d = none) (hex : hexByte? d e = some c)
    (rest : Bytes) :
    unquoteBody (0x5C :: d :: e :: rest) = (unquoteBody rest).map (Prod.map (c :: ·) id) := by
  rw [unquoteBody.eq_def]
  simp only [named, hex]
  rfl

/-- A run of bytes past the ASCII ones stands for itself. -/
lemma unquoteBody_run {run : Bytes} (high : ∀ b ∈ run, 0x80 ≤ b) (rest : Bytes) :
    unquoteBody (run ++ rest) = (unquoteBody rest).map (Prod.map (run ++ ·) id) := by
  induction run with
  | nil => exact Option.map_id_apply.symm
  | cons b run ih =>
    rw [List.forall_mem_cons] at high
    have quote : b ≠ 0x22 := by
      rintro rfl
      exact absurd high.1 (by decide)
    have backslash : b ≠ 0x5C := by
      rintro rfl
      exact absurd high.1 (by decide)
    rw [List.cons_append, unquoteBody_plain quote backslash, ih high.2, Option.map_map]
    rfl

/-- A hexadecimal digit names no control character and has its value. -/
lemma hexDigit_spec : ∀ n < 16, namedByte? (hexDigit n).toUInt8 = none ∧
    hexValue? (hexDigit n).toUInt8 = some (UInt8.ofNat n) := by
  decide

/-- The two digits of a byte spell it. -/
lemma hexByte?_hexDigit (b : UInt8) :
    hexByte? (hexDigit (b.toNat / 16)).toUInt8 (hexDigit (b.toNat % 16)).toUInt8 = some b := by
  have lt := b.toNat_lt
  obtain ⟨-, high⟩ := hexDigit_spec (b.toNat / 16) (by omega)
  obtain ⟨-, low⟩ := hexDigit_spec (b.toNat % 16) (by omega)
  have value : 16 * UInt8.ofNat (b.toNat / 16) + UInt8.ofNat (b.toNat % 16) = b := by
    apply UInt8.toNat_inj.mp
    simp
    omega
  simp only [hexByte?, high, low, Option.bind_eq_bind, Option.bind_some, Option.pure_def, value]

namespace Piece

/-- A piece that is written as it is has no byte that means something else in a literal. -/
def IsPlain : Piece → Prop
  | literal b => b ≠ 0x22 ∧ b ≠ 0x5C
  | escape _ => True
  | raw run => ∀ b ∈ run, 0x80 ≤ b
  | hex _ => True

/-- What is written of a piece is taken back, whatever follows it. -/
lemma unquoteBody_written {p : Piece} (plain : p.IsPlain) (rest : Bytes) :
    unquoteBody (p.written ++ rest) = (unquoteBody rest).map (Prod.map (p.source ++ ·) id) := by
  cases p with
  | literal b => exact unquoteBody_plain plain.1 plain.2 rest
  | escape c => exact unquoteBody_named (by cases c <;> rfl) rest
  | raw run => exact unquoteBody_run plain rest
  | hex b =>
    -- Upper-case digits are none of the letters that name a byte.
    have lt := b.toNat_lt
    exact unquoteBody_hex (hexDigit_spec _ (by omega)).1 (hexByte?_hexDigit b) rest

end Piece

/-- No piece of a string is written as it is if it means something else in a literal. -/
lemma isPlain_of_mem_pieces (data : Bytes) : ∀ p ∈ pieces data, p.IsPlain := by
  intro p mem
  cases isCut_of_mem_pieces data p mem with
  | literal other =>
    constructor
    · rintro rfl
      cases other
    · rintro rfl
      cases other
  | escape => trivial
  | raw long => exact le_of_mem_run long
  | hex => trivial

/-- The pieces of a string up to the closing quote are taken back one after another. -/
lemma unquoteBody_pieces {ps : List Piece} (plain : ∀ p ∈ ps, p.IsPlain) (rest : Bytes) :
    unquoteBody (ps.flatMap Piece.written ++ quoteByte :: rest) =
      some (ps.flatMap Piece.source, rest) := by
  induction ps with
  | nil => exact unquoteBody_quote rest
  | cons p ps ih =>
    rw [List.forall_mem_cons] at plain
    rw [List.flatMap_cons, List.append_assoc, Piece.unquoteBody_written plain.1, ih plain.2,
      List.flatMap_cons]
    rfl

/-- The literal of a string in front of any text is read as the string, and leaves the text. -/
lemma unquote_quoted (data rest : Bytes) : unquote (quoted data ++ rest) = some (data, rest) := by
  have body := unquoteBody_pieces (isPlain_of_mem_pieces data) rest
  rw [flatMap_source_pieces] at body
  rw [quoted, List.cons_append, List.cons_append, List.append_assoc, List.singleton_append]
  exact body

/-- Every string has a literal, which can be read back from the front of any text, and so no two
strings have the same literal. -/
theorem Constant.unquote_literal :
    (∀ data rest : Bytes, ∃ text, (string data).literal = .ok text ∧
      unquote (text ++ rest) = some (data, rest)) ∧
    Function.Injective fun data => (string data).literal := by
  refine ⟨fun data rest => ⟨quoted data, rfl, unquote_quoted data rest⟩, fun data data' same => ?_⟩
  have e := unquote_quoted data []
  have literals : quoted data = quoted data' := Except.ok.inj same
  rw [literals, unquote_quoted] at e
  cases e
  rfl

end LuaChunk
