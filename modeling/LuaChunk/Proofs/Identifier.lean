import LuaChunk.Proofs.Listing.Lines
import LuaChunk.Proofs.Printing

/-!
# Identifiers and their literals

An identifier is recognised in the characters of a string and its literal is made of the bytes,
which are cut as multi-byte text.  `IsIdentifier` is the grammar on the bytes.  No byte of it has an
escape letter, and those of ASCII are printable, so an identifier in ASCII stands in its literal as
it is; `Constant.isIdentifier_iff` puts this together with what a listing marks.
-/

namespace LuaChunk

/-- The letters of Latin-1. -/
def IsLetter (b : UInt8) : Prop :=
  0x41 ≤ b ∧ b ≤ 0x5A ∨ 0x61 ≤ b ∧ b ≤ 0x7A ∨ b = 0xAA ∨ b = 0xB5 ∨ b = 0xBA ∨
    0xC0 ≤ b ∧ b ≤ 0xD6 ∨ 0xD8 ≤ b ∧ b ≤ 0xF6 ∨ 0xF8 ≤ b ∧ b ≤ 0xFF

/-- The digits of ASCII. -/
def IsDigit (b : UInt8) : Prop :=
  0x30 ≤ b ∧ b ≤ 0x39

/-- The bytes that begin an identifier: letters and the underscore. -/
def IsIdentifierByte (b : UInt8) : Prop :=
  b = 0x5F ∨ IsLetter b

instance : DecidablePred IsLetter := fun b => by unfold IsLetter; infer_instance

instance : DecidablePred IsDigit := fun b => by unfold IsDigit; infer_instance

instance : DecidablePred IsIdentifierByte := fun b => by unfold IsIdentifierByte; infer_instance

/-- The bytes of an identifier. -/
inductive IsIdentifier : Bytes → Prop
  | mk {first : UInt8} {rest : Bytes} :
    IsIdentifierByte first →
    (∀ b ∈ rest, IsIdentifierByte b ∨ IsDigit b) →
    (∀ word ∈ reservedWords, first :: rest ≠ Latin1.bytes word) →
    IsIdentifier (first :: rest)

/-- A character that may begin an identifier is a letter or the underscore. -/
lemma isIdentifierStart_iff (b : UInt8) :
    isIdentifierStart (Char.ofNat b.toNat) = true ↔ IsIdentifierByte b := by
  have underscore : Char.ofNat b.toNat = '_' ↔ b = 0x5F := by
    rw [← Char.toNat_inj, Latin1.toNat_ofNat_byte, ← UInt8.toNat_inj]
    rfl
  simp only [isIdentifierStart, Latin1.isLetter, Latin1.toNat_ofNat_byte, IsIdentifierByte,
    IsLetter, Bool.or_eq_true, Bool.and_eq_true, beq_iff_eq, decide_eq_true_eq, underscore,
    UInt8.le_iff_toNat_le, ← UInt8.toNat_inj, or_assoc]
  rfl

/-- A character that may continue an identifier is such a character or a digit. -/
lemma isIdentifierRest_iff (b : UInt8) :
    isIdentifierRest (Char.ofNat b.toNat) = true ↔ IsIdentifierByte b ∨ IsDigit b := by
  simp only [isIdentifierRest, Bool.or_eq_true, isIdentifierStart_iff, Latin1.isDigit,
    Latin1.toNat_ofNat_byte, Bool.and_eq_true, decide_eq_true_eq, IsDigit, UInt8.le_iff_toNat_le]
  rfl

/-- A text that is decoded is one of the reserved words if its bytes are those of one. -/
lemma contains_reservedWords_iff (data : Bytes) :
    reservedWords.contains (Latin1.decode data) = true ↔
      ∃ word ∈ reservedWords, data = Latin1.bytes word := by
  have texts : ∀ word ∈ reservedWords, Latin1.IsText word := by decide
  rw [List.contains_iff_mem]
  constructor
  · intro mem
    exact ⟨_, mem, (Latin1.bytes_decode data).symm⟩
  · rintro ⟨word, mem, rfl⟩
    rw [Latin1.decode_bytes (texts word mem)]
    exact mem

/-- The test of a string constant agrees with the grammar of identifiers. -/
lemma isIdentifier_string_iff (data : Bytes) :
    (Constant.string data).isIdentifier = true ↔ IsIdentifier data := by
  have free : (!reservedWords.contains (Latin1.decode data)) = true ↔
      ∀ word ∈ reservedWords, data ≠ Latin1.bytes word := by
    rw [Bool.not_eq_true', Bool.eq_false_iff, ne_eq, contains_reservedWords_iff]
    push Not
    rfl
  rw [Constant.isIdentifier, isIdentifierText, Bool.and_eq_true, free]
  cases data with
  | nil =>
    constructor
    · rintro ⟨-, empty⟩
      cases empty
    · rintro ⟨⟩
  | cons first rest =>
    rw [Latin1.decode, String.toList_ofList, List.map_cons]
    simp only [Bool.and_eq_true, List.all_map, List.all_eq_true, Function.comp_apply,
      isIdentifierStart_iff, isIdentifierRest_iff]
    constructor
    · rintro ⟨unreserved, start, others⟩
      exact .mk start others unreserved
    · rintro ⟨start, others, unreserved⟩
      exact ⟨unreserved, start, others⟩

/-- An identifier has letters, digits and underscores only. -/
lemma IsIdentifier.bytes {data : Bytes} (h : IsIdentifier data) :
    ∀ b ∈ data, IsIdentifierByte b ∨ IsDigit b := by
  cases h with
  | mk start others _ => exact List.forall_mem_cons.mpr ⟨.inl start, others⟩

/-- No byte of an identifier is written with an escape letter. -/
lemma IsIdentifier.ofByte?_eq_none {data : Bytes} (h : IsIdentifier data) :
    ∀ b ∈ data, Control.ofByte? b = none := by
  have other : ∀ c : Control, ¬ (IsIdentifierByte c.byte ∨ IsDigit c.byte) := by
    intro c
    cases c <;> decide
  intro b mem
  cases e : Control.ofByte? b with
  | none => rfl
  | some c =>
    rw [← Control.byte_of_ofByte? e] at mem
    exact absurd (h.bytes _ mem) (other c)

/-- An identifier of ASCII bytes has printable bytes only. -/
lemma IsIdentifier.isPrintable {data : Bytes} (h : IsIdentifier data)
    (ascii : ∀ b ∈ data, b < 0x80) : ∀ b ∈ data, isPrintable b = true := by
  intro b mem
  have low := ascii b mem
  have kind := h.bytes b mem
  simp only [IsIdentifierByte, IsLetter, IsDigit, LuaChunk.isPrintable, Bool.and_eq_true,
    decide_eq_true_eq, UInt8.le_iff_toNat_le, UInt8.lt_iff_toNat_lt, ← UInt8.toNat_inj,
    UInt8.reduceToNat] at low kind ⊢
  omega

/-- A string of printable bytes without escape letters is cut into its bytes. -/
lemma pieces_of_printable {data : Bytes} (plain : ∀ b ∈ data, Control.ofByte? b = none)
    (printable : ∀ b ∈ data, isPrintable b = true) : pieces data = data.map Piece.literal := by
  suffices cut : CutsInto data (data.map Piece.literal) from cut.eq_pieces.symm
  induction data with
  | nil => exact .nil
  | cons b data ih =>
    rw [List.forall_mem_cons] at plain printable
    exact .literal plain.1 printable.1 (ih plain.2 printable.2)

/-- An identifier of ASCII bytes is its own literal, between quotes. -/
lemma IsIdentifier.literal_eq {data : Bytes} (h : IsIdentifier data)
    (ascii : ∀ b ∈ data, b < 0x80) :
    (Constant.string data).literal = .ok (quoteByte :: data ++ [quoteByte]) := by
  have written : data.flatMap (fun b => (Piece.literal b).written) = data :=
    List.flatMap_singleton' data
  rw [Constant.literal, quoted, literalBody,
    pieces_of_printable h.ofByte?_eq_none (h.isPrintable ascii), List.flatMap_map, written]

/-- An identifier has no piece that is an escape of a control character. -/
lemma IsIdentifier.escape_not_mem {data : Bytes} (h : IsIdentifier data) (c : Control) :
    .escape c ∉ pieces data := by
  intro mem
  have inside : c.byte ∈ (pieces data).flatMap Piece.source :=
    List.mem_flatMap.mpr ⟨_, mem, List.mem_singleton_self _⟩
  rw [flatMap_source_pieces] at inside
  have none := h.ofByte?_eq_none _ inside
  rw [Control.ofByte?_byte] at none
  cases none

/-- What follows the number of a string of ASCII in a listing: the mark stands only behind a literal
that is the string between quotes. -/
lemma Listing.quoted_append_mark {data : Bytes} (ascii : ∀ b ∈ data, b < 0x80) :
    (quoted data ++
        if (Constant.string data).isIdentifier then Latin1.bytes identifierMark else []) =
      if (Constant.string data).isIdentifier then
        quoteByte :: data ++ [quoteByte] ++ Latin1.bytes " [ident]"
      else quoted data := by
  split
  case isTrue holds =>
    rw [Except.ok.inj (((isIdentifier_string_iff data).mp holds).literal_eq ascii)]
    rfl
  case isFalse => exact List.append_nil _

/-- The constants that are identifiers are the strings of the grammar: a letter of Latin-1 or an
underscore, then such bytes and digits of ASCII, and none of the twenty-one reserved words.  No
piece of an identifier has an escape letter, and an identifier in ASCII stands between the quotes of
its literal as it is, so that in a listing the mark stands behind no other string of ASCII. -/
theorem Constant.isIdentifier_iff :
    (∀ data, (string data).isIdentifier = true ↔ IsIdentifier data) ∧
    (∀ c : Constant, c.isIdentifier = true → ∃ data, c = string data) ∧
    (reservedWords.length = 21 ∧ reservedWords.Nodup) ∧
    (∀ b ∈ [0xB2, 0xB3, 0xB9], ∀ data, b ∈ data → (string data).isIdentifier = false) ∧
    (∀ data, (string data).isIdentifier = true →
      (∀ c, .escape c ∉ pieces data) ∧
      ((∀ b ∈ data, b < 0x80) →
        (string data).literal = .ok (quoteByte :: data ++ [quoteByte]))) ∧
    ∀ data, (∀ b ∈ data, b < 0x80) →
      ∃ literal, (string data).literal = .ok literal ∧ ∀ (n : Nat) (t : Transcript),
        ∃ t', Listing.entry n (.string data) t = .ok () t' ∧
          t'.sink.written.toList = t.sink.written.toList ++
            t.sink.added (Latin1.bytes (Listing.numbering n) ++
              if (string data).isIdentifier then
                quoteByte :: data ++ [quoteByte] ++ Latin1.bytes " [ident]"
              else literal) ++ [0x0A] := by
  refine ⟨isIdentifier_string_iff, ?_, by decide, ?_, ?_, ?_⟩
  · intro c holds
    cases c with
    | string data => exact ⟨data, rfl⟩
    | nil => cases holds
    | boolean => cases holds
    | number => cases holds
  · intro b superscript data mem
    apply Bool.eq_false_of_not_eq_true
    intro holds
    have kind := ((isIdentifier_string_iff data).mp holds).bytes b mem
    simp only [List.mem_cons, List.not_mem_nil, or_false] at superscript
    rcases superscript with rfl | rfl | rfl
    · exact absurd kind (by decide)
    · exact absurd kind (by decide)
    · exact absurd kind (by decide)
  · intro data holds
    have h := (isIdentifier_string_iff data).mp holds
    exact ⟨h.escape_not_mem, h.literal_eq⟩
  · intro data ascii
    refine ⟨quoted data, rfl, fun n t => ?_⟩
    refine ⟨_, Listing.entry_of_ok n rfl rfl t, ?_⟩
    rw [Listing.quoted_append_mark ascii, ← Sink.written_put]
    exact Sink.toList_written_append _ _

/-- Letters that stand together for a multi-byte run are an identifier, which has no piece with an
escape letter.  A reserved word with one letter more is an identifier too and stands in its literal
as it is. -/
theorem Constant.isIdentifier_iff_samples :
    (IsIdentifier [0xC3, 0xAA, 0x31] ∧
      pieces [0xC3, 0xAA, 0x31] = [.raw [0xC3, 0xAA], .literal 0x31] ∧
      ∀ c, .escape c ∉ pieces [0xC3, 0xAA, 0x31]) ∧
    (string (Latin1.bytes "and")).isIdentifier = false ∧
    (string (Latin1.bytes "andy")).literal =
      .ok (quoteByte :: Latin1.bytes "andy" ++ [quoteByte]) ∧
    (string [0x78, 0xB2]).isIdentifier = false := by
  obtain ⟨grammar, -, -, superscripts, kept, -⟩ := isIdentifier_iff
  have run : (string [0xC3, 0xAA, 0x31]).isIdentifier = true := by decide +kernel
  have word : (string (Latin1.bytes "andy")).isIdentifier = true := by decide +kernel
  have ascii : (Latin1.bytes "andy").all (· < 0x80) = true := by decide
  refine ⟨⟨(grammar _).mp run, by decide +kernel, (kept _ run).1⟩, by decide +kernel, ?_,
    superscripts 0xB2 List.mem_cons_self _ (by decide)⟩
  apply (kept _ word).2
  intro b mem
  exact of_decide_eq_true (List.all_eq_true.mp ascii b mem)

end LuaChunk
