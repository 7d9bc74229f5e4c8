import LuaChunk.Proofs.Number.Characters

/-!
# Latin-1 text

Listings are written one byte for each character, so each text in them has to be one of Latin-1.
Such texts are closed under concatenation; decoded bytes are such texts, and so are the decimal
numerals and the texts of all numbers.
-/

namespace LuaChunk

namespace Latin1

/-- The byte of a character below U+0100 has the number of the character. -/
lemma toNat_toUInt8 {c : Char} (h : c.toNat < 256) : c.toUInt8.toNat = c.toNat :=
  Nat.mod_eq_of_lt h

/-- Characters below U+0100 are determined by their bytes. -/
lemma toUInt8_inj {c d : Char} (hc : c.toNat < 256) (hd : d.toNat < 256) :
    c.toUInt8 = d.toUInt8 ↔ c = d := by
  constructor
  · intro same
    apply Char.toNat_inj.mp
    rw [← toNat_toUInt8 hc, ← toNat_toUInt8 hd, same]
  · rintro rfl
    rfl

/-- Every character is one of Latin-1. -/
def AreCharacters (cs : List Char) : Prop :=
  ∀ c ∈ cs, c.toNat < 256

/-- Every character of a text is one of Latin-1. -/
def IsText (text : String) : Prop :=
  AreCharacters text.toList

instance (cs : List Char) : Decidable (AreCharacters cs) :=
  List.decidableBAll _ cs

instance (text : String) : Decidable (IsText text) :=
  inferInstanceAs (Decidable (AreCharacters text.toList))

namespace AreCharacters

variable {c : Char} {cs ds : List Char}

/-- Characters one behind the other all lie below U+0100 if both parts do. -/
lemma append (front : AreCharacters cs) (back : AreCharacters ds) : AreCharacters (cs ++ ds) :=
  List.forall_mem_append.mpr ⟨front, back⟩

/-- A character below U+0100 may be repeated. -/
lemma replicate (h : c.toNat < 256) (n : Nat) : AreCharacters (List.replicate n c) := by
  intro d mem
  rw [List.eq_of_mem_replicate mem]
  exact h

/-- Numeric characters lie below U+0100. -/
lemma of_numeric (h : AreNumeric cs) : AreCharacters cs :=
  fun c mem => Nat.lt_of_le_of_lt (bounds_of_isNumeric (h c mem)).2 (by decide)

end AreCharacters

/-- Texts one behind the other are Latin-1 text exactly if both are. -/
@[simp]
lemma isText_append {s t : String} : IsText (s ++ t) ↔ IsText s ∧ IsText t := by
  rw [IsText, String.toList_append]
  exact List.forall_mem_append

namespace IsText

variable {s t : String}

/-- A Latin-1 text is encoded as its bytes. -/
lemma encode?_eq (h : IsText t) : encode? t = some (bytes t) := by
  refine if_pos (List.all_eq_true.mpr fun c mem => ?_)
  exact decide_eq_true (h c mem)

/-- A text that can be encoded is Latin-1 text, and encoded as its bytes. -/
lemma of_encode? {bs : Bytes} (encoded : encode? t = some bs) : IsText t ∧ bs = Latin1.bytes t := by
  unfold encode? at encoded
  split at encoded
  case isTrue all =>
    cases encoded
    exact ⟨fun c mem => of_decide_eq_true (List.all_eq_true.mp all c mem), rfl⟩
  case isFalse => cases encoded

/-- What is not text of Latin-1 is not encoded. -/
lemma encode?_eq_none (refused : ¬ IsText t) : encode? t = none := by
  rw [encode?_eq_none_iff]
  unfold IsText AreCharacters at refused
  push Not at refused
  exact refused

/-- Characters below U+0100 make a Latin-1 text. -/
lemma ofList {cs : List Char} (h : AreCharacters cs) : IsText (String.ofList cs) := by
  rw [IsText, String.toList_ofList]
  exact h

/-- Whichever of two Latin-1 texts is chosen is one. -/
lemma ite {holds : Prop} [Decidable holds] (yes : IsText s) (no : IsText t) :
    IsText (if holds then s else t) := by
  split
  · exact yes
  · exact no

/-- Decoded bytes are Latin-1 text. -/
lemma decode (data : Bytes) : IsText (decode data) := by
  refine ofList fun c mem => ?_
  obtain ⟨b, -, rfl⟩ := List.mem_map.mp mem
  rw [toNat_ofNat_byte]
  exact b.toNat_lt

/-- The digits of a natural number are Latin-1 text. -/
@[simp]
lemma toString_nat (n : Nat) : IsText (toString n) :=
  .of_numeric (.toString_nat n)

/-- The digits of an integer and its sign are Latin-1 text. -/
@[simp]
lemma toString_int (n : Int) : IsText (toString n) :=
  .of_numeric (.toString_int n)

end IsText

/-- The bytes of a Latin-1 text give it back. -/
lemma decode_bytes {t : String} (h : IsText t) : decode (bytes t) = t := by
  have each : ∀ c ∈ t.toList, ((fun b : UInt8 => Char.ofNat b.toNat) ∘ Char.toUInt8) c = id c := by
    intro c mem
    rw [Function.comp_apply, toNat_toUInt8 (h c mem), Char.ofNat_toNat]
    rfl
  rw [decode, bytes, List.map_map, List.map_congr_left each, List.map_id, String.ofList_toList]

/-- Latin-1 texts are determined by their bytes. -/
lemma bytes_inj {s t : String} (hs : IsText s) (ht : IsText t) (same : bytes s = bytes t) :
    s = t := by
  rw [← decode_bytes hs, same, decode_bytes ht]

end Latin1

/-- The bytes of the characters of numbers stand in a part of ASCII. -/
lemma AreNumeric.bounds_of_mem {cs : List Char} (h : AreNumeric cs) {b : UInt8}
    (mem : b ∈ cs.map Char.toUInt8) : 0x2B ≤ b ∧ b ≤ 0x65 := by
  obtain ⟨c, inside, rfl⟩ := List.mem_map.mp mem
  obtain ⟨low, high⟩ := bounds_of_isNumeric (h c inside)
  rw [UInt8.le_iff_toNat_le, UInt8.le_iff_toNat_le, Latin1.toNat_toUInt8 (by omega)]
  exact ⟨low, high⟩

/-- The text of every number can be written one byte for each character. -/
theorem Number.isText_text {v : Number} {text : String} (shown : v.text = .ok text) :
    Latin1.IsText text :=
  .of_numeric (areNumeric_text shown)

end LuaChunk
