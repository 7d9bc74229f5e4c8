import LuaChunk.Proofs.Decode.Depth
import LuaChunk.Proofs.Number.Digits

/-!
# How many bytes are asked for

Reading asks for as many bytes as a field is wide or as the size in front of a string says.  A width
is stored in one byte, and a size in no more bytes than one byte can say, so none of these numbers
has many digits.  Where a chunk ends too early, the message can therefore always show how many bytes
were asked for (`asksFew_readChunk`).
-/

namespace LuaChunk

/-- A step that fails for lack of bytes has asked for a number of them with few digits. -/
def AsksFew {α : Type} (x : ReadM α) : Prop :=
  ∀ c n offset c', x c = .error ⟨.unexpectedEnd n, offset⟩ c' → IsShort n

namespace AsksFew

variable {α β : Type} {x : ReadM α} {f : α → ReadM β} {n : Nat}

/-- A step that always succeeds asks for nothing. -/
lemma of_succeeds (succeeds : ∀ c, ∃ a c', x c = .ok a c') : AsksFew x := by
  intro c n offset c' failed
  obtain ⟨a, c₁, done⟩ := succeeds c
  cases done.symm.trans failed

/-- A value is yielded without asking for bytes. -/
lemma pure (a : α) : AsksFew (pure a) :=
  of_succeeds fun c => ⟨a, c, rfl⟩

/-- The state is changed without asking for bytes. -/
lemma modify (g : Cursor → Cursor) : AsksFew (modify g) :=
  of_succeeds fun c => ⟨(), g c, rfl⟩

/-- To give up for another reason is not to ask for bytes. -/
lemma failAt {fault : ReadFault} (other : fault.IsRefusal) (offset : Int) :
    AsksFew (failAt fault offset : ReadM α) := by
  intro c n offset' c' failed
  cases failed
  exact other.elim

/-- Nor is it to insist on a condition. -/
lemma require {fault : ReadFault} (other : fault.IsRefusal) (holds : Bool) (offset : Int) :
    AsksFew (require holds fault offset) := by
  cases holds with
  | false => exact failAt other offset
  | true => exact pure ()

/-- As many bytes are asked for as are to be read. -/
lemma bytes (short : IsShort n) : AsksFew (readBytes n) := by
  intro c m offset c' failed
  obtain ⟨bs, t, -, -, read⟩ | ⟨-, lacking⟩ := readBytes_cases n c
  · cases failed.symm.trans read
  · cases failed.symm.trans lacking
    exact short

/-- The second of two steps has to ask for few bytes only where the first one leads to it. -/
lemma bind_of_ok (hx : AsksFew x) (hf : ∀ a c c', x c = .ok a c' → AsksFew (f a)) :
    AsksFew (x >>= f) := by
  intro c n offset c' failed
  obtain failed | ⟨a, c₁, done, failed⟩ := bind_eq_error_iff.mp failed
  · exact hx c n offset c' failed
  · exact hf a c c₁ done c₁ n offset c' failed

/-- Two steps ask for few bytes if each of them does. -/
lemma bind (hx : AsksFew x) (hf : ∀ a, AsksFew (f a)) : AsksFew (x >>= f) :=
  hx.bind_of_ok fun a _ _ _ => hf a

/-- A byte is one byte. -/
lemma byte : AsksFew readByte := by
  rw [readByte_eq]
  exact (bytes (by decide)).bind fun _ => pure _

/-- A loop asks for few bytes if its step does. -/
lemma times (hx : AsksFew x) (n : Nat) : AsksFew (readTimes x n) := by
  induction n with
  | zero => exact pure []
  | succ n ih => exact hx.bind fun _ => ih.bind fun _ => pure _

end AsksFew

/-- A width that is stored in one byte has few digits. -/
lemma isShort_toNat (width : UInt8) : IsShort width.toNat := by
  refine isShort_of_lt_two_pow (k := 8) ?_ (by decide)
  rw [Int.natAbs_natCast]
  exact width.toNat_lt

namespace Header

variable (h : Header)

/-- A size that a chunk stores has few digits, whatever its width. -/
lemma isShort_of_storesSize {h : Header} {n : Nat} {bs : Bytes} (stores : h.StoresSize n bs) :
    IsShort n := by
  have fits : (n : Int).natAbs < 2 ^ (8 * h.sizeSize.toNat) := by
    rw [Int.natAbs_natCast, pow_mul]
    exact stores.lt
  have bound := h.sizeSize.toNat_lt
  exact isShort_of_lt_two_pow fits (by unfold digitLimit; omega)

/-- An unsigned number is as wide as a byte can say. -/
lemma asksFew_readUnsigned (width : UInt8) : AsksFew (h.readUnsigned width.toNat) :=
  (AsksFew.bytes (isShort_toNat width)).bind fun _ => .pure _

/-- An integer is as wide as the header says. -/
lemma asksFew_readInt : AsksFew h.readInt :=
  (AsksFew.bytes (isShort_toNat h.intSize)).bind fun _ => .pure _

/-- A string is as long as the size in front of it says. -/
lemma asksFew_readString? : AsksFew h.readString? := by
  refine (h.asksFew_readUnsigned h.sizeSize).bind_of_ok fun size c c' read => ?_
  obtain ⟨_, stores, -⟩ := (h.recognises_readUnsigned _).sound (Nat.lt_succ_self _) read
  split
  case isTrue => exact .pure none
  case isFalse => exact (AsksFew.bytes (isShort_of_storesSize stores)).bind fun _ => .pure _

/-- A name is a string. -/
lemma asksFew_readName : AsksFew h.readName := by
  refine h.asksFew_readString?.bind fun s => ?_
  cases s with
  | none => exact .pure ""
  | some data => exact .pure _

/-- Behind its tag a constant is a byte, a number or a string. -/
lemma asksFew_readPayload (kind : Kind) : AsksFew (h.readPayload kind) := by
  cases kind with
  | nil => exact .pure _
  | boolean => exact AsksFew.byte.bind fun _ => .pure _
  | number =>
    have number : AsksFew h.readNumber :=
      (AsksFew.bytes (isShort_toNat h.numberSize)).bind fun _ => .pure _
    exact number.bind fun _ => .pure _
  | string => exact h.asksFew_readString?.bind fun _ => .pure _

/-- A tag is one byte, and one that is refused asks for nothing more. -/
lemma asksFew_readConstant : AsksFew h.readConstant := by
  rw [readConstant_eq]
  refine (AsksFew.of_succeeds fun c => ⟨c, c, rfl⟩).bind fun c => AsksFew.byte.bind fun tag => ?_
  have refusal : ReadFault.IsRefusal (.illegalTag tag) := trivial
  cases Kind.ofTag? tag with
  | some kind => exact h.asksFew_readPayload kind
  | none => exact .failAt refusal _

/-- A local variable is a name and two integers. -/
lemma asksFew_readLocal : AsksFew h.readLocal :=
  h.asksFew_readName.bind fun _ => h.asksFew_readInt.bind fun _ => h.asksFew_readInt.bind fun _ =>
    .pure _

/-- A list is an integer and its members. -/
lemma asksFew_readList {α : Type} {step : ReadM α} (few : AsksFew step) :
    AsksFew (h.readList step) :=
  h.asksFew_readInt.bind fun count => few.times count.toNat

/-- The fields of a function in front of the functions nested in it. -/
lemma asksFew_readBefore (outer : String) : AsksFew (h.readBefore outer) :=
  h.asksFew_readName.bind fun _ => h.asksFew_readInt.bind fun _ => h.asksFew_readInt.bind fun _ =>
    AsksFew.byte.bind fun _ => AsksFew.byte.bind fun _ => AsksFew.byte.bind fun _ =>
    AsksFew.byte.bind fun _ =>
    (h.asksFew_readList (h.asksFew_readUnsigned h.instructionSize)).bind fun _ =>
    (h.asksFew_readList h.asksFew_readConstant).bind fun _ => .pure _

/-- The fields of a function behind the functions nested in it. -/
lemma asksFew_readAfter (before : FunctionBody) : AsksFew (h.readAfter before) :=
  (h.asksFew_readList h.asksFew_readInt).bind fun _ =>
    (h.asksFew_readList h.asksFew_readLocal).bind fun _ =>
    (h.asksFew_readList h.asksFew_readName).bind fun _ => .pure _

/-- A function asks for few bytes if the functions nested in it do. -/
lemma asksFew_readProtoWith {readNested : String → ReadM (List Proto)}
    (few : ∀ source, AsksFew (readNested source)) (outer : String) :
    AsksFew (h.readProtoWith readNested outer) := by
  rw [readProtoWith_eq]
  exact (AsksFew.modify _).bind fun _ => (h.asksFew_readBefore outer).bind fun before =>
    (few before.source).bind fun _ => (h.asksFew_readAfter before).bind fun _ =>
    (AsksFew.modify _).bind fun _ => .pure _

/-- A function asks for few bytes, whatever the bound on its nesting. -/
lemma asksFew_readProtoWithin (depth : Nat) (outer : String) :
    AsksFew (h.readProtoWithin depth outer) := by
  induction depth generalizing outer with
  | zero => exact h.asksFew_readProtoWith (fun _ => .pure []) outer
  | succ depth ih =>
    exact h.asksFew_readProtoWith (fun source => h.asksFew_readList (ih source)) outer

/-- A function asks for few bytes. -/
lemma asksFew_readProto (outer : String) : AsksFew (h.readProto outer) :=
  fun c => h.asksFew_readProtoWithin (c.rest.length / 4) outer c

end Header

/-- The header asks for its signature and for single bytes. -/
lemma asksFew_readHeader : AsksFew readHeader := by
  have widths : AsksFew readWidths :=
    AsksFew.byte.bind fun _ => AsksFew.byte.bind fun _ => AsksFew.byte.bind fun _ =>
      AsksFew.byte.bind fun _ => AsksFew.byte.bind fun _ => AsksFew.byte.bind fun _ =>
      AsksFew.byte.bind fun _ => .pure _
  rw [readHeader_eq]
  refine .bind (.bytes (by decide)) fun _ => .bind (.require ?_ _ _) fun _ =>
    .bind .byte fun _ => .bind (.require ?_ _ _) fun _ => .bind widths fun _ =>
    .bind (.require ?_ _ _) fun _ => .pure _
  · exact trivial
  · exact trivial
  · exact trivial

/-- A chunk never asks for more bytes than a message can show. -/
theorem asksFew_readChunk (withSummary : Bool) : AsksFew (readChunk withSummary) := by
  refine asksFew_readHeader.bind fun h => ?_
  cases withSummary with
  | false => exact h.asksFew_readProto ""
  | true => exact (AsksFew.modify _).bind fun _ => h.asksFew_readProto ""

end LuaChunk
