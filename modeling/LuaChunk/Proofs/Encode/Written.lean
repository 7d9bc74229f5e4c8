import LuaChunk.Encode
import LuaChunk.Proofs.NormalForm
import LuaChunk.Proofs.Format

/-!
# What writing produces

An emission writes bytes if nothing stops it and these are its bytes.  What the emission of a field
writes stores the normal form of the field under the standard header; `Emission.stores_proto` puts
the fields together by induction over the tree of functions.
-/

namespace LuaChunk

/-- Chunks are written with the least significant byte first. -/
lemma standardHeader_byteOrder : standardHeader.byteOrder = .little :=
  rfl

/-- A text is encoded as the bytes that spell it. -/
lemma Latin1.encode?_eq_some_iff {text : String} {data : Bytes} :
    encode? text = some data ↔ Spells text data := by
  constructor
  · intro encoded
    unfold encode? at encoded
    split at encoded
    case isTrue all =>
      cases encoded
      unfold Spells bytes
      rw [List.map_map]
      apply List.map_congr_left
      intro c mem
      have small : c.toNat < 256 := of_decide_eq_true (List.all_eq_true.mp all c mem)
      exact (Nat.mod_eq_of_lt small).symm
    case isFalse => cases encoded
  · intro spells
    rw [spells_iff.mp spells, encode?_decode]

namespace Emission

/-- An emission that nothing stops and that has the given bytes. -/
def Writes (e : Emission) (bs : Bytes) : Prop :=
  e = ofBytes bs

/-- Bytes are written as they are. -/
lemma writes_ofBytes_iff {bs bs' : Bytes} : (ofBytes bs).Writes bs' ↔ bs = bs' := by
  constructor
  · intro e
    exact congrArg bytes e
  · rintro rfl
    rfl

/-- A stopped emission writes nothing. -/
lemma not_writes_stopped {fault : WriteFault} {bs : Bytes} : ¬ (stopped fault).Writes bs := by
  intro e
  cases e

/-- Emissions in order write what each of them writes. -/
lemma writes_append_iff {a b : Emission} {bs : Bytes} :
    (a ++ b).Writes bs ↔ ∃ front back, a.Writes front ∧ b.Writes back ∧ bs = front ++ back := by
  cases a with | mk aBytes aStop =>
  cases b with | mk bBytes bStop =>
  constructor
  · intro e
    cases aStop with
    | some fault => cases e
    | none =>
      cases e
      exact ⟨aBytes, bBytes, rfl, rfl, rfl⟩
  · rintro ⟨front, back, ha, hb, rfl⟩
    cases ha
    cases hb
    rfl

/-- The bytes of an emission are those that it writes. -/
lemma toExcept_eq_ok_iff {e : Emission} {bs : Bytes} : e.toExcept = .ok bs ↔ e.Writes bs := by
  cases e with | mk bytes stop =>
  cases stop with
  | none =>
    constructor
    · intro e
      cases e
      rfl
    · intro e
      cases e
      rfl
  | some fault => exact ⟨nofun, nofun⟩

/-- The fault of an emission is what stops it. -/
lemma toExcept_eq_error_iff {e : Emission} {fault : WriteFault} :
    e.toExcept = .error fault ↔ e.stop = some fault := by
  cases e with | mk bytes stop =>
  cases stop with
  | none => exact ⟨nofun, nofun⟩
  | some fault' =>
    change Except.error fault' = Except.error fault ↔ some fault' = some fault
    rw [Except.error.injEq, Option.some.injEq]

/-- A complete emission succeeds with its bytes. -/
lemma toExcept_of_stop {e : Emission} (complete : e.stop = none) : e.toExcept = .ok e.bytes := by
  rw [toExcept, complete]

/-- Two emissions in order are stopped by what stops the first one, or else the second one. -/
lemma stop_append (a b : Emission) : (a ++ b).stop = a.stop.or b.stop := by
  cases a with | mk bytes stop =>
  cases stop <;> rfl

/-- An emission that writes bytes is complete. -/
lemma Writes.stop {e : Emission} {bs : Bytes} (writes : e.Writes bs) : e.stop = none := by
  rw [show e = ofBytes bs from writes]
  rfl

/-- An emission succeeds exactly if nothing stops it. -/
lemma exists_toExcept_iff {e : Emission} : (∃ bs, e.toExcept = .ok bs) ↔ e.stop = none := by
  constructor
  · intro ⟨bs, written⟩
    exact (toExcept_eq_ok_iff.mp written).stop
  · intro complete
    exact ⟨_, toExcept_of_stop complete⟩

/-- A number in a field of a given width. -/
lemma writes_field_iff {width : Nat} {n : Int} {bs : Bytes} :
    (field width n).Writes bs ↔
      ∃ m : Nat, n = m ∧ m < 256 ^ width ∧ bs = toLittleEndian width m := by
  unfold field
  rw [Nat.pow_eq]
  constructor
  · intro writes
    split at writes
    case isTrue fits =>
      obtain ⟨m, rfl⟩ := Int.eq_ofNat_of_zero_le fits.1
      exact ⟨m, rfl, Int.ofNat_lt.mp fits.2, (writes_ofBytes_iff.mp writes).symm⟩
    case isFalse => exact absurd writes not_writes_stopped
  · rintro ⟨m, rfl, fits, rfl⟩
    rw [if_pos ⟨Int.natCast_nonneg m, Int.ofNat_lt.mpr fits⟩]
    rfl

/-- A number that fits its field is written. -/
lemma stop_field {width m : Nat} (fits : m < 256 ^ width) : (field width m).stop = none :=
  Writes.stop (writes_field_iff.mpr ⟨m, rfl, fits, rfl⟩)

/-- What a field holds under the standard header. -/
lemma storesUnsigned_of_writes {width : Nat} {n : Int} {bs : Bytes}
    (writes : (field width n).Writes bs) :
    ∃ m : Nat, n = m ∧ standardHeader.StoresUnsigned width m bs := by
  obtain ⟨m, rfl, fits, rfl⟩ := writes_field_iff.mp writes
  refine ⟨m, rfl, Header.storesUnsigned_iff.mpr ⟨length_toLittleEndian _ _, ?_⟩⟩
  exact (unsigned_toLittleEndian fits).symm

/-- A written integer stores an instruction. -/
lemma stores_instruction {n : Int} {bs : Bytes} (writes : (int n).Writes bs) :
    standardHeader.StoresInstruction n bs := by
  obtain ⟨m, rfl, stored⟩ := storesUnsigned_of_writes writes
  exact .mk stored

/-- A written size stores a size. -/
lemma stores_size {n : Int} {m : Nat} {bs : Bytes} (e : n = m) (writes : (size n).Writes bs) :
    standardHeader.StoresSize m bs := by
  obtain ⟨m', e', stored⟩ := storesUnsigned_of_writes writes
  rw [Int.ofNat_inj.mp (e.symm.trans e')]
  exact stored

/-- An integer is stored as the one with a sign that has the same bytes. -/
lemma stores_int {n : Int} {bs : Bytes} (writes : (int n).Writes bs) :
    standardHeader.StoresInt (wrap n) bs := by
  obtain ⟨m, rfl, fits, rfl⟩ := writes_field_iff.mp writes
  refine Header.storesSigned_iff.mpr ⟨length_toLittleEndian _ _, ?_⟩
  rw [standardHeader_byteOrder, signed_toLittleEndian fits, wrap]
  split <;> split <;> omega

/-- A byte is written as itself. -/
lemma byte_toNat (b : UInt8) : byte b.toNat = ofBytes [b] := by
  have lt := b.toNat_lt
  have fits : (0 : Int) ≤ b.toNat ∧ (b.toNat : Int) < 256 := by omega
  rw [byte, if_pos fits, lowByte, Int.emod_eq_of_lt fits.1 fits.2, Int.toNat_natCast,
    UInt8.ofNat_toNat]

/-- A written flag stores a flag, and every stored flag is written so. -/
lemma writes_byte_iff {n : Int} {bs : Bytes} : (byte n).Writes bs ↔ StoresByte n bs := by
  constructor
  · intro writes
    by_cases fits : 0 ≤ n ∧ n < 256
    · have e : ((UInt8.ofNat n.toNat).toNat : Int) = n := by
        rw [UInt8.toNat_ofNat_of_lt' ((Int.toNat_lt fits.1).mpr fits.2)]
        exact Int.toNat_of_nonneg fits.1
      rw [← e] at writes ⊢
      rw [byte_toNat] at writes
      rw [← writes_ofBytes_iff.mp writes]
      exact .mk _
    · rw [byte, if_neg fits] at writes
      exact absurd writes not_writes_stopped
  · rintro ⟨b⟩
    exact byte_toNat b

/-- Bytes with one more behind them are written if their number fits the size field. -/
lemma stop_terminated {data : Bytes} (short : data.length + 1 < 256 ^ 8) :
    (terminated data).stop = none := by
  rw [terminated, stop_append, ← Int.natCast_succ, size, stop_field short]
  rfl

/-- A string is written if its length fits the size field. -/
lemma stop_string {data : Bytes} (short : data.length + 1 < 256 ^ 8) :
    (string data).stop = none := by
  unfold string
  split
  · rfl
  · exact stop_terminated short

/-- Bytes with one more behind them store a string, be it without bytes. -/
lemma stores_terminated {data bs : Bytes} (writes : (terminated data).Writes bs) :
    standardHeader.StoresString (some data) bs := by
  obtain ⟨bSize, _, written, behind, rfl⟩ := writes_append_iff.mp writes
  obtain rfl := writes_ofBytes_iff.mp behind
  rw [← List.append_assoc]
  exact .some (stores_size (Int.natCast_succ data.length).symm written)

/-- A string, where no bytes are stored as no string. -/
lemma stores_string {data bs : Bytes} (writes : (string data).Writes bs) :
    standardHeader.StoresString (if data = [] then none else some data) bs := by
  cases data with
  | nil =>
    rw [string, if_pos List.isEmpty_nil] at writes
    exact .none (stores_size Int.natCast_zero.symm writes)
  | cons b data =>
    rw [string, if_neg (by simp)] at writes
    exact stores_terminated writes

/-- A written name stores the name. -/
lemma stores_name {text : String} {bs : Bytes} (writes : (name text).Writes bs) :
    standardHeader.StoresName text bs := by
  unfold name at writes
  split at writes
  case h_1 data encoded =>
    have spells := Latin1.encode?_eq_some_iff.mp encoded
    have stored := stores_string writes
    split at stored
    case isTrue empty =>
      rw [Latin1.spells_iff.mp spells, empty]
      exact .none stored
    case isFalse => exact .some spells stored
  case h_2 => exact absurd writes not_writes_stopped

/-- What is written of a number are the bytes of the double that is its normal form. -/
lemma exists_double_of_writes {v : Number} {bs : Bytes} (writes : (number v).Writes bs) :
    ∃ d, v.normalize = .double d ∧ bs = toLittleEndian 8 d.word := by
  -- Rounding gets another name, since unfolding it would count up to a bound of two thousand bits.
  obtain ⟨round, e⟩ : ∃ round : Int → Option Double, round = Double.ofInt? := ⟨_, rfl⟩
  rw [Writes, number.eq_def, ← e] at writes
  split at writes
  case h_1 d =>
    cases writes
    exact ⟨d, rfl, rfl⟩
  case h_2 n =>
    split at writes
    case h_1 d rounded =>
      cases writes
      rw [e] at rounded
      exact ⟨d, Number.normalize_whole_eq_double_iff.mpr rounded, rfl⟩
    case h_2 => cases writes

/-- A written number stores the double that it is converted to. -/
lemma stores_number {v : Number} {bs : Bytes} (writes : (number v).Writes bs) :
    standardHeader.StoresNumber v.normalize bs := by
  obtain ⟨d, e, rfl⟩ := exists_double_of_writes writes
  rw [e]
  refine .double rfl rfl (Header.storesUnsigned_iff.mpr ⟨length_toLittleEndian _ _, ?_⟩)
  exact (unsigned_toLittleEndian d.word_lt).symm

/-- What follows a tag. -/
lemma writes_tagged (tag : UInt8) {n : Int} {e : Emission} {bs : Bytes} (eq : n = tag.toNat)
    (writes : (byte n ++ e).Writes bs) : ∃ back, e.Writes back ∧ bs = tag :: back := by
  obtain ⟨front, back, first, behind, rfl⟩ := writes_append_iff.mp writes
  rw [eq, byte_toNat] at first
  rw [← writes_ofBytes_iff.mp first]
  exact ⟨back, behind, rfl⟩

/-- A written constant stores the constant that it is read as. -/
lemma stores_constant {v : PoolEntry} {bs : Bytes} (writes : (constant v).Writes bs) :
    standardHeader.StoresConstant v.normalize bs := by
  cases v with
  | nil =>
    change (byte (0 : UInt8).toNat).Writes bs at writes
    rw [byte_toNat, writes_ofBytes_iff] at writes
    rw [← writes]
    exact .nil
  | boolean v =>
    obtain ⟨back, written, rfl⟩ := writes_tagged 1 (by decide) writes
    obtain ⟨b⟩ := writes_byte_iff.mp written
    rw [PoolEntry.normalize]
    split
    case isTrue zero =>
      have e : b = 0 := UInt8.toNat_inj.mp (Int.natCast_eq_zero.mp zero)
      rw [e]
      exact .false
    case isFalse pos =>
      refine .true fun zero => pos ?_
      rw [zero]
      rfl
  | number v =>
    obtain ⟨back, written, rfl⟩ := writes_tagged 3 (by decide) writes
    exact .number (stores_number written)
  | string data =>
    obtain ⟨back, written, rfl⟩ := writes_tagged 4 (by decide) writes
    exact .string (stores_terminated written)
  | foreign v => exact absurd writes not_writes_stopped

/-- A written local variable stores the one that it is read as. -/
lemma stores_localVariable {l : LocalVariable} {bs : Bytes} (writes : (localVariable l).Writes bs) :
    standardHeader.StoresLocal l.normalize bs := by
  simp only [localVariable, writes_append_iff] at writes
  obtain ⟨_, _, ⟨_, _, hName, hFirst, rfl⟩, hLast, rfl⟩ := writes
  exact .mk (stores_name hName) (stores_int hFirst) (stores_int hLast)

/-- Emissions in order store what each of them does. -/
lemma each_of_writes_concat {α β : Type} {item : α → Emission} {F : Format β} {f : α → β}
    {xs : List α} {bs : Bytes}
    (stores : ∀ x ∈ xs, ∀ bs, (item x).Writes bs → F (f x) bs)
    (writes : (concat (xs.map item)).Writes bs) : Each F (xs.map f) bs := by
  induction xs generalizing bs with
  | nil =>
    rw [List.map_nil, concat, writes_ofBytes_iff] at writes
    rw [← writes]
    exact .nil
  | cons x xs ih =>
    rw [List.map_cons, concat] at writes
    obtain ⟨front, back, first, others, rfl⟩ := writes_append_iff.mp writes
    rw [List.forall_mem_cons] at stores
    exact .cons (stores.1 front first) (ih stores.2 others)

/-- A list of what is stored as its normal form, if its length is not stored as a negative one. -/
lemma stores_list {α β : Type} {item : α → Emission} {F : Format β} {f : α → β} {xs : List α}
    {bs : Bytes} (stores : ∀ x ∈ xs, ∀ bs, (item x).Writes bs → F (f x) bs)
    (short : xs.length < 2 ^ 31) (writes : (list item xs).Writes bs) :
    standardHeader.StoresList F (xs.map f) bs := by
  obtain ⟨bCount, bItems, hCount, hItems, rfl⟩ := writes_append_iff.mp writes
  refine .mk (stores_int hCount) ?_ (each_of_writes_concat stores hItems)
  have small : (xs.length : Int) < 2 ^ 31 := by exact_mod_cast short
  rw [List.length_map, wrap, if_pos small, Int.toNat_natCast]

/-- A written list of values that are read as they are stores the list. -/
lemma stores_list_id {α : Type} {item : α → Emission} {F : Format α} {xs : List α} {bs : Bytes}
    (stores : ∀ x ∈ xs, ∀ bs, (item x).Writes bs → F x bs) (short : xs.length < 2 ^ 31)
    (writes : (list item xs).Writes bs) : standardHeader.StoresList F xs bs := by
  have stored := stores_list (f := id) stores short writes
  rw [List.map_id] at stored
  exact stored

/-- The written fields in front store the fields that they are read as. -/
lemma stores_bodyBefore {outer : String} {b : FunctionBody} {bs : Bytes}
    (code : b.code.length < 2 ^ 31) (constants : b.constants.length < 2 ^ 31)
    (writes : (bodyBefore b).Writes bs) :
    standardHeader.StoresBefore outer (b.normalize outer) bs := by
  simp only [bodyBefore, writes_append_iff] at writes
  obtain ⟨_, _, ⟨_, _, ⟨_, _, ⟨_, _, ⟨_, _, ⟨_, _, ⟨_, _, ⟨_, _, hName, hFirst, rfl⟩, hLast, rfl⟩,
    hUpvalues, rfl⟩, hParameters, rfl⟩, hVararg, rfl⟩, hStack, rfl⟩, hCode, rfl⟩, hConstants,
    rfl⟩ := writes
  exact .mk (stores_name hName) rfl (stores_int hFirst) (stores_int hLast)
    (writes_byte_iff.mp hUpvalues) (writes_byte_iff.mp hParameters) (writes_byte_iff.mp hVararg)
    (writes_byte_iff.mp hStack) (stores_list_id (fun _ _ _ => stores_instruction) code hCode)
    (stores_list (fun _ _ _ => stores_constant) constants hConstants)

/-- The written fields behind store the fields that they are read as. -/
lemma stores_bodyAfter {outer : String} {b : FunctionBody} {bs : Bytes}
    (lines : b.lines.length < 2 ^ 31) (locals : b.locals.length < 2 ^ 31)
    (upvalues : b.upvalues.length < 2 ^ 31) (writes : (bodyAfter b).Writes bs) :
    standardHeader.StoresAfter (b.normalize outer) bs := by
  simp only [bodyAfter, writes_append_iff] at writes
  obtain ⟨_, _, ⟨_, _, hLines, hLocals, rfl⟩, hUpvalues, rfl⟩ := writes
  exact .mk (stores_list (fun _ _ _ => stores_int) lines hLines)
    (stores_list (fun _ _ _ => stores_localVariable) locals hLocals)
    (stores_list_id (fun _ _ _ => stores_name) upvalues hUpvalues)

/-- Functions are written one after another. -/
lemma protos_eq_concat (ps : List Proto) : protos ps = concat (ps.map proto) := by
  induction ps with
  | nil => rfl
  | cons p ps ih => rw [protos, ih, List.map_cons, concat]

/-- A function is emitted as its fields with the list of functions nested in it in the middle. -/
lemma proto_eq (body : FunctionBody) (nested : List Proto) :
    proto ⟨body, nested⟩ = bodyBefore body ++ list proto nested ++ bodyAfter body := by
  rw [proto, protos_eq_concat, list, append_assoc (bodyBefore body)]

/-- A function is stored as its normal form, if none of the lists in its tree is too long. -/
lemma stores_proto (outer : String) {p : Proto} {bs : Bytes}
    (short : ∀ f ∈ p.functions, f.HasShortLists) (writes : (proto p).Writes bs) :
    standardHeader.StoresProto outer (p.normalizeIn outer) bs := by
  -- The name around a function changes on the way down, so the induction is for all such names.
  induction p using Proto.nestedInduction generalizing outer bs with
  | mk body nested ih =>
    rw [Proto.forall_functions_iff] at short
    obtain ⟨⟨code, constants, nestedShort, lines, locals, upvalues⟩, others⟩ := short
    simp only [proto_eq, writes_append_iff] at writes
    obtain ⟨_, _, ⟨_, _, hBefore, hNested, rfl⟩, hAfter, rfl⟩ := writes
    rw [Proto.normalizeIn, Proto.normalizeAllIn_eq_map, Header.storesProto_iff]
    exact ⟨_, _, _, stores_bodyBefore code constants hBefore,
      stores_list (fun q mem _ written => ih q mem _ (others q mem) written) nestedShort hNested,
      stores_bodyAfter lines locals upvalues hAfter, rfl⟩

/-- Each member of a written list is written. -/
lemma exists_writes_of_mem {α : Type} {item : α → Emission} {xs : List α} {bs : Bytes}
    (writes : (list item xs).Writes bs) {x : α} (mem : x ∈ xs) : ∃ bs, (item x).Writes bs := by
  obtain ⟨_, bItems, -, hItems, rfl⟩ := writes_append_iff.mp writes
  have each : Each (fun x bs => (item x).Writes bs) (xs.map id) bItems :=
    each_of_writes_concat (fun _ _ _ written => written) hItems
  rw [List.map_id] at each
  exact each.exists_of_mem mem

/-- The fields of each function in a written tree are written. -/
lemma exists_writes_of_mem_functions {p : Proto} {bs : Bytes} (writes : (proto p).Writes bs) :
    ∀ f ∈ p.functions, (∃ before, (bodyBefore f.body).Writes before) ∧
      ∃ after, (bodyAfter f.body).Writes after := by
  induction p using Proto.nestedInduction generalizing bs with
  | mk body nested ih =>
    simp only [proto_eq, writes_append_iff] at writes
    obtain ⟨_, _, ⟨_, _, hBefore, hNested, -⟩, hAfter, -⟩ := writes
    refine Proto.forall_functions_iff.mpr ⟨⟨⟨_, hBefore⟩, _, hAfter⟩, fun q mem => ?_⟩
    obtain ⟨_, written⟩ := exists_writes_of_mem hNested mem
    exact ih q mem written

/-- Each entry of the pools of a written tree is written. -/
lemma exists_writes_of_mem_constants {p f : Proto} {bs : Bytes} (writes : (proto p).Writes bs)
    (inside : f ∈ p.functions) {e : PoolEntry} (mem : e ∈ f.body.constants) :
    ∃ bs, (constant e).Writes bs := by
  obtain ⟨⟨_, hBefore⟩, -⟩ := exists_writes_of_mem_functions writes f inside
  obtain ⟨_, _, -, hConstants, -⟩ := writes_append_iff.mp hBefore
  exact exists_writes_of_mem hConstants mem

/-- Each whole number among the constants of a written tree rounds to a double. -/
lemma exists_double_of_mem_constants {p f : Proto} {bs : Bytes} (writes : (proto p).Writes bs)
    (inside : f ∈ p.functions) {v : Number} (mem : PoolEntry.number v ∈ f.body.constants) :
    ∃ d, v.normalize = .double d := by
  obtain ⟨_, written⟩ := exists_writes_of_mem_constants writes inside mem
  obtain ⟨_, number, -⟩ := writes_tagged 3 (by decide) written
  obtain ⟨d, e, -⟩ := exists_double_of_writes number
  exact ⟨d, e⟩

end Emission

end LuaChunk
