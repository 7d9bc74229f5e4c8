import LuaChunk.Proofs.Encode.Stopping
import LuaChunk.Proofs.RoundTrip

/-!
# Reading and writing back

A function that was read under the standard header is its own normal form, so reading what is
written of it yields it again.  It is written at all exactly if none of its integers is negative,
since reading takes integers with a sign and writing does not; `Proto.encode_readChunk` puts both
together.
-/

namespace LuaChunk

section

variable {n : Int} {bs : Bytes}

/-- An integer that was read has its sign already. -/
lemma wrap_eq_self (stores : standardHeader.StoresInt n bs) : wrap n = n :=
  if_pos (Emission.int_bounds stores).2

/-- A constant that was read is in normal form. -/
lemma PoolEntry.normalize_eq_self {v : PoolEntry} (stores : standardHeader.StoresConstant v bs) :
    v.normalize = v := by
  cases stores with
  | nil => rfl
  | false => rfl
  | true => rfl
  | number stored =>
    cases stored with
    | integer nonzero => exact absurd rfl nonzero
    | double => rfl
    | single => rfl
  | empty => rfl
  | string => rfl

/-- A local variable that was read is in normal form. -/
lemma LocalVariable.normalize_eq_self {l : LocalVariable}
    (stores : standardHeader.StoresLocal l bs) : l.normalize = l := by
  cases stores with
  | mk _ hFirst hLast => rw [normalize, wrap_eq_self hFirst, wrap_eq_self hLast]

/-- What leaves each member of a list alone that was read leaves the list alone. -/
lemma map_eq_self {α : Type} {F : Format α} {f : α → α} {xs : List α}
    (stores : standardHeader.StoresList F xs bs) (same : ∀ x ∈ xs, ∀ bs, F x bs → f x = x) :
    xs.map f = xs := by
  obtain ⟨-, -, each⟩ := stores
  refine (List.map_congr_left fun x mem => ?_).trans (List.map_id xs)
  obtain ⟨stored, hx⟩ := each.exists_of_mem mem
  exact same x mem stored hx

/-- The fields of a function that were read are in normal form, inside the function around. -/
lemma FunctionBody.normalize_eq_self {outer : String} {b : FunctionBody} {before after : Bytes}
    (hBefore : standardHeader.StoresBefore outer b before)
    (hAfter : standardHeader.StoresAfter b after) : b.normalize outer = b := by
  obtain ⟨hName, hSource, hFirst, hLast, -, -, -, -, hCode, hConstants⟩ := hBefore
  obtain ⟨hLines, hLocals, hUpvalues⟩ := hAfter
  -- A name that is still empty was inherited from a function without one.
  have source : (if b.source = "" then outer else b.source) = b.source := by
    rw [hSource]
    split
    · exact ite_self outer
    · rfl
  rw [normalize, source, wrap_eq_self hFirst, wrap_eq_self hLast,
    map_eq_self hConstants fun _ _ _ => PoolEntry.normalize_eq_self,
    map_eq_self hLines fun _ _ _ => wrap_eq_self,
    map_eq_self hLocals fun _ _ _ => LocalVariable.normalize_eq_self]

/-- A function that was read is its own normal form. -/
lemma Proto.normalizeIn_eq_self {outer : String} {p : Proto}
    (stores : standardHeader.StoresProto outer p bs) : p.normalizeIn outer = p := by
  induction p using nestedInduction generalizing outer bs with
  | mk body nested ih =>
    obtain ⟨_, _, _, hBefore, hNested, hAfter, rfl⟩ := Header.storesProto_iff.mp stores
    rw [normalizeIn, normalizeAllIn_eq_map, FunctionBody.normalize_eq_self hBefore hAfter,
      map_eq_self hNested fun q mem _ stored => ih q mem stored]

/-- The lists in the tree of a function that was read are not too long to be read again. -/
lemma Proto.hasShortLists_of_stores {outer : String} {p : Proto}
    (stores : standardHeader.StoresProto outer p bs) : ∀ f ∈ p.functions, f.HasShortLists := by
  induction p using nestedInduction generalizing outer bs with
  | mk body nested ih =>
    obtain ⟨_, _, _, hBefore, hNested, hAfter, rfl⟩ := Header.storesProto_iff.mp stores
    refine forall_functions_iff.mpr ⟨?_, fun q mem => ?_⟩
    · obtain ⟨-, -, -, -, -, -, -, -, hCode, hConstants⟩ := hBefore
      obtain ⟨hLines, hLocals, hUpvalues⟩ := hAfter
      exact ⟨Emission.length_lt_of_stores hCode, Emission.length_lt_of_stores hConstants,
        Emission.length_lt_of_stores hNested, Emission.length_lt_of_stores hLines,
        Emission.length_lt_of_stores hLocals, Emission.length_lt_of_stores hUpvalues⟩
    · obtain ⟨-, -, each⟩ := hNested
      obtain ⟨_, stored⟩ := each.exists_of_mem mem
      exact ih q mem stored

end

/-- A header is determined by its bytes. -/
lemma Header.bytes_inj {h h' : Header} (same : h.bytes = h'.bytes) : h = h' := by
  cases h
  cases h'
  cases List.append_cancel_left same
  rfl

/-- What is read of a chunk that begins with the standard header is stored under this header. -/
lemma exists_stores_of_readChunk {withSummary : Bool} {data : Bytes} {p : Proto} {c : Cursor}
    (standard : standardHeader.bytes <+: data)
    (read : readChunk withSummary (.start data) = .ok p c) :
    ∃ stored, standardHeader.StoresProto "" p stored := by
  obtain ⟨_, ⟨h, stored, -, stores, rfl⟩, passed⟩ :=
    (recognises_readChunk withSummary).sound (Nat.lt_succ_self _) read
  obtain ⟨behind, e⟩ := standard
  have same : standardHeader.bytes = h.bytes := by
    have parts : standardHeader.bytes ++ behind = h.bytes ++ (stored ++ c.rest) :=
      e.trans (passed.rest.trans (List.append_assoc _ _ _))
    exact List.append_inj_left parts rfl
  obtain rfl := Header.bytes_inj same
  exact ⟨stored, stores⟩

/-- A negative integer is all that stops the writing of a function that was read. -/
lemma Proto.isNegativeInTree_of_encode {p : Proto} {stored : Bytes} {fault : WriteFault}
    (stores : standardHeader.StoresProto "" p stored) (failed : p.encode = .error fault) :
    IsNegativeInTree p fault := by
  have header : Emission.header.StopsOnly (IsNegativeInTree p) := .of_complete rfl
  have body := Emission.stopsOnly_proto stores fun _ => Emission.stopsOnly_name_empty
  exact header.append body fault (Emission.toExcept_eq_error_iff.mp failed)

/-- The integers in the tree of a written function are not negative. -/
lemma Proto.nonneg_of_encode {p : Proto} {bytes : Bytes} (encoded : p.encode = .ok bytes) :
    ∀ f ∈ p.functions, ∀ n ∈ f.body.integers, 0 ≤ n := by
  obtain ⟨_, written, -⟩ := exists_of_encode encoded
  intro f inside
  obtain ⟨⟨_, hBefore⟩, _, hAfter⟩ := Emission.exists_writes_of_mem_functions written f inside
  exact Emission.nonneg_of_writes_body hBefore hAfter

/-- A function that is read of a chunk with the standard header is written exactly if none of its
integers is negative, which is all that can stop it; what is written of it is read as the function
again. -/
theorem Proto.encode_readChunk {withSummary : Bool} {data : Bytes} {p : Proto} {c : Cursor}
    (standard : standardHeader.bytes <+: data)
    (read : readChunk withSummary (.start data) = .ok p c) :
    ((∃ bytes, p.encode = .ok bytes) ↔ ∀ f ∈ p.functions, ∀ n ∈ f.body.integers, 0 ≤ n) ∧
    (∀ fault, p.encode = .error fault →
      ∃ f ∈ p.functions, ∃ n ∈ f.body.integers, n < 0 ∧ fault = .fieldRange 4 n) ∧
    ∀ bytes, p.encode = .ok bytes → ∀ withSummary', ∃ c',
      readChunk withSummary' (.start bytes) = .ok p c' ∧ c'.position = bytes.length ∧
        c'.rest = [] := by
  obtain ⟨stored, stores⟩ := exists_stores_of_readChunk standard read
  refine ⟨⟨fun ⟨bytes, encoded⟩ => nonneg_of_encode encoded, fun nonneg => ?_⟩,
    fun fault failed => isNegativeInTree_of_encode stores failed, fun bytes encoded summary => ?_⟩
  · cases encoded : p.encode with
    | ok bytes => exact ⟨bytes, rfl⟩
    | error fault =>
      obtain ⟨f, inside, n, mem, negative, -⟩ := isNegativeInTree_of_encode stores encoded
      exact absurd (nonneg f inside n mem) (not_le.mpr negative)
  · obtain ⟨_, written, rfl⟩ := exists_of_encode encoded
    have again := Emission.stores_proto "" (hasShortLists_of_stores stores) written
    rw [normalizeIn_eq_self stores] at again
    have read := exists_readChunk_of_stores again [] summary
    rw [List.append_nil] at read
    exact read

/-- The fields of all functions that a chunk is read as, or none if it is not read. -/
def readBodies (data : Bytes) : List FunctionBody :=
  match readChunk false (.start data) with
  | .ok p _ => p.functions.map Proto.body
  | .error _ _ => []

/-- A chunk that is read as the fields of some functions is read. -/
lemma exists_of_readBodies {data : Bytes} {b : FunctionBody} {bodies : List FunctionBody}
    (e : readBodies data = b :: bodies) :
    ∃ p c, readChunk false (.start data) = .ok p c ∧ p.functions.map Proto.body = b :: bodies := by
  unfold readBodies at e
  split at e
  case h_1 p c read => exact ⟨p, c, read, e⟩
  case h_2 => cases e

/-- A chunk that is not what is written of its function: a byte other than zero ends its name, it
has fewer instructions than none, the number of its truth value is nine, and the function nested in
it has a name of size one. -/
def looseChunk : Bytes :=
  standardHeader.bytes ++ [2, 0, 0, 0, 0, 0, 0, 0, 0x61, 0x21] ++ List.replicate 12 0 ++
    [255, 255, 255, 255, 2, 0, 0, 0, 1, 9, 4, 0, 0, 0, 0, 0, 0, 0, 0, 1, 0, 0, 0] ++
    [1, 0, 0, 0, 0, 0, 0, 0, 7] ++ List.replicate 48 0

/-- The function of the loose chunk is written, and read again. -/
theorem Proto.encode_readChunk_looseChunk :
    ∃ p c bytes c', readChunk false (.start looseChunk) = .ok p c ∧ p.encode = .ok bytes ∧
      readChunk true (.start bytes) = .ok p c' ∧ c'.rest = [] := by
  have bodies : readBodies looseChunk =
      [{ (default : FunctionBody) with source := "a", constants := [.boolean 1, .string []] },
        { (default : FunctionBody) with source := "a" }] := by decide +kernel
  obtain ⟨p, c, read, e⟩ := exists_of_readBodies bodies
  have nonneg : ∀ b ∈ p.functions.map body, ∀ n ∈ b.integers, 0 ≤ n := by
    rw [e]
    decide
  obtain ⟨written, -, again⟩ := encode_readChunk (by decide +kernel) read
  obtain ⟨bytes, encoded⟩ := written.mpr (List.forall_mem_map.mp nonneg)
  obtain ⟨c', read', -, rest⟩ := again bytes encoded true
  exact ⟨p, c, bytes, c', read, encoded, read', rest⟩

/-- A chunk whose function begins on the line before line zero. -/
def negativeLineChunk : Bytes :=
  standardHeader.bytes ++ List.replicate 8 0 ++ [255, 255, 255, 255] ++ List.replicate 32 0

/-- Not every chunk with the standard header that is read is a function that can be written. -/
theorem Proto.not_forall_exists_encode :
    ¬ ∀ (data : Bytes) (p : Proto) (c : Cursor), standardHeader.bytes <+: data →
      readChunk false (.start data) = .ok p c → ∃ bytes, p.encode = .ok bytes := by
  intro always
  have bodies : readBodies negativeLineChunk =
      [{ (default : FunctionBody) with firstLine := -1 }] := by decide +kernel
  obtain ⟨p, c, read, e⟩ := exists_of_readBodies bodies
  obtain ⟨bytes, encoded⟩ := always negativeLineChunk p c (by decide +kernel) read
  have nonneg : ∀ b ∈ p.functions.map body, ∀ n ∈ b.integers, 0 ≤ n :=
    List.forall_mem_map.mpr (nonneg_of_encode encoded)
  rw [e] at nonneg
  exact absurd nonneg (by decide)

end LuaChunk
