import LuaChunk.Proofs.Encode.Written

/-!
# What stops the writing of a function that was read

Under the standard header integers have a sign when they are read and none when they are written.
`Emission.stopsOnly_proto` says that a negative integer is all that can stop the writing of a
function that bytes store, and `Emission.nonneg_of_writes_body` that each one does.
-/

namespace LuaChunk

/-- The fields of a function that are integers with a sign, apart from its lists' lengths. -/
def FunctionBody.integers (b : FunctionBody) : List Int :=
  [b.firstLine, b.lastLine] ++ b.lines ++ b.locals.flatMap fun l => [l.first, l.last]

/-- A fault of a negative integer among the given ones. -/
def IsNegativeIn (ns : List Int) (fault : WriteFault) : Prop :=
  ∃ n ∈ ns, n < 0 ∧ fault = .fieldRange 4 n

/-- A fault of a negative integer in the tree of a function. -/
def IsNegativeInTree (p : Proto) (fault : WriteFault) : Prop :=
  ∃ f ∈ p.functions, IsNegativeIn f.body.integers fault

namespace Emission

/-- Nothing stops an emission but faults of the given kind. -/
def StopsOnly (kind : WriteFault → Prop) (e : Emission) : Prop :=
  ∀ fault, e.stop = some fault → kind fault

variable {kind kind' : WriteFault → Prop}

/-- Nothing stops a complete emission. -/
lemma StopsOnly.of_complete {e : Emission} (complete : e.stop = none) : e.StopsOnly kind := by
  intro fault stop
  rw [complete] at stop
  cases stop

/-- What stops one of two emissions stops them in order. -/
lemma StopsOnly.append {a b : Emission} (ha : a.StopsOnly kind) (hb : b.StopsOnly kind) :
    (a ++ b).StopsOnly kind := by
  cases a with | mk aBytes aStop =>
  cases aStop with
  | none => exact hb
  | some fault => exact ha

/-- Faults of a kind are faults of any wider kind. -/
lemma StopsOnly.mono {e : Emission} (h : e.StopsOnly kind)
    (wider : ∀ fault, kind fault → kind' fault) : e.StopsOnly kind' :=
  fun fault stop => wider fault (h fault stop)

/-- What stops a member stops a list of them. -/
lemma StopsOnly.concat {α : Type} {item : α → Emission} {xs : List α}
    (h : ∀ x ∈ xs, (item x).StopsOnly kind) : (concat (xs.map item)).StopsOnly kind := by
  induction xs with
  | nil => exact .of_complete rfl
  | cons x xs ih =>
    rw [List.forall_mem_cons] at h
    exact h.1.append (ih h.2)

/-- An integer that was read has 32 bits with its sign. -/
lemma int_bounds {n : Int} {bs : Bytes} (stores : standardHeader.StoresInt n bs) :
    -2 ^ 31 ≤ n ∧ n < 2 ^ 31 := by
  obtain ⟨-, lower, upper, -⟩ := stores
  have lower : -256 ^ 4 ≤ 2 * n := lower
  have upper : 2 * n < 256 ^ 4 := upper
  omega

/-- Only its sign stops an integer that was read. -/
lemma stopsOnly_int {ns : List Int} {n : Int} {bs : Bytes} (stores : standardHeader.StoresInt n bs)
    (mem : n ∈ ns) : (int n).StopsOnly (IsNegativeIn ns) := by
  obtain ⟨-, upper⟩ := int_bounds stores
  rcases lt_or_ge n 0 with negative | nonneg
  · intro fault stop
    rw [int, field, if_neg fun fits => absurd fits.1 (not_le.mpr negative)] at stop
    exact ⟨n, mem, negative, (Option.some.inj stop).symm⟩
  · obtain ⟨m, rfl⟩ := Int.eq_ofNat_of_zero_le nonneg
    exact .of_complete (stop_field (by omega))

/-- An instruction that was read is written. -/
lemma stopsOnly_instruction {n : Int} {bs : Bytes}
    (stores : standardHeader.StoresInstruction n bs) : (int n).StopsOnly kind := by
  obtain ⟨stored⟩ := stores
  exact .of_complete (stop_field stored.lt)

/-- A flag that was read is written. -/
lemma stopsOnly_byte {n : Int} {bs : Bytes} (stores : StoresByte n bs) : (byte n).StopsOnly kind :=
  .of_complete (writes_byte_iff.mpr stores).stop

/-- A name spelled by bytes is written if their number fits the size field. -/
lemma stopsOnly_name_of_spells {text : String} {data : Bytes} (spells : Latin1.Spells text data)
    (short : data.length + 1 < 256 ^ 8) : (name text).StopsOnly kind := by
  rw [name, Latin1.encode?_eq_some_iff.mpr spells]
  exact .of_complete (stop_string short)

/-- The empty name is written. -/
lemma stopsOnly_name_empty : (name "").StopsOnly kind :=
  have spells : Latin1.Spells "" [] := rfl
  stopsOnly_name_of_spells spells (by norm_num)

/-- The bytes of a string that was read are not too many to be written. -/
lemma length_lt_of_storesString {data bs : Bytes}
    (stores : standardHeader.StoresString (some data) bs) : data.length + 1 < 256 ^ 8 := by
  cases stores with
  | some size => exact size.lt

/-- A name that was read is written. -/
lemma stopsOnly_name {text : String} {bs : Bytes} (stores : standardHeader.StoresName text bs) :
    (name text).StopsOnly kind := by
  cases stores with
  | none => exact stopsOnly_name_empty
  | some spells stored => exact stopsOnly_name_of_spells spells (length_lt_of_storesString stored)

/-- A number that was read is written. -/
lemma stopsOnly_number {v : Number} {bs : Bytes} (stores : standardHeader.StoresNumber v bs) :
    (number v).StopsOnly kind := by
  cases stores with
  | integer nonzero => exact absurd rfl nonzero
  | double => exact .of_complete rfl
  | single _ four => cases four

/-- A constant that was read is written. -/
lemma stopsOnly_constant {v : PoolEntry} {bs : Bytes}
    (stores : standardHeader.StoresConstant v bs) : (constant v).StopsOnly kind := by
  cases stores with
  | nil => exact stopsOnly_byte (.mk 0)
  | false => exact (stopsOnly_byte (.mk 1)).append (stopsOnly_byte (.mk 0))
  | true => exact (stopsOnly_byte (.mk 1)).append (stopsOnly_byte (.mk 1))
  | number stored => exact (stopsOnly_byte (.mk 3)).append (stopsOnly_number stored)
  | empty => exact (stopsOnly_byte (.mk 4)).append (.of_complete (stop_terminated (by norm_num)))
  | string stored =>
    have complete := stop_terminated (length_lt_of_storesString stored)
    exact (stopsOnly_byte (.mk 4)).append (.of_complete complete)

/-- A local variable that was read is stopped only by a negative integer of its own. -/
lemma stopsOnly_localVariable {ns : List Int} {l : LocalVariable} {bs : Bytes}
    (stores : standardHeader.StoresLocal l bs) (first : l.first ∈ ns) (last : l.last ∈ ns) :
    (localVariable l).StopsOnly (IsNegativeIn ns) := by
  cases stores with
  | mk hName hFirst hLast =>
    exact ((stopsOnly_name hName).append (stopsOnly_int hFirst first)).append
      (stopsOnly_int hLast last)

/-- What is read as a list has not too many members to be written. -/
lemma length_lt_of_stores {α : Type} {F : Format α} {xs : List α} {bs : Bytes}
    (stores : standardHeader.StoresList F xs bs) : xs.length < 2 ^ 31 := by
  obtain ⟨hCount, len, -⟩ := stores
  have bounds := int_bounds hCount
  omega

/-- What stops its members stops a list that was read. -/
lemma stopsOnly_list {α : Type} {item : α → Emission} {F : Format α} {xs : List α} {bs : Bytes}
    (stores : standardHeader.StoresList F xs bs)
    (h : ∀ x ∈ xs, ∀ bs, F x bs → (item x).StopsOnly kind) : (list item xs).StopsOnly kind := by
  have short := length_lt_of_stores stores
  refine (StopsOnly.of_complete (stop_field (by omega))).append (.concat fun x mem => ?_)
  obtain ⟨-, -, each⟩ := stores
  obtain ⟨stored, hx⟩ := each.exists_of_mem mem
  exact h x mem stored hx

/-- Nothing stops the source name of a function that was read inside one for whose source name this
holds. -/
lemma stopsOnly_source {outer : String} {b : FunctionBody} {bs : Bytes}
    (stores : standardHeader.StoresBefore outer b bs) (around : (name outer).StopsOnly kind) :
    (name b.source).StopsOnly kind := by
  cases stores with
  | mk hName hSource =>
    rw [hSource]
    split
    · -- An inherited name was not read here, but it was read further out.
      exact around
    · exact stopsOnly_name hName

/-- The fields in front that were read are stopped only by a negative integer among them. -/
lemma stopsOnly_bodyBefore {outer : String} {b : FunctionBody} {bs : Bytes}
    (stores : standardHeader.StoresBefore outer b bs)
    (around : (name outer).StopsOnly (IsNegativeIn b.integers)) :
    (bodyBefore b).StopsOnly (IsNegativeIn b.integers) := by
  have source := stopsOnly_source stores around
  cases stores with
  | mk _ _ hFirst hLast hUpvalues hParameters hVararg hStack hCode hConstants =>
    have first : b.firstLine ∈ b.integers := List.mem_cons_self
    have last : b.lastLine ∈ b.integers := List.mem_cons_of_mem _ List.mem_cons_self
    exact source.append (stopsOnly_int hFirst first)
      |>.append (stopsOnly_int hLast last)
      |>.append (stopsOnly_byte hUpvalues)
      |>.append (stopsOnly_byte hParameters)
      |>.append (stopsOnly_byte hVararg)
      |>.append (stopsOnly_byte hStack)
      |>.append (stopsOnly_list hCode fun _ _ _ => stopsOnly_instruction)
      |>.append (stopsOnly_list hConstants fun _ _ _ => stopsOnly_constant)

/-- The fields behind that were read are stopped only by a negative integer among them. -/
lemma stopsOnly_bodyAfter {b : FunctionBody} {bs : Bytes}
    (stores : standardHeader.StoresAfter b bs) :
    (bodyAfter b).StopsOnly (IsNegativeIn b.integers) := by
  cases stores with
  | mk hLines hLocals hUpvalues =>
    have line {n : Int} (mem : n ∈ b.lines) : n ∈ b.integers :=
      List.mem_append_left _ (List.mem_append_right _ mem)
    have bound {l : LocalVariable} (mem : l ∈ b.locals) {n : Int} (h : n ∈ [l.first, l.last]) :
        n ∈ b.integers :=
      List.mem_append_right _ (List.mem_flatMap.mpr ⟨l, mem, h⟩)
    refine (stopsOnly_list hLines fun n mem _ stored => stopsOnly_int stored (line mem))
      |>.append (stopsOnly_list hLocals fun l mem _ stored => ?_)
      |>.append (stopsOnly_list hUpvalues fun _ _ _ => stopsOnly_name)
    exact stopsOnly_localVariable stored (bound mem List.mem_cons_self)
      (bound mem (List.mem_cons_of_mem _ List.mem_cons_self))

/-- Only the signs of the integers in its tree stop a function that was read inside one whose source
name can be written. -/
lemma stopsOnly_proto {outer : String} {p : Proto} {bs : Bytes}
    (stores : standardHeader.StoresProto outer p bs)
    (around : ∀ kind, (name outer).StopsOnly kind) : (proto p).StopsOnly (IsNegativeInTree p) := by
  induction p using Proto.nestedInduction generalizing outer bs with
  | mk body nested ih =>
    obtain ⟨_, _, _, hBefore, hNested, hAfter, rfl⟩ := Header.storesProto_iff.mp stores
    have own (fault : WriteFault) (h : IsNegativeIn body.integers fault) :
        IsNegativeInTree ⟨body, nested⟩ fault :=
      ⟨_, List.mem_cons_self, h⟩
    rw [proto_eq]
    refine (stopsOnly_bodyBefore hBefore (around _)).mono own
      |>.append (stopsOnly_list hNested fun q mem _ stored => ?_)
      |>.append ((stopsOnly_bodyAfter hAfter).mono own)
    refine (ih q mem stored fun kind => stopsOnly_source hBefore (around kind)).mono ?_
    rintro fault ⟨f, inside, h⟩
    exact ⟨f, Proto.mem_functions_of_mem mem inside, h⟩

/-- An integer that is written is not negative. -/
lemma nonneg_of_writes_int {n : Int} {bs : Bytes} (writes : (int n).Writes bs) : 0 ≤ n := by
  obtain ⟨m, rfl, -⟩ := writes_field_iff.mp writes
  exact Int.natCast_nonneg m

/-- The integers of a function whose fields are written are not negative. -/
lemma nonneg_of_writes_body {b : FunctionBody} {before after : Bytes}
    (hBefore : (bodyBefore b).Writes before) (hAfter : (bodyAfter b).Writes after) :
    ∀ n ∈ b.integers, 0 ≤ n := by
  simp only [bodyBefore, writes_append_iff] at hBefore
  obtain ⟨_, _, ⟨_, _, ⟨_, _, ⟨_, _, ⟨_, _, ⟨_, _, ⟨_, _, ⟨_, _, -, hFirst, -⟩, hLast, -⟩, -⟩, -⟩,
    -⟩, -⟩, -⟩, -⟩ := hBefore
  simp only [bodyAfter, writes_append_iff] at hAfter
  obtain ⟨_, _, ⟨_, _, hLines, hLocals, -⟩, -⟩ := hAfter
  intro n mem
  simp only [FunctionBody.integers, List.mem_append, List.mem_cons, List.not_mem_nil, or_false,
    List.mem_flatMap] at mem
  rcases mem with ((rfl | rfl) | line) | ⟨l, inside, bound⟩
  · exact nonneg_of_writes_int hFirst
  · exact nonneg_of_writes_int hLast
  · obtain ⟨_, written⟩ := exists_writes_of_mem hLines line
    exact nonneg_of_writes_int written
  · obtain ⟨_, written⟩ := exists_writes_of_mem hLocals inside
    simp only [localVariable, writes_append_iff] at written
    obtain ⟨_, _, ⟨_, _, -, hFirst, -⟩, hLast, -⟩ := written
    rcases bound with rfl | rfl
    · exact nonneg_of_writes_int hFirst
    · exact nonneg_of_writes_int hLast

end Emission

end LuaChunk
