import LuaChunk.Proofs.Decode.Payment
import LuaChunk.Proofs.Inverse

/-!
# Small chunks build small trees

A member of a list takes a byte at least, unless the header gives it no width: instructions may have
the width zero, and so may sizes, which are all that the empty name of an upvalue is stored as.
Integers of width zero do no harm, since every length is zero then.

So with these two exceptions the lists of a tree have no more members than the chunk has bytes, and
no list is read by a loop with more iterations than bytes are left.  The exceptions are real: under
a header that allows it, a chunk of 25 bytes stores 127 instructions
(`Proto.not_forall_elements_le`).
-/

namespace LuaChunk

/-- How many members the lists of a function have, apart from the functions nested in it. -/
def FunctionBody.members (b : FunctionBody) : Nat :=
  b.code.length + b.constants.length + b.lines.length + b.locals.length + b.upvalues.length

/-- How many members of the lists of a function may take no bytes. -/
def FunctionBody.freeMembers (h : Header) (b : FunctionBody) : Nat :=
  (if h.instructionSize = 0 then b.code.length else 0) +
    if h.sizeSize = 0 then b.upvalues.length else 0

namespace Proto

/-- How many members the lists of a function and of the functions in it have together. -/
def elements (p : Proto) : Nat :=
  (p.functions.map fun f => f.body.members + f.nested.length).sum

/-- How many of these members may take no bytes. -/
def freeElements (h : Header) (p : Proto) : Nat :=
  (p.functions.map fun f => f.body.freeMembers h).sum

/-- Every function but the root of a tree is a member of one list. -/
lemma sum_nested_add_one (p : Proto) :
    (p.functions.map fun f => f.nested.length).sum + 1 = (p.functions.map fun _ => 1).sum := by
  induction p using nestedInduction with
  | mk body nested ih =>
    have subtrees := congrArg List.sum (List.map_congr_left ih)
    rw [List.sum_map_add, List.map_const', List.sum_replicate, smul_eq_mul] at subtrees
    rw [sum_functions, sum_functions]
    dsimp only
    omega

/-- The elements of a tree and its root are the members of all its functions and the functions
themselves. -/
lemma elements_add_one (p : Proto) :
    p.elements + 1 = ((p.functions.map body).map fun b => b.members + 1).sum := by
  have others := p.sum_nested_add_one
  rw [elements, List.map_map, List.sum_map_add]
  simp only [Function.comp_def, List.sum_map_add]
  omega

end Proto

namespace Header

variable {h : Header} {bs : Bytes} {α : Type}

/-- An integer of width zero is zero. -/
lemma StoresInt.eq_zero {n : Int} (stores : h.StoresInt n bs) (width : h.intSize.toNat = 0) :
    n = 0 := by
  obtain ⟨-, low, high, -⟩ := stores
  rw [width, pow_zero] at low high
  omega

/-- Members that are as wide as an integer take a byte each, or there are none. -/
lemma StoresList.length_le_mul {F : Format α} {xs : List α} {width : Nat}
    (stores : h.StoresList F xs bs) (le : h.intSize.toNat ≤ width) :
    xs.length ≤ width * xs.length := by
  cases stores with
  | mk count length =>
    cases Nat.eq_zero_or_pos h.intSize.toNat with
    | inl zero =>
      rw [count.eq_zero zero] at length
      simp [length]
    | inr pos => exact Nat.le_mul_of_pos_left _ (pos.trans_le le)

/-- A list is no longer than its bytes, unless its members take none. -/
lemma length_le_mul_add_ite (width : UInt8) (n : Nat) :
    n ≤ width.toNat * n + if width = 0 then n else 0 := by
  split
  case isTrue => exact Nat.le_add_left _ _
  case isFalse nonzero =>
    exact Nat.le_mul_of_pos_left n (Nat.pos_of_ne_zero fun e => nonzero (UInt8.toNat_inj.mp e))

/-- The four flags of a function are left over when its members are paid for. -/
lemma StoresAfter.members_add_four_le {b : FunctionBody} (stores : h.StoresAfter b bs) :
    b.members + 4 ≤ b.cost h + b.freeMembers h := by
  have code := length_le_mul_add_ite h.instructionSize b.code.length
  have upvalues := length_le_mul_add_ite h.sizeSize b.upvalues.length
  have constants : b.constants.length ≤ (b.constants.map (PoolEntry.cost h)).sum := by
    have tags := List.length_le_sum_of_one_le (b.constants.map (PoolEntry.cost h)) (by
      simp [PoolEntry.one_le_cost])
    rwa [List.length_map] at tags
  cases stores with
  | mk lines locals =>
    have lines := lines.length_le_mul (le_refl _)
    have locals := locals.length_le_mul
      (show h.intSize.toNat ≤ h.sizeSize.toNat + 2 * h.intSize.toNat by omega)
    simp only [FunctionBody.members, FunctionBody.cost, FunctionBody.freeMembers]
    omega

/-- In a stored function the members of each function, and four more, are paid for or free. -/
lemma StoresProto.forall_members_add_four_le {outer : String} {p : Proto}
    (stores : h.StoresProto outer p bs) :
    ∀ f ∈ p.functions, f.body.members + 4 ≤ f.body.cost h + f.body.freeMembers h := by
  induction p using Proto.nestedInduction generalizing outer bs with
  | mk body nested ih =>
    obtain ⟨_, _, _, -, middle, after, rfl⟩ := storesProto_iff.mp stores
    refine Proto.forall_functions_iff.mpr ⟨after.members_add_four_le, fun q mem => ?_⟩
    cases middle with
    | mk _ _ each =>
      obtain ⟨_, stored⟩ := each.exists_of_mem mem
      exact ih q mem stored

/-- A stored function has no more elements than bytes that it needs, apart from the free ones. -/
lemma StoresProto.elements_le {outer : String} {p : Proto} (stores : h.StoresProto outer p bs) :
    p.elements ≤ p.cost h + p.freeElements h := by
  have total : p.elements + 1 ≤ p.cost h + p.freeElements h := by
    rw [p.elements_add_one, List.map_map, Proto.cost, Proto.freeElements, ← List.sum_map_add]
    apply List.sum_le_sum
    intro f mem
    exact (Nat.add_le_add_left (by decide) _).trans (stores.forall_members_add_four_le f mem)
  exact (Nat.le_succ _).trans total

end Header

section Loops

variable {α : Type} {step : ReadM α}

/-- How many iterations of a loop over a step are begun, up to the first that fails. -/
def iterations (step : ReadM α) : Nat → Cursor → Nat
  | 0, _ => 0
  | n + 1, c =>
    match step c with
    | .ok _ c' => iterations step n c' + 1
    | .error _ _ => 1

/-- A loop that succeeds begins as many iterations as it is to have, and each yields a member. -/
lemma iterations_of_ok {n : Nat} {c c' : Cursor} {xs : List α}
    (done : readTimes step n c = .ok xs c') : iterations step n c = n ∧ xs.length = n := by
  induction n generalizing c c' xs with
  | zero =>
    cases done
    exact ⟨rfl, rfl⟩
  | succ n ih =>
    obtain ⟨a, c₁, first, done⟩ := bind_eq_ok_iff.mp done
    obtain ⟨others, c₂, rest, done⟩ := bind_eq_ok_iff.mp done
    cases done
    obtain ⟨count, length⟩ := ih rest
    simp only [iterations, first, count, List.length_cons, length, and_self]

/-- A loop that fails does so in the last iteration that it begins. -/
lemma exists_of_readTimes_eq_error {n : Nat} {c c' : Cursor} {e : ReadError}
    (failed : readTimes step n c = .error e c') :
    ∃ k xs c₁, iterations step n c = k + 1 ∧ readTimes step k c = .ok xs c₁ ∧
      step c₁ = .error e c' := by
  induction n generalizing c with
  | zero => cases failed
  | succ n ih =>
    obtain first | ⟨a, c₁, first, failed⟩ := bind_eq_error_iff.mp failed
    · refine ⟨0, [], c, ?_, rfl, first⟩
      simp only [iterations, first]
    · obtain failed | ⟨_, _, _, impossible⟩ := bind_eq_error_iff.mp failed
      · obtain ⟨k, xs, c₂, count, done, stops⟩ := ih failed
        refine ⟨k + 1, a :: xs, c₂, ?_, ?_, stops⟩
        · simp only [iterations, first, count]
        · exact bind_eq_ok_iff.mpr ⟨a, c₁, first, bind_eq_ok_iff.mpr ⟨xs, c₂, done, rfl⟩⟩
      · cases impossible

/-- Where each iteration takes a byte, there are no more than bytes are left, and one that fails. -/
lemma iterations_le (takes : Takes 1 step) (n : Nat) (c : Cursor) :
    iterations step n c ≤ c.rest.length + 1 := by
  induction n generalizing c with
  | zero => exact Nat.zero_le _
  | succ n ih =>
    cases first : step c with
    | ok a c' =>
      have left := takes c a c' first
      have others := ih c'
      simp only [iterations, first]
      omega
    | error e c' =>
      simp [iterations, first]

/-- How many iterations are begun in reading a list. -/
def Header.listIterations (h : Header) (step : ReadM α) (c : Cursor) : Nat :=
  match h.readInt c with
  | .ok count c' => iterations step count.toNat c'
  | .error _ _ => 0

/-- Reading a list begins as many iterations as the list has members. -/
lemma Header.listIterations_of_ok {h : Header} {c c' : Cursor} {xs : List α}
    (read : h.readList step c = .ok xs c') : h.listIterations step c = xs.length := by
  obtain ⟨count, c₁, length, members⟩ := bind_eq_ok_iff.mp read
  obtain ⟨begun, built⟩ := iterations_of_ok members
  rw [listIterations, length]
  exact begun.trans built.symm

/-- Where reading a list fails, no iteration is begun in vain but the last one. -/
lemma Header.listIterations_of_error {h : Header} {c c' : Cursor} {e : ReadError}
    (failed : h.readList step c = .error e c') :
    (h.readInt c = .error e c' ∧ h.listIterations step c = 0) ∨
      ∃ count c₀ k xs c₁, h.readInt c = .ok count c₀ ∧ readTimes step k c₀ = .ok xs c₁ ∧
        step c₁ = .error e c' ∧ h.listIterations step c = k + 1 := by
  obtain failed | ⟨count, c₀, length, failed⟩ := bind_eq_error_iff.mp failed
  · refine .inl ⟨failed, ?_⟩
    rw [listIterations, failed]
  · obtain ⟨k, xs, c₁, begun, done, stops⟩ := exists_of_readTimes_eq_error failed
    refine .inr ⟨count, c₀, k, xs, c₁, length, done, stops, ?_⟩
    rw [listIterations, length]
    exact begun

/-- The length of a list takes a byte itself, which makes up for an iteration that fails. -/
lemma Header.listIterations_le (h : Header) (takes : h.intSize.toNat ≠ 0 → Takes 1 step)
    (c : Cursor) : h.listIterations step c ≤ c.rest.length := by
  unfold listIterations
  cases read : h.readInt c with
  | error e c' => exact Nat.zero_le _
  | ok count c' =>
    by_cases width : h.intSize.toNat = 0
    · obtain ⟨_, stores, -⟩ := h.recognises_readInt.sound (Nat.lt_succ_self _) read
      rw [stores.eq_zero width]
      exact Nat.zero_le _
    · have left := h.pays_readInt.takes c count c' read
      have begun := iterations_le (takes width) count.toNat c'
      dsimp only
      omega

end Loops

/-- A function read from a chunk has no more elements than the chunk has bytes, apart from the free
ones. -/
lemma elements_le_of_readChunk {data : Bytes} {h : Header} {opened c : Cursor} {withSummary : Bool}
    {p : Proto} (header : readHeader (.start data) = .ok h opened)
    (read : readChunk withSummary (.start data) = .ok p c) :
    p.elements ≤ data.length + p.freeElements h := by
  obtain ⟨_, ⟨valid, rfl⟩, front⟩ := recognises_readHeader.sound (Nat.lt_succ_self _) header
  rw [readChunk_of_readHeader withSummary header] at read
  obtain ⟨stored, stores, back⟩ :=
    (h.recognises_readProto valid "").sound (Nat.lt_succ_self _) read
  have whole : data.length = h.bytes.length + opened.rest.length := front.length_rest
  have behind : opened.rest.length = stored.length + c.rest.length := back.length_rest
  have paid := stores.cost_le_length
  have members := stores.elements_le
  omega

/-- A chunk that is read stores a tree whose lists have no more members than the chunk has bytes,
instructions and upvalues of width zero apart.  No loop over a list begins more iterations than
bytes are left in front of its length, again with the exception of instructions and upvalues of
width zero.  Where a list is read, these iterations are as many as it has members; where reading it
fails, all of them but the last one have succeeded. -/
theorem readChunk_elements_le {data : Bytes} {h : Header} {opened : Cursor}
    (header : readHeader (.start data) = .ok h opened) :
    (∀ withSummary p c, readChunk withSummary (.start data) = .ok p c →
      p.elements ≤ data.length + p.freeElements h ∧
        (h.instructionSize ≠ 0 → h.sizeSize ≠ 0 → p.elements ≤ data.length)) ∧
    (∀ c : Cursor,
      (h.instructionSize ≠ 0 →
        h.listIterations (h.readUnsigned h.instructionSize.toNat) c ≤ c.rest.length) ∧
      h.listIterations h.readConstant c ≤ c.rest.length ∧
      (∀ source, h.listIterations (h.readProto source) c ≤ c.rest.length) ∧
      h.listIterations h.readInt c ≤ c.rest.length ∧
      h.listIterations h.readLocal c ≤ c.rest.length ∧
      (h.sizeSize ≠ 0 → h.listIterations h.readName c ≤ c.rest.length)) ∧
    ∀ (α : Type) (step : ReadM α) (c : Cursor),
      (∀ xs c', h.readList step c = .ok xs c' → h.listIterations step c = xs.length) ∧
      ∀ e c', h.readList step c = .error e c' →
        (h.readInt c = .error e c' ∧ h.listIterations step c = 0) ∨
          ∃ count c₀ k xs c₁, h.readInt c = .ok count c₀ ∧ readTimes step k c₀ = .ok xs c₁ ∧
            step c₁ = .error e c' ∧ h.listIterations step c = k + 1 := by
  have positive {width : UInt8} (nonzero : width ≠ 0) : 1 ≤ width.toNat :=
    Nat.pos_of_ne_zero fun e => nonzero (UInt8.toNat_inj.mp e)
  refine ⟨fun withSummary p c read => ?_, fun c => ⟨fun words => ?_, ?_, fun source => ?_, ?_, ?_,
    fun sizes => ?_⟩, fun α step c =>
      ⟨fun _ _ => Header.listIterations_of_ok, fun _ _ => Header.listIterations_of_error⟩⟩
  · have bound := elements_le_of_readChunk header read
    refine ⟨bound, fun words sizes => ?_⟩
    simpa [Proto.freeElements, FunctionBody.freeMembers, words, sizes] using bound
  · apply h.listIterations_le
    exact fun _ => ((h.pays_readUnsigned _).mono (positive words) (le_refl 0)).takes
  · exact h.listIterations_le (fun _ => h.pays_readConstant.takes) c
  · apply h.listIterations_le
    exact fun _ => ((h.pays_readProto (Nat.zero_le 4) source).mono (by decide) (le_refl 0)).takes
  · apply h.listIterations_le
    exact fun width => (h.pays_readInt.mono (Nat.pos_of_ne_zero width) (le_refl 0)).takes
  · apply h.listIterations_le
    exact fun width => (h.pays_readLocal.mono (by omega) (le_refl 0)).takes
  · apply h.listIterations_le
    exact fun _ => (h.pays_readName.mono (positive sizes) (le_refl 0)).takes

/-- A header under which instructions take no bytes. -/
def wordlessHeader : Header := ⟨0, 1, 1, 1, 0, 8, 0⟩

/-- A header under which sizes take no bytes. -/
def sizelessHeader : Header := ⟨0, 1, 1, 0, 1, 8, 0⟩

/-- A function with 127 instructions, as stored under the wordless header. -/
def wordlessBody : Bytes :=
  List.replicate 7 0 ++ [127] ++ List.replicate 5 0

/-- A function with 127 upvalues, as stored under the sizeless header. -/
def sizelessBody : Bytes :=
  List.replicate 11 0 ++ [127]

/-- The instructions of the first chunk may take no bytes; none of the members of the second one,
which has the standard header, may. -/
theorem readChunk_elements_le_wordlessBody :
    (∃ p c, readChunk false (.start (wordlessHeader.bytes ++ wordlessBody)) = .ok p c ∧
      p.elements ≤ 25 + p.freeElements wordlessHeader) ∧
    (∃ p c, readChunk false (.start (tagChunk 0)) = .ok p c ∧ p.elements ≤ 57) ∧
    ∃ opened, readHeader (.start (tagChunk 0)) = .ok standardHeader opened ∧
      standardHeader.listIterations (standardHeader.readUnsigned 4) opened ≤ 45 ∧
      standardHeader.listIterations standardHeader.readName opened ≤ 45 := by
  have wordless : readHeader (.start (wordlessHeader.bytes ++ wordlessBody)) =
    .ok wordlessHeader _ := rfl
  have standard : readHeader (.start (tagChunk 0)) = .ok standardHeader _ := rfl
  have stop : readStop (wordlessHeader.bytes ++ wordlessBody) = .ok 25 := by decide +kernel
  have stop' : readStop (tagChunk 0) = .ok 57 := by decide +kernel
  obtain ⟨p, c, read, -⟩ := exists_of_readStop_eq_ok stop
  obtain ⟨q, c', read', -⟩ := exists_of_readStop_eq_ok stop'
  obtain ⟨trees, loops, -⟩ := readChunk_elements_le standard
  obtain ⟨words, -, -, -, -, names⟩ := loops ((Cursor.start (tagChunk 0)).advance 12)
  refine ⟨⟨p, c, read, ((readChunk_elements_le wordless).1 false p c read).1⟩, ⟨q, c', read', ?_⟩,
    _, standard, words (by decide), names (by decide)⟩
  exact (trees false q c' read').2 (by decide) (by decide)

/-- The members of the functions that a chunk is read as are those of the lists of one tree. -/
lemma exists_elements_of_readBodies {data : Bytes} {b : FunctionBody} (e : readBodies data = [b]) :
    ∃ p c, readChunk false (.start data) = .ok p c ∧ p.elements = b.members := by
  obtain ⟨p, c, read, bodies⟩ := exists_of_readBodies e
  have count := p.elements_add_one
  rw [bodies] at count
  exact ⟨p, c, read, Nat.succ_injective count⟩

/-- The exceptions are needed: under either header there is a chunk that is read as a tree with more
members than it has bytes, and a loop with more iterations than bytes are left. -/
theorem Proto.not_forall_elements_le :
    (¬ ∀ (rest : Bytes) (p : Proto) (c : Cursor),
      readChunk false (.start (wordlessHeader.bytes ++ rest)) = .ok p c →
        p.elements ≤ (wordlessHeader.bytes ++ rest).length) ∧
    (¬ ∀ (rest : Bytes) (p : Proto) (c : Cursor),
      readChunk false (.start (sizelessHeader.bytes ++ rest)) = .ok p c →
        p.elements ≤ (sizelessHeader.bytes ++ rest).length) ∧
    (¬ ∀ c, wordlessHeader.listIterations (wordlessHeader.readUnsigned 0) c ≤ c.rest.length) ∧
    ¬ ∀ c, sizelessHeader.listIterations sizelessHeader.readName c ≤ c.rest.length := by
  have words : readBodies (wordlessHeader.bytes ++ wordlessBody) =
      [{ (default : FunctionBody) with code := List.replicate 127 0 }] := by decide +kernel
  have names : readBodies (sizelessHeader.bytes ++ sizelessBody) =
      [{ (default : FunctionBody) with upvalues := List.replicate 127 "" }] := by decide +kernel
  refine ⟨fun always => ?_, fun always => ?_, fun always => ?_, fun always => ?_⟩
  · obtain ⟨p, c, read, members⟩ := exists_elements_of_readBodies words
    have few := always wordlessBody p c read
    rw [members] at few
    exact absurd few (by decide +kernel)
  · obtain ⟨p, c, read, members⟩ := exists_elements_of_readBodies names
    have few := always sizelessBody p c read
    rw [members] at few
    exact absurd few (by decide +kernel)
  · exact absurd (always (.start [127])) (by decide +kernel)
  · exact absurd (always (.start [127])) (by decide +kernel)

end LuaChunk
