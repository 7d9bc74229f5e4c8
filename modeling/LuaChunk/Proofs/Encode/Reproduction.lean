import LuaChunk.Proofs.Encode.Stopping
import LuaChunk.Proofs.RoundTrip

/-!
# Chunks that are reproduced

A function that is written, read and written again is written in its normal form the second time.
No field is shorter then, so the bytes are the same only if those of each field are:
`Emission.Reproduces` says of a field when they are, and fields are put together by
`Emission.Reproduces.append`.  `Proto.encode_again_iff` says when a whole chunk is reproduced.
-/

namespace LuaChunk

namespace Emission

/-- Where an emission writes bytes, another one writes no fewer, and the same ones exactly under a
condition. -/
def Reproduces (e e' : Emission) (holds : Prop) : Prop :=
  ∀ bs, e.Writes bs →
    (∀ bs', e'.Writes bs' → bs.length ≤ bs'.length) ∧ (e'.Writes bs ↔ holds)

/-- An emission writes no two strings of bytes. -/
lemma Writes.unique {e : Emission} {bs bs' : Bytes} (writes : e.Writes bs)
    (writes' : e.Writes bs') : bs = bs' :=
  congrArg bytes (writes.symm.trans writes')

namespace Reproduces

variable {a a' b b' : Emission} {holds holds' : Prop}

/-- The condition may be replaced by an equivalent one. -/
lemma congr (h : Reproduces a a' holds) (same : holds ↔ holds') : Reproduces a a' holds' := by
  rw [← same]
  exact h

/-- An emission reproduces itself without a condition. -/
lemma refl (a : Emission) : Reproduces a a True := by
  intro bs writes
  refine ⟨fun bs' writes' => ?_, iff_true_intro writes⟩
  rw [writes.unique writes']

/-- Two emissions in order are reproduced if both are: neither can make up for a longer one. -/
lemma append (ha : Reproduces a a' holds) (hb : Reproduces b b' holds') :
    Reproduces (a ++ b) (a' ++ b') (holds ∧ holds') := by
  intro bs writes
  obtain ⟨front, back, hFront, hBack, rfl⟩ := writes_append_iff.mp writes
  obtain ⟨longerFront, sameFront⟩ := ha front hFront
  obtain ⟨longerBack, sameBack⟩ := hb back hBack
  constructor
  · intro bs' writes'
    obtain ⟨front', back', hFront', hBack', rfl⟩ := writes_append_iff.mp writes'
    rw [List.length_append, List.length_append]
    exact Nat.add_le_add (longerFront front' hFront') (longerBack back' hBack')
  · rw [← sameFront, ← sameBack, writes_append_iff]
    constructor
    · rintro ⟨front', back', hFront', hBack', e⟩
      have lengths := congrArg List.length e
      rw [List.length_append, List.length_append] at lengths
      have frontLength := longerFront front' hFront'
      have backLength := longerBack back' hBack'
      -- Neither part is shorter than before, so both are cut at the same place.
      obtain ⟨rfl, rfl⟩ := List.append_inj e (by omega)
      exact ⟨hFront', hBack'⟩
    · rintro ⟨hFront', hBack'⟩
      exact ⟨front, back, hFront', hBack', rfl⟩

/-- What is written behind by both does not matter. -/
lemma append_refl (h : Reproduces a a' holds) (b : Emission) :
    Reproduces (a ++ b) (a' ++ b) holds :=
  (h.append (refl b)).congr (iff_of_eq (and_true holds))

/-- What is written in front by both does not matter. -/
lemma refl_append (a : Emission) (h : Reproduces b b' holds) :
    Reproduces (a ++ b) (a ++ b') holds :=
  ((refl a).append h).congr (iff_of_eq (true_and holds))

/-- A list is reproduced if each of its members is. -/
lemma list {α : Type} {item : α → Emission} {f : α → α} {each : α → Prop} {xs : List α}
    (h : ∀ x ∈ xs, Reproduces (item x) (item (f x)) (each x)) :
    Reproduces (Emission.list item xs) (Emission.list item (xs.map f)) (∀ x ∈ xs, each x) := by
  unfold Emission.list
  rw [List.length_map]
  refine refl_append _ ?_
  induction xs with
  | nil => exact (refl _).congr ⟨fun _ _ mem => absurd mem List.not_mem_nil, fun _ => trivial⟩
  | cons x xs ih =>
    rw [List.forall_mem_cons] at h
    exact (h.1.append (ih h.2)).congr List.forall_mem_cons.symm

end Reproduces

/-- An integer is reproduced unless it is read as a negative one. -/
lemma reproduces_int (n : Int) : Reproduces (int n) (int (wrap n)) (n < 2 ^ 31) := by
  intro bs writes
  obtain ⟨m, rfl, fits, rfl⟩ := writes_field_iff.mp writes
  constructor
  · intro bs' writes'
    obtain ⟨m', -, -, rfl⟩ := writes_field_iff.mp writes'
    rw [length_toLittleEndian, length_toLittleEndian]
  · rw [wrap]
    split
    case isTrue small => exact iff_of_true writes small
    case isFalse great =>
      -- What is read is negative then, and is not written at all.
      refine iff_of_false (fun writes' => ?_) great
      have nonneg := nonneg_of_writes_int writes'
      omega

/-- The empty name takes a size field only. -/
lemma length_of_writes_name_empty {bs : Bytes} (writes : (name "").Writes bs) : bs.length = 8 := by
  have size : (size 0).Writes bs := writes
  obtain ⟨_, -, -, rfl⟩ := writes_field_iff.mp size
  exact length_toLittleEndian 8 _

/-- A name that is not empty takes more than its size field. -/
lemma lt_length_of_writes_name {text : String} {bs : Bytes} (named : text ≠ "")
    (writes : (name text).Writes bs) : 8 < bs.length := by
  cases stores_name writes with
  | none => exact absurd rfl named
  | some _ stored =>
    cases stored with
    | some size =>
      have length : List.length _ = 8 := size.1
      rw [List.length_append, List.length_append, length, List.length_singleton]
      omega

/-- A source name is reproduced unless it is empty and another one is inherited. -/
lemma reproduces_source (source outer : String) :
    Reproduces (name source) (name (if source = "" then outer else source))
      (source = "" → outer = "") := by
  by_cases unnamed : source = ""
  · rw [if_pos unnamed, unnamed]
    by_cases none : outer = ""
    · rw [none]
      exact (Reproduces.refl _).congr ⟨fun _ _ => rfl, fun _ => trivial⟩
    · -- The size of the empty name is eight bytes, and an inherited name has its bytes as well.
      intro bs writes
      have length := length_of_writes_name_empty writes
      refine ⟨fun bs' writes' => ?_, iff_of_false (fun writes' => ?_) fun h => none (h rfl)⟩
      · have longer := lt_length_of_writes_name none writes'
        omega
      · have longer := lt_length_of_writes_name none writes'
        omega
  · rw [if_neg unnamed]
    exact (Reproduces.refl _).congr ⟨fun _ e => absurd e unnamed, fun _ => trivial⟩

/-- A number is reproduced as the double that it is read as. -/
lemma reproduces_number (v : Number) : Reproduces (number v) (number v.normalize) True := by
  intro bs writes
  obtain ⟨d, e, rfl⟩ := exists_double_of_writes writes
  have again : (number v.normalize).Writes (toLittleEndian 8 d.word) := by
    rw [e]
    rfl
  exact ⟨fun bs' writes' => (congrArg List.length (again.unique writes')).le,
    iff_true_intro again⟩

/-- A byte is written exactly as itself. -/
lemma writes_byte_iff_eq {n : Int} {bs : Bytes} :
    (byte n).Writes bs ↔ ∃ b : UInt8, n = b.toNat ∧ bs = [b] := by
  rw [writes_byte_iff]
  constructor
  · rintro ⟨b⟩
    exact ⟨b, rfl, rfl⟩
  · rintro ⟨b, rfl, rfl⟩
    exact .mk b

/-- A truth value is reproduced if it is zero or one. -/
lemma reproduces_truth (v : Int) :
    Reproduces (byte v) (byte (if v = 0 then 0 else 1)) (v = 0 ∨ v = 1) := by
  intro bs writes
  constructor
  · intro bs' writes'
    obtain ⟨b, -, rfl⟩ := writes_byte_iff_eq.mp writes
    obtain ⟨b', -, rfl⟩ := writes_byte_iff_eq.mp writes'
    exact le_rfl
  · have again : (byte (if v = 0 then 0 else 1)).Writes bs ↔ (if v = 0 then 0 else 1) = v := by
      obtain ⟨b, e, rfl⟩ := writes_byte_iff_eq.mp writes
      rw [writes_byte_iff_eq, e]
      constructor
      · rintro ⟨_, same, ⟨⟩⟩
        exact same
      · intro same
        exact ⟨b, same, rfl⟩
    rw [again]
    split <;> omega

/-- A constant is reproduced unless it is a truth value other than zero and one. -/
lemma reproduces_constant (c : PoolEntry) :
    Reproduces (constant c) (constant c.normalize) (∀ v, c = .boolean v → v = 0 ∨ v = 1) := by
  cases c with
  | nil => exact (Reproduces.refl _).congr ⟨fun _ => nofun, fun _ => trivial⟩
  | boolean v =>
    refine (Reproduces.refl_append (byte 1) (reproduces_truth v)).congr ⟨?_, fun h => h v rfl⟩
    rintro h _ ⟨⟩
    exact h
  | number v =>
    exact (Reproduces.refl_append (byte 3) (reproduces_number v)).congr
      ⟨fun _ => nofun, fun _ => trivial⟩
  | string data => exact (Reproduces.refl _).congr ⟨fun _ => nofun, fun _ => trivial⟩
  | foreign v => exact (Reproduces.refl _).congr ⟨fun _ => nofun, fun _ => trivial⟩

/-- A local variable is reproduced if the integers of its range have no sign bit. -/
lemma reproduces_localVariable (l : LocalVariable) :
    Reproduces (localVariable l) (localVariable l.normalize)
      (l.first < 2 ^ 31 ∧ l.last < 2 ^ 31) :=
  (Reproduces.refl_append _ (reproduces_int l.first)).append (reproduces_int l.last)

end Emission

/-- The integers and the truth values of a function are read as they are written. -/
structure FunctionBody.IsExact (b : FunctionBody) : Prop where
  integers : ∀ n ∈ b.integers, n < 2 ^ 31
  truths : ∀ v, .boolean v ∈ b.constants → v = 0 ∨ v = 1

namespace Emission

/-- The fields in front are reproduced if no name is added, no sign bit is set and each truth value
is zero or one. -/
lemma reproduces_bodyBefore (outer : String) (b : FunctionBody) :
    Reproduces (bodyBefore b) (bodyBefore (b.normalize outer))
      (((((b.source = "" → outer = "") ∧ b.firstLine < 2 ^ 31) ∧ b.lastLine < 2 ^ 31)) ∧
        ∀ c ∈ b.constants, ∀ v, c = .boolean v → v = 0 ∨ v = 1) :=
  ((reproduces_source b.source outer).append (reproduces_int b.firstLine)
    |>.append (reproduces_int b.lastLine)
    |>.append_refl (byte b.upvalueCount)
    |>.append_refl (byte b.parameterCount)
    |>.append_refl (byte b.varargFlag)
    |>.append_refl (byte b.stackSize)
    |>.append_refl (list int b.code)
    |>.append (.list fun c _ => reproduces_constant c))

/-- The fields behind are reproduced if no sign bit is set. -/
lemma reproduces_bodyAfter (outer : String) (b : FunctionBody) :
    Reproduces (bodyAfter b) (bodyAfter (b.normalize outer))
      ((∀ n ∈ b.lines, n < 2 ^ 31) ∧ ∀ l ∈ b.locals, l.first < 2 ^ 31 ∧ l.last < 2 ^ 31) :=
  (Reproduces.list fun n _ => reproduces_int n)
    |>.append (.list fun l _ => reproduces_localVariable l)
    |>.append_refl (list name b.upvalues)

end Emission

namespace Proto

/-- Every function in the tree has a source name. -/
def IsNamed (p : Proto) : Prop :=
  ∀ f ∈ p.functions, f.body.source ≠ ""

/-- No function without a source name is nested, at any depth, in one that has a source name. -/
def KeepsNames (p : Proto) : Prop :=
  ∀ f ∈ p.functions, f.body.source ≠ "" → f.IsNamed

/-- A tree is named if its root and the trees in it are. -/
lemma isNamed_iff {body : FunctionBody} {nested : List Proto} :
    IsNamed ⟨body, nested⟩ ↔ body.source ≠ "" ∧ ∀ q ∈ nested, q.IsNamed :=
  forall_functions_iff

/-- A tree keeps its names if the trees below a named root are named, and all of them keep theirs.
-/
lemma keepsNames_iff {body : FunctionBody} {nested : List Proto} :
    KeepsNames ⟨body, nested⟩ ↔
      (body.source ≠ "" → ∀ q ∈ nested, q.IsNamed) ∧ ∀ q ∈ nested, q.KeepsNames := by
  refine forall_functions_iff.trans (and_congr_left' ?_)
  constructor
  · intro h named
    exact (isNamed_iff.mp (h named)).2
  · intro h named
    exact isNamed_iff.mpr ⟨named, h named⟩

end Proto

namespace Emission

/-- The conditions on a function are those on each of its fields. -/
lemma isExact_iff {b : FunctionBody} : b.IsExact ↔
    (b.firstLine < 2 ^ 31 ∧ b.lastLine < 2 ^ 31) ∧
      (∀ c ∈ b.constants, ∀ v, c = .boolean v → v = 0 ∨ v = 1) ∧
      (∀ n ∈ b.lines, n < 2 ^ 31) ∧ ∀ l ∈ b.locals, l.first < 2 ^ 31 ∧ l.last < 2 ^ 31 := by
  have integers : (∀ n ∈ b.integers, n < 2 ^ 31) ↔
      (b.firstLine < 2 ^ 31 ∧ b.lastLine < 2 ^ 31) ∧
        (∀ n ∈ b.lines, n < 2 ^ 31) ∧ ∀ l ∈ b.locals, l.first < 2 ^ 31 ∧ l.last < 2 ^ 31 := by
    simp only [FunctionBody.integers, List.forall_mem_append, List.forall_mem_cons,
      List.forall_mem_flatMap, List.not_mem_nil, false_implies, implies_true, and_true, and_assoc]
  constructor
  · rintro ⟨small, truths⟩
    obtain ⟨ends, others⟩ := integers.mp small
    refine ⟨ends, ?_, others⟩
    rintro _ mem v rfl
    exact truths v mem
  · rintro ⟨ends, truths, others⟩
    exact ⟨integers.mpr ⟨ends, others⟩, fun v mem => truths _ mem v rfl⟩

/-- What keeps the functions nested in one from being reproduced is inherited names, and with them
the name that this one has or inherits. -/
lemma keepsNames_and_iff {body : FunctionBody} {nested : List Proto} {outer : String} :
    Proto.KeepsNames ⟨body, nested⟩ ∧ (outer ≠ "" → Proto.IsNamed ⟨body, nested⟩) ↔
      (body.source = "" → outer = "") ∧
        ∀ q ∈ nested, q.KeepsNames ∧ ((body.normalize outer).source ≠ "" → q.IsNamed) := by
  have source : (body.normalize outer).source = if body.source = "" then outer else body.source :=
    rfl
  rw [Proto.keepsNames_iff, Proto.isNamed_iff, source]
  by_cases unnamed : body.source = ""
  · -- This function inherits, so no name may be around it.
    rw [if_pos unnamed]
    constructor
    · rintro ⟨⟨-, keep⟩, inherited⟩
      have none : outer = "" := by_contra fun h => (inherited h).1 unnamed
      exact ⟨fun _ => none, fun q mem => ⟨keep q mem, fun h => absurd none h⟩⟩
    · rintro ⟨none, inside⟩
      exact ⟨⟨fun h => absurd unnamed h, fun q mem => (inside q mem).1⟩,
        fun h => absurd (none unnamed) h⟩
  · -- This function passes its own name on, so each one inside it needs a name.
    rw [if_neg unnamed]
    constructor
    · rintro ⟨⟨named, keep⟩, -⟩
      exact ⟨fun e => absurd e unnamed, fun q mem => ⟨keep q mem, fun h => named h q mem⟩⟩
    · rintro ⟨-, inside⟩
      have named : ∀ q ∈ nested, q.IsNamed := fun q mem => (inside q mem).2 unnamed
      exact ⟨⟨fun _ => named, fun q mem => (inside q mem).1⟩, fun _ => ⟨unnamed, named⟩⟩

/-- A function inside one of a given source name is reproduced exactly if its integers and truth
values are, and no name is inherited. -/
lemma reproduces_proto (outer : String) (p : Proto) :
    Reproduces (proto p) (proto (p.normalizeIn outer))
      ((∀ f ∈ p.functions, f.body.IsExact) ∧ p.KeepsNames ∧ (outer ≠ "" → p.IsNamed)) := by
  -- The name around a function changes on the way down, so the induction is for all such names.
  induction p using Proto.nestedInduction generalizing outer with
  | mk body nested ih =>
    rw [proto_eq, Proto.normalizeIn, proto_eq, Proto.normalizeAllIn_eq_map]
    refine (((reproduces_bodyBefore outer body).append (.list fun q mem => ih q mem _)).append
      (reproduces_bodyAfter outer body)).congr ?_
    rw [Proto.forall_functions_iff, keepsNames_and_iff, isExact_iff]
    constructor
    · rintro ⟨⟨⟨⟨⟨source, first⟩, last⟩, truths⟩, inside⟩, others⟩
      exact ⟨⟨⟨⟨first, last⟩, truths, others⟩, fun q mem => (inside q mem).1⟩, source,
        fun q mem => (inside q mem).2⟩
    · rintro ⟨⟨⟨⟨first, last⟩, truths, others⟩, exacts⟩, source, names⟩
      exact ⟨⟨⟨⟨⟨source, first⟩, last⟩, truths⟩, fun q mem => ⟨exacts q mem, names q mem⟩⟩, others⟩

end Emission

/-- A function is written as a chunk if its fields are written behind the standard header. -/
lemma Proto.encode_eq_ok_iff {p : Proto} {stored : Bytes} :
    p.encode = .ok (standardHeader.bytes ++ stored) ↔ (Emission.proto p).Writes stored := by
  constructor
  · intro encoded
    obtain ⟨stored', written, e⟩ := exists_of_encode encoded
    rw [List.append_cancel_left e]
    exact written
  · intro written
    refine Emission.toExcept_eq_ok_iff.mpr (Emission.writes_append_iff.mpr ?_)
    exact ⟨_, stored, rfl, written, rfl⟩

/-- Writing what is read of a written chunk reproduces the chunk exactly if each integer is below
2³¹, each truth value is zero or one, and no function without a source name is nested, at any depth,
in one with a source name. -/
theorem Proto.encode_again_iff {p : Proto} {bytes : Bytes} (encoded : p.encode = .ok bytes)
    (short : ∀ f ∈ p.functions, f.HasShortLists) :
    ∃ q, (∀ withSummary, ∃ c, readChunk withSummary (.start bytes) = .ok q c) ∧
      (q.encode = .ok bytes ↔
        (∀ f ∈ p.functions, ∀ n ∈ f.body.integers, n < 2 ^ 31) ∧
        (∀ f ∈ p.functions, ∀ v, .boolean v ∈ f.body.constants → v = 0 ∨ v = 1) ∧
        ∀ f ∈ p.functions, f.body.source ≠ "" → ∀ g ∈ f.functions, g.body.source ≠ "") := by
  obtain ⟨stored, written, rfl⟩ := exists_of_encode encoded
  have stores := Emission.stores_proto "" short written
  refine ⟨p.normalize, fun withSummary => ?_, ?_⟩
  · obtain ⟨c, read, -⟩ := exists_readChunk_of_stores stores [] withSummary
    rw [List.append_nil] at read
    exact ⟨c, read⟩
  · obtain ⟨-, same⟩ := Emission.reproduces_proto "" p stored written
    rw [encode_eq_ok_iff, normalize, same]
    constructor
    · rintro ⟨exacts, keep, -⟩
      exact ⟨fun f inside => (exacts f inside).integers, fun f inside => (exacts f inside).truths,
        keep⟩
    · rintro ⟨integers, truths, keep⟩
      exact ⟨fun f inside => ⟨integers f inside, truths f inside⟩, keep, fun h => absurd rfl h⟩

/-- A function of which reading changes only the whole number: the function with a source name is
nested in the one without. -/
def Proto.stableSample : Proto where
  body :=
    { source := "", firstLine := 2 ^ 31 - 1, lastLine := 0
      upvalueCount := 1, parameterCount := 0, varargFlag := 255, stackSize := 2
      code := [2 ^ 32 - 1]
      constants := [.nil, .boolean 1, .number (.whole (2 ^ 53 + 1)), .string []]
      lines := [7], locals := [⟨"é", 0, 1⟩], upvalues := [""] }
  nested := [⟨{ (default : FunctionBody) with source := "@b" }, []⟩]

/-- One sample is reproduced, and the other one is not. -/
theorem Proto.encode_again_iff_samples :
    (∃ bytes q c, stableSample.encode = .ok bytes ∧
      readChunk false (.start bytes) = .ok q c ∧ q.encode = .ok bytes) ∧
    ∃ bytes q c, sample.encode = .ok bytes ∧
      readChunk false (.start bytes) = .ok q c ∧ q.encode ≠ .ok bytes := by
  constructor
  · have encoded : stableSample.encode =
        .ok (Emission.header ++ Emission.proto stableSample).bytes :=
      Emission.toExcept_of_stop (by decide +kernel)
    obtain ⟨q, read, reproduced⟩ := encode_again_iff encoded (by decide +kernel)
    obtain ⟨c, read⟩ := read false
    refine ⟨_, q, c, encoded, read, reproduced.mpr ⟨?_, ?_, ?_⟩⟩
    · decide +kernel
    · intro f inside v mem
      have pool : ∀ f ∈ stableSample.functions, ∀ c ∈ f.body.constants,
          c ∈ stableSample.body.constants := by decide +kernel
      have own := pool f inside _ mem
      simp only [stableSample, List.mem_cons, List.not_mem_nil, or_false, reduceCtorEq, false_or,
        PoolEntry.boolean.injEq] at own
      exact .inr own
    · decide +kernel
  · have encoded : sample.encode = .ok (Emission.header ++ Emission.proto sample).bytes :=
      Emission.toExcept_of_stop (by decide +kernel)
    obtain ⟨q, read, reproduced⟩ := encode_again_iff encoded (by decide +kernel)
    obtain ⟨c, read⟩ := read false
    refine ⟨_, q, c, encoded, read, fun again => ?_⟩
    have small := (reproduced.mp again).1 sample List.mem_cons_self (2 ^ 32 - 1) (by decide)
    exact absurd small (by decide)

end LuaChunk
