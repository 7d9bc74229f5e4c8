import LuaChunk.Decode
import LuaChunk.Encode
import LuaChunk.Proofs.Decode.Recognition

/-!
# What reading accepts

Each reader of a field recognises the format of the field.  From this `Header.recognises_readProto`
follows by induction on the depth of nesting, and `readChunk_eq_ok_iff` says which chunks are read,
as what, and where reading stops.
-/

namespace LuaChunk

namespace Header

variable {n : Nat} (h : Header)

/-- Reading an unsigned number recognises the unsigned numbers of its width. -/
lemma recognises_readUnsigned (width : Nat) :
    RecognisesBelow n (h.readUnsigned width) (h.StoresUnsigned width) :=
  .readBytes_map fun _ _ => storesUnsigned_iff

/-- Reading an integer recognises the stored integers. -/
lemma recognises_readInt : RecognisesBelow n h.readInt h.StoresInt :=
  .readBytes_map fun _ _ => storesSigned_iff

/-- Reading a string recognises the stored strings: the size decides which of the two forms it is.
-/
lemma recognises_readString? : RecognisesBelow n h.readString? h.StoresString := by
  -- A size of zero ends the string; the last of the bytes behind any other size is dropped.
  have tail (size : Nat) : RecognisesBelow n
      (if size = 0 then pure none else readBytes size >>= fun data => pure (some data.dropLast))
      (fun s bs => size = 0 ∧ s = none ∧ bs = [] ∨
        size ≠ 0 ∧ (Format.bytes size).map (fun data => some data.dropLast) s bs) := by
    split
    case isTrue zero =>
      refine (RecognisesBelow.pure none).congr fun s bs => ?_
      simp [zero, Format.nothing]
    case isFalse pos =>
      refine ((RecognisesBelow.readBytes size).map _).congr fun s bs => ?_
      simp [pos]
  refine ((h.recognises_readUnsigned _).bind tail).congr fun s bs => ?_
  constructor
  · rintro ⟨size, front, back, stored, ⟨rfl, rfl, rfl⟩ | ⟨pos, data, ⟨rfl, len⟩, rfl⟩, rfl⟩
    · rw [List.append_nil]
      exact .none stored
    · obtain rfl | ⟨init, last, rfl⟩ := List.eq_nil_or_concat data
      · exact absurd len.symm pos
      · rw [List.concat_eq_append] at len ⊢
        rw [List.length_append, List.length_singleton] at len
        rw [← len] at stored
        dsimp only
        rw [List.dropLast_concat, ← List.append_assoc]
        exact .some stored
  · intro stores
    cases stores with
    | none stored =>
      exact ⟨0, bs, [], stored, .inl ⟨rfl, rfl, rfl⟩, (List.append_nil bs).symm⟩
    | @some size data last stored =>
      refine ⟨_, size, data ++ [last], stored, .inr ⟨Nat.succ_ne_zero _, _, ⟨rfl, ?_⟩, ?_⟩, ?_⟩
      · rw [List.length_append, List.length_singleton]
      · dsimp only
        rw [List.dropLast_concat]
      · rw [List.append_assoc]

/-- Reading a name recognises the stored names. -/
lemma recognises_readName : RecognisesBelow n h.readName h.StoresName := by
  have e : h.readName = h.readString? >>= fun s => pure ((s.map Latin1.decode).getD "") := by
    unfold readName
    congr 1
    funext s
    cases s <;> rfl
  rw [e]
  refine (h.recognises_readString?.map _).congr fun name bs => ?_
  constructor
  · rintro ⟨s, stored, rfl⟩
    cases s with
    | none => exact .none stored
    | some data => exact .some (Latin1.spells_decode data) stored
  · intro stores
    cases stores with
    | none stored => exact ⟨none, stored, rfl⟩
    | some spells stored => exact ⟨some _, stored, Latin1.spells_iff.mp spells⟩

/-- Eight bytes store the pattern of a double exactly if they are the pattern as an unsigned number.
-/
lemma storesUnsigned_word_iff {d : Double} {bs : Bytes} :
    h.StoresUnsigned 8 d.word bs ↔
      bs.length = 8 ∧ d = ⟨UInt64.ofNat (h.byteOrder.unsigned bs)⟩ := by
  rw [storesUnsigned_iff]
  refine and_congr_right fun len => ?_
  have lt := h.byteOrder.unsigned_lt bs
  rw [len] at lt
  have word : (⟨UInt64.ofNat (h.byteOrder.unsigned bs)⟩ : Double).word =
      h.byteOrder.unsigned bs := UInt64.toNat_ofNat_of_lt' lt
  constructor
  · intro e
    exact Double.eq_of_word_eq (e.trans word.symm)
  · rintro rfl
    exact word

/-- Under a header for integers a number is the signed value of its bytes. -/
lemma storesNumber_integer_iff {h : Header} (integral : h.integral ≠ 0) {v : Number} {bs : Bytes} :
    h.StoresNumber v bs ↔
      bs.length = h.numberSize.toNat ∧ v = .whole (h.byteOrder.signed bs) := by
  constructor
  · intro stores
    cases stores with
    | integer _ stored =>
      obtain ⟨len, rfl⟩ := storesSigned_iff.mp stored
      exact ⟨len, rfl⟩
    | double zero => exact absurd zero integral
    | single zero => exact absurd zero integral
  · rintro ⟨len, rfl⟩
    exact .integer integral (storesSigned_iff.mpr ⟨len, rfl⟩)

/-- Under a header for doubles a number is the double whose pattern its eight bytes are. -/
lemma storesNumber_double_iff {h : Header} (float : h.integral = 0) (eight : h.numberSize = 8)
    {v : Number} {bs : Bytes} :
    h.StoresNumber v bs ↔
      bs.length = 8 ∧ v = .double ⟨UInt64.ofNat (h.byteOrder.unsigned bs)⟩ := by
  constructor
  · intro stores
    cases stores with
    | integer nonzero => exact absurd float nonzero
    | double _ _ stored =>
      obtain ⟨len, rfl⟩ := h.storesUnsigned_word_iff.mp stored
      exact ⟨len, rfl⟩
    | single _ four =>
      rw [four] at eight
      cases eight
  · rintro ⟨len, rfl⟩
    exact .double float eight (h.storesUnsigned_word_iff.mpr ⟨len, rfl⟩)

/-- Under a header for singles a number is the double that equals the single of its four bytes. -/
lemma storesNumber_single_iff {h : Header} (float : h.integral = 0) (four : h.numberSize = 4)
    {v : Number} {bs : Bytes} :
    h.StoresNumber v bs ↔
      bs.length = 4 ∧ v = .double (.ofSingle (UInt32.ofNat (h.byteOrder.unsigned bs))) := by
  have lt (len : bs.length = 4) : h.byteOrder.unsigned bs < 2 ^ 32 := by
    have lt := h.byteOrder.unsigned_lt bs
    rw [len] at lt
    exact lt
  constructor
  · intro stores
    cases stores with
    | integer nonzero => exact absurd float nonzero
    | double _ eight =>
      rw [eight] at four
      cases four
    | single _ _ stored widened =>
      obtain ⟨len, rfl⟩ := storesUnsigned_iff.mp stored
      rw [Double.isWidened_iff (lt len)] at widened
      exact ⟨len, congrArg Number.double widened⟩
  · rintro ⟨len, rfl⟩
    have widened := Double.isWidened_ofSingle (lt len)
    exact .single float four (storesUnsigned_iff.mpr ⟨len, rfl⟩) widened

/-- The number that bytes store is the one that the header makes of them. -/
lemma storesNumber_iff (valid : h.IsValid) {v : Number} {bs : Bytes} :
    h.StoresNumber v bs ↔ bs.length = h.numberSize.toNat ∧ v = h.number bs := by
  unfold number numberFormat
  by_cases float : h.integral = 0
  · rw [if_neg (not_not.mpr float)]
    rcases valid with four | eight | integral
    · rw [if_neg (by rw [four]; decide), storesNumber_single_iff float four, four]
      rfl
    · rw [if_pos eight, storesNumber_double_iff float eight, eight]
      rfl
    · exact absurd float integral
  · rw [if_pos float]
    exact storesNumber_integer_iff float

/-- Reading a number recognises the stored numbers, under a header that is valid. -/
lemma recognises_readNumber (valid : h.IsValid) :
    RecognisesBelow n h.readNumber h.StoresNumber :=
  .readBytes_map fun _ _ => h.storesNumber_iff valid

/-- A tag is read as a kind exactly if it is the tag of this kind. -/
lemma ofTag?_eq_some_iff {tag : UInt8} {kind : Kind} :
    Kind.ofTag? tag = some kind ↔ tag = kind.tag := by
  constructor
  · intro found
    have e := List.find?_some found
    exact (beq_iff_eq.mp e).symm
  · rintro rfl
    exact kind.ofTag?_tag

/-- What stands behind the tag of a constant of a kind. -/
def StoresPayload (h : Header) (kind : Kind) : Format PoolEntry := fun v bs =>
  h.StoresConstant v (kind.tag :: bs)

/-- Reading behind the tag of a kind recognises what is stored there. -/
lemma recognises_readPayload (valid : h.IsValid)
    (kind : Kind) : RecognisesBelow n (h.readPayload kind) (h.StoresPayload kind) := by
  cases kind with
  | nil =>
    refine (RecognisesBelow.pure PoolEntry.nil).congr fun v bs => ?_
    constructor
    · rintro ⟨rfl, rfl⟩
      exact .nil
    · intro stores
      cases stores
      exact ⟨rfl, rfl⟩
  | boolean =>
    refine (RecognisesBelow.readByte.map fun b => PoolEntry.boolean (if b = 0 then 0 else 1)).congr
      fun v bs => ?_
    constructor
    · rintro ⟨b, rfl, rfl⟩
      by_cases zero : b = 0
      · rw [zero]
        exact .false
      · dsimp only
        rw [if_neg zero]
        exact .true zero
    · intro stores
      cases stores with
      | false => exact ⟨0, rfl, rfl⟩
      | @true b pos =>
        refine ⟨b, rfl, ?_⟩
        dsimp only
        rw [if_neg pos]
  | number =>
    refine ((h.recognises_readNumber valid).map PoolEntry.number).congr fun v bs => ?_
    constructor
    · rintro ⟨x, stored, rfl⟩
      exact .number stored
    · intro stores
      cases stores with
      | number stored => exact ⟨_, stored, rfl⟩
  | string =>
    refine (h.recognises_readString?.map fun s => PoolEntry.string (s.getD [])).congr
      fun v bs => ?_
    constructor
    · rintro ⟨s, stored, rfl⟩
      cases s with
      | none => exact .empty stored
      | some data => exact .string stored
    · intro stores
      cases stores with
      | empty stored => exact ⟨none, stored, rfl⟩
      | string stored => exact ⟨some _, stored, rfl⟩

/-- Reading a constant recognises the stored constants: a tag and what stands behind it. -/
lemma recognises_readConstant (valid : h.IsValid) :
    RecognisesBelow n h.readConstant h.StoresConstant := by
  -- The position is looked at for the error only, and an error recognises nothing.
  refine .get_bind fun c => (RecognisesBelow.bind
    (G := fun tag v bs => h.StoresConstant v (tag :: bs)) .readByte fun tag => ?_).congr
      fun v bs => ?_
  · cases found : Kind.ofTag? tag with
    | some kind =>
      obtain rfl := ofTag?_eq_some_iff.mp found
      exact h.recognises_readPayload valid kind
    | none =>
      refine (RecognisesBelow.failAt _ _).congr fun v bs => ?_
      refine ⟨False.elim, fun stores => ?_⟩
      cases stores <;> cases found
  · constructor
    · rintro ⟨tag, front, back, rfl, stored, rfl⟩
      exact stored
    · intro stores
      cases bs with
      | nil => cases stores
      | cons tag bs => exact ⟨tag, [tag], bs, rfl, stores, rfl⟩

/-- Reading a local variable recognises the stored local variables. -/
lemma recognises_readLocal : RecognisesBelow n h.readLocal h.StoresLocal := by
  refine (h.recognises_readName.bind fun name => h.recognises_readInt.bind fun first =>
    h.recognises_readInt.map fun last => LocalVariable.mk name first last).congr fun l bs => ?_
  constructor
  · rintro ⟨name, bName, _, hName, ⟨first, bFirst, bLast, hFirst, ⟨last, hLast, rfl⟩, rfl⟩, rfl⟩
    rw [← List.append_assoc]
    exact .mk hName hFirst hLast
  · intro stores
    cases stores with
    | mk hName hFirst hLast =>
      exact ⟨_, _, _, hName, ⟨_, _, _, hFirst, ⟨_, hLast, rfl⟩, rfl⟩, List.append_assoc _ _ _⟩

/-- Reading a list recognises the stored lists of what its step recognises. -/
lemma recognises_readList {α : Type} {step : ReadM α} {F : Format α}
    (hs : RecognisesBelow n step F) : RecognisesBelow n (h.readList step) (h.StoresList F) := by
  refine (h.recognises_readInt.bind fun count => hs.readTimes count.toNat).congr fun xs bs => ?_
  constructor
  · rintro ⟨count, front, back, hCount, ⟨len, each⟩, rfl⟩
    exact .mk hCount len each
  · intro stores
    cases stores with
    | mk hCount len each => exact ⟨_, _, _, hCount, ⟨len, each⟩, rfl⟩

/-- Each value of a list is computed from the one that is stored. -/
lemma each_map_iff {α β : Type} {F : Format α} {G : Format β} {f : α → β}
    (e : ∀ b bs, G b bs ↔ F.map f b bs) {ys : List β} {bs : Bytes} :
    Each G ys bs ↔ ∃ xs, Each F xs bs ∧ ys = xs.map f := by
  constructor
  · intro each
    induction each with
    | nil => exact ⟨[], .nil, rfl⟩
    | cons first _ ih =>
      obtain ⟨x, stored, rfl⟩ := (e _ _).mp first
      obtain ⟨xs, others, rfl⟩ := ih
      exact ⟨x :: xs, .cons stored others, rfl⟩
  · rintro ⟨xs, each, rfl⟩
    induction each with
    | nil => exact .nil
    | cons first _ ih => exact .cons ((e _ _).mpr ⟨_, first, rfl⟩) ih

/-- Instructions are stored as the unsigned numbers that they are. -/
lemma storesList_instruction_iff {code : List Int} {bs : Bytes} :
    h.StoresList h.StoresInstruction code bs ↔
      (h.StoresList (h.StoresUnsigned h.instructionSize.toNat)).map (List.map Int.ofNat)
        code bs := by
  have word (n : Int) (bs : Bytes) : h.StoresInstruction n bs ↔
      (Format.map Int.ofNat (h.StoresUnsigned h.instructionSize.toNat)) n bs := by
    constructor
    · rintro ⟨stored⟩
      exact ⟨_, stored, rfl⟩
    · rintro ⟨n, stored, rfl⟩
      exact .mk stored
  constructor
  · rintro ⟨hCount, len, each⟩
    obtain ⟨xs, each', rfl⟩ := (each_map_iff word).mp each
    rw [List.length_map] at len
    exact ⟨xs, .mk hCount len each', rfl⟩
  · rintro ⟨xs, ⟨hCount, len, each⟩, rfl⟩
    refine .mk hCount ?_ ((each_map_iff word).mpr ⟨xs, each, rfl⟩)
    rw [List.length_map]
    exact len

/-- The fields of a function in front of those nested in it. -/
def readBefore (h : Header) (outer : String) : ReadM FunctionBody := do
  let name ← h.readName
  let firstLine ← h.readInt
  let lastLine ← h.readInt
  let upvalueCount ← readByte
  let parameterCount ← readByte
  let varargFlag ← readByte
  let stackSize ← readByte
  let code ← h.readList (h.readUnsigned h.instructionSize.toNat)
  let constants ← h.readList h.readConstant
  return {
    source := if name.isEmpty then outer else name
    firstLine, lastLine
    upvalueCount := upvalueCount.toNat
    parameterCount := parameterCount.toNat
    varargFlag := varargFlag.toNat
    stackSize := stackSize.toNat
    code := code.map Int.ofNat
    constants
    lines := []
    locals := []
    upvalues := [] }

/-- The fields of a function behind those nested in it, added to the fields in front. -/
def readAfter (h : Header) (before : FunctionBody) : ReadM FunctionBody := do
  let lines ← h.readList h.readInt
  let locals ← h.readList h.readLocal
  let upvalues ← h.readList h.readName
  return { before with lines, locals, upvalues }

/-- A function is read as its fields with the functions nested in it in the middle. -/
lemma readProtoWith_eq (readNested : String → ReadM (List Proto)) (outer : String) :
    h.readProtoWith readNested outer = (do
      modify Cursor.entered
      let before ← h.readBefore outer
      let nested ← readNested before.source
      let body ← h.readAfter before
      writeLog .debug ("read " ++ Proto.display ⟨body, nested⟩)
      return ⟨body, nested⟩) := by
  unfold readProtoWith readBefore readAfter
  simp only [bind_assoc, pure_bind]

/-- Whether the fields of a function behind those nested in it are still empty. -/
def IsFront (b : FunctionBody) : Prop :=
  b.lines = [] ∧ b.locals = [] ∧ b.upvalues = []

/-- Reading the fields in front of the nested functions recognises them, with the other fields
empty. -/
lemma recognises_readBefore (valid : h.IsValid) (outer : String) :
    RecognisesBelow n (h.readBefore outer) fun b bs => IsFront b ∧ h.StoresBefore outer b bs := by
  refine (h.recognises_readName.bind fun name =>
    h.recognises_readInt.bind fun firstLine =>
    h.recognises_readInt.bind fun lastLine =>
    RecognisesBelow.readByte.bind fun upvalueCount =>
    RecognisesBelow.readByte.bind fun parameterCount =>
    RecognisesBelow.readByte.bind fun varargFlag =>
    RecognisesBelow.readByte.bind fun stackSize =>
    (h.recognises_readList (h.recognises_readUnsigned h.instructionSize.toNat)).bind fun code =>
    (h.recognises_readList (h.recognises_readConstant valid)).map fun constants =>
      FunctionBody.mk (if name.isEmpty then outer else name) firstLine lastLine upvalueCount.toNat
        parameterCount.toNat varargFlag.toNat stackSize.toNat (code.map Int.ofNat) constants
        [] [] []).congr fun b bs => ?_
  constructor
  · rintro ⟨name, bName, _, hName, ⟨first, bFirst, _, hFirst, ⟨last, bLast, _, hLast,
      ⟨u, _, _, rfl, ⟨p, _, _, rfl, ⟨v, _, _, rfl, ⟨s, _, _, rfl, ⟨code, bCode, bConstants, hCode,
        ⟨constants, hConstants, rfl⟩, rfl⟩, rfl⟩, rfl⟩, rfl⟩, rfl⟩, rfl⟩, rfl⟩, rfl⟩
    refine ⟨⟨rfl, rfl, rfl⟩, ?_⟩
    simp only [← List.append_assoc]
    refine .mk hName ?_ hFirst hLast (.mk u) (.mk p) (.mk v) (.mk s)
      (h.storesList_instruction_iff.mpr ⟨code, hCode, rfl⟩) hConstants
    simp only [String.isEmpty_iff]
  · obtain ⟨source, firstLine, lastLine, us, ps, vs, ss, code, constants, lines, locals,
      upvalues⟩ := b
    rintro ⟨⟨rfl, rfl, rfl⟩, stores⟩
    cases stores with
    | mk hName hSource hFirst hLast hu hp hv hs hCode hConstants =>
      dsimp only at hSource hFirst hLast hu hp hv hs hCode hConstants
      cases hu with | mk u =>
      cases hp with | mk p =>
      cases hv with | mk v =>
      cases hs with | mk s =>
      obtain ⟨code', hCode', rfl⟩ := h.storesList_instruction_iff.mp hCode
      refine ⟨_, _, _, hName, ⟨_, _, _, hFirst, ⟨_, _, _, hLast, ⟨u, _, _, rfl, ⟨p, _, _, rfl,
        ⟨v, _, _, rfl, ⟨s, _, _, rfl, ⟨code', _, _, hCode', ⟨constants, hConstants, ?_⟩, rfl⟩,
          rfl⟩, rfl⟩, rfl⟩, rfl⟩, rfl⟩, rfl⟩, ?_⟩
      · rw [hSource]
        simp only [String.isEmpty_iff]
      · simp only [List.append_assoc]

/-- Reading the fields behind the nested functions recognises them, and keeps those in front. -/
lemma recognises_readAfter (before : FunctionBody) :
    RecognisesBelow n (h.readAfter before) fun b bs =>
      b = { before with lines := b.lines, locals := b.locals, upvalues := b.upvalues } ∧
        h.StoresAfter b bs := by
  refine ((h.recognises_readList h.recognises_readInt).bind fun lines =>
    (h.recognises_readList h.recognises_readLocal).bind fun locals =>
    (h.recognises_readList h.recognises_readName).map fun upvalues =>
      { before with lines := lines, locals := locals, upvalues := upvalues }).congr fun b bs => ?_
  constructor
  · rintro ⟨lines, _, _, hLines, ⟨locals, _, _, hLocals, ⟨upvalues, hUpvalues, rfl⟩, rfl⟩, rfl⟩
    refine ⟨rfl, ?_⟩
    rw [← List.append_assoc]
    exact .mk hLines hLocals hUpvalues
  · rintro ⟨e, stores⟩
    cases stores with
    | mk hLines hLocals hUpvalues =>
      exact ⟨_, _, _, hLines, ⟨_, _, _, hLocals, ⟨_, hUpvalues, e⟩, rfl⟩, List.append_assoc _ _ _⟩

/-- The fields in front of the nested functions take at least four bytes. -/
lemma StoresBefore.le_length {h : Header} {outer : String} {b : FunctionBody} {bs : Bytes}
    (stores : h.StoresBefore outer b bs) : 4 ≤ bs.length := by
  obtain ⟨source, firstLine, lastLine, us, ps, vs, ss, code, constants, lines, locals,
    upvalues⟩ := b
  cases stores with
  | mk _ _ _ _ hu hp hv hs =>
    dsimp only at hu hp hv hs
    cases hu with | mk u =>
    cases hp with | mk p =>
    cases hv with | mk v =>
    cases hs with | mk s =>
    simp only [List.length_append, List.length_singleton]
    omega

/-- What is stored in front of the nested functions does not depend on what is stored behind. -/
lemma storesBefore_congr {h : Header} {outer : String} {b : FunctionBody} {bs : Bytes}
    (lines : List Int) (locals : List LocalVariable) (upvalues : List String) :
    h.StoresBefore outer { b with lines := lines, locals := locals, upvalues := upvalues } bs ↔
      h.StoresBefore outer b bs := by
  constructor
  · rintro ⟨hName, hSource, hFirst, hLast, hu, hp, hv, hs, hCode, hConstants⟩
    exact .mk hName hSource hFirst hLast hu hp hv hs hCode hConstants
  · rintro ⟨hName, hSource, hFirst, hLast, hu, hp, hv, hs, hCode, hConstants⟩
    exact .mk hName hSource hFirst hLast hu hp hv hs hCode hConstants

/-- A function, given that the list of functions nested in it is recognised where four bytes less
are left. -/
lemma recognises_readProtoWith (valid : h.IsValid) {readNested : String → ReadM (List Proto)}
    (hn : ∀ source, RecognisesBelow n (readNested source) (h.StoresList (h.StoresProto source)))
    (outer : String) :
    RecognisesBelow (n + 4) (h.readProtoWith readNested outer) (h.StoresProto outer) := by
  rw [readProtoWith_eq]
  -- The fields in front take four bytes, which is how much lower the bound for what follows is.
  refine .nothing_bind (.modify (fun _ => rfl) (fun _ => rfl)) ?_
  have tail (before : FunctionBody) : RecognisesBelow n
      (readNested before.source >>= fun nested => h.readAfter before >>= fun body =>
        writeLog .debug ("read " ++ Proto.display ⟨body, nested⟩) >>= fun _ =>
          pure (Proto.mk body nested)) _ :=
    (hn before.source).bind fun nested => (h.recognises_readAfter before).bind fun body =>
      .nothing_bind (.modify (fun _ => rfl) (fun _ => rfl)) (.pure (Proto.mk body nested))
  refine (RecognisesBelow.bind_of_le (fun stores => stores.2.le_length)
    (h.recognises_readBefore valid outer) fun _ => tail _).congr fun p bs => ?_
  rw [storesProto_iff]
  constructor
  · rintro ⟨before, bBefore, _, ⟨-, hBefore⟩, ⟨nested, bNested, _, hNested,
      ⟨body, bAfter, _, ⟨e, hAfter⟩, ⟨rfl, rfl⟩, rfl⟩, rfl⟩, rfl⟩
    have source : body.source = before.source := by rw [e]
    refine ⟨bBefore, bNested, bAfter, ?_, ?_, hAfter, ?_⟩
    · rw [e]
      exact (storesBefore_congr _ _ _).mpr hBefore
    · dsimp only
      rw [source]
      exact hNested
    · rw [List.append_nil, List.append_assoc]
  · rintro ⟨bBefore, bNested, bAfter, hBefore, hNested, hAfter, rfl⟩
    cases p with | mk body nested =>
    refine ⟨{ body with lines := [], locals := [], upvalues := [] }, bBefore, bNested ++ bAfter,
      ⟨⟨rfl, rfl, rfl⟩, (storesBefore_congr _ _ _).mpr hBefore⟩, ⟨nested, bNested, bAfter, hNested,
        ⟨body, bAfter, [], ⟨rfl, hAfter⟩, ⟨rfl, rfl⟩, (List.append_nil _).symm⟩, rfl⟩, ?_⟩
    rw [List.append_assoc]

/-- A function whose nesting is bounded, where the bound suffices for the bytes that are left. -/
lemma recognises_readProtoWithin (valid : h.IsValid) (depth : Nat) (outer : String) :
    RecognisesBelow (4 * (depth + 1)) (h.readProtoWithin depth outer) (h.StoresProto outer) := by
  induction depth generalizing outer with
  | zero => exact h.recognises_readProtoWith valid (fun _ => .zero) outer
  | succ depth ih =>
    exact h.recognises_readProtoWith valid (fun source => h.recognises_readList (ih source)) outer

/-- Reading a function recognises the stored functions, whatever number of bytes is left. -/
lemma recognises_readProto (valid : h.IsValid) (outer : String) :
    RecognisesBelow n (h.readProto outer) (h.StoresProto outer) := by
  -- A function takes four bytes, so a quarter of the bytes that are left bounds the nesting.
  have enough (c : Cursor) : c.rest.length < 4 * (c.rest.length / 4 + 1) := by omega
  constructor
  · intro c p c' _ e
    exact (h.recognises_readProtoWithin valid _ outer).sound (enough c) e
  · intro c p bs t _ stores e
    exact (h.recognises_readProtoWithin valid _ outer).complete (enough c) stores e

/-- The test of the size of numbers agrees with the validity of the header. -/
lemma hasNumberSize_iff : h.hasNumberSize = true ↔ h.IsValid := by
  simp only [hasNumberSize, IsValid, Bool.or_eq_true, beq_iff_eq, bne_iff_ne, or_assoc]

end Header

/-- The fields of a header behind its version. -/
def readWidths : ReadM Header := do
  let format ← readByte
  let endianness ← readByte
  let intSize ← readByte
  let sizeSize ← readByte
  let instructionSize ← readByte
  let numberSize ← readByte
  let integral ← readByte
  return ⟨format, endianness, intSize, sizeSize, instructionSize, numberSize, integral⟩

/-- A header is read as its signature, its version and its other fields. -/
lemma readHeader_eq : readHeader = (do
    let start ← readBytes signature.length
    require (start == signature) .noSignature 0
    let version ← readByte
    require (version == versionByte) (.unsupportedVersion version) 4
    let h ← readWidths
    require h.hasNumberSize (.unsupportedNumberSize h.numberSize) 10
    return h) := by
  unfold readHeader readWidths
  simp only [bind_assoc, pure_bind]

/-- Reading the fields of a header behind its version recognises these seven bytes. -/
lemma recognises_readWidths {n : Nat} :
    RecognisesBelow n readWidths fun h bs => bs = [h.format, h.endianness, h.intSize, h.sizeSize,
      h.instructionSize, h.numberSize, h.integral] := by
  refine (RecognisesBelow.readByte.bind fun format =>
    RecognisesBelow.readByte.bind fun endianness =>
    RecognisesBelow.readByte.bind fun intSize =>
    RecognisesBelow.readByte.bind fun sizeSize =>
    RecognisesBelow.readByte.bind fun instructionSize =>
    RecognisesBelow.readByte.bind fun numberSize =>
    RecognisesBelow.readByte.map fun integral =>
      Header.mk format endianness intSize sizeSize instructionSize numberSize integral).congr
        fun h bs => ?_
  constructor
  · rintro ⟨_, _, _, rfl, ⟨_, _, _, rfl, ⟨_, _, _, rfl, ⟨_, _, _, rfl, ⟨_, _, _, rfl,
      ⟨_, _, _, rfl, ⟨_, rfl, rfl⟩, rfl⟩, rfl⟩, rfl⟩, rfl⟩, rfl⟩, rfl⟩
    rfl
  · rintro rfl
    exact ⟨_, _, _, rfl, ⟨_, _, _, rfl, ⟨_, _, _, rfl, ⟨_, _, _, rfl, ⟨_, _, _, rfl,
      ⟨_, _, _, rfl, ⟨_, rfl, rfl⟩, rfl⟩, rfl⟩, rfl⟩, rfl⟩, rfl⟩, rfl⟩

/-- Reading a header recognises the bytes of the valid headers. -/
lemma recognises_readHeader {n : Nat} :
    RecognisesBelow n readHeader fun h bs => h.IsValid ∧ bs = h.bytes := by
  rw [readHeader_eq]
  refine ((RecognisesBelow.readBytes _).bind fun start =>
    (RecognisesBelow.require (start == signature) _ _).bind fun _ =>
    RecognisesBelow.readByte.bind fun version =>
    (RecognisesBelow.require (version == versionByte) _ _).bind fun _ =>
    recognises_readWidths.bind fun h =>
    (RecognisesBelow.require h.hasNumberSize _ _).map fun _ => h).congr fun h bs => ?_
  constructor
  · rintro ⟨start, _, _, ⟨rfl, -⟩, ⟨_, _, _, ⟨hs, rfl⟩, ⟨version, _, _, rfl, ⟨_, _, _, ⟨hv, rfl⟩,
      ⟨_, _, _, rfl, ⟨_, ⟨hn, rfl⟩, rfl⟩, rfl⟩, rfl⟩, rfl⟩, rfl⟩, rfl⟩
    rw [beq_iff_eq.mp hs, beq_iff_eq.mp hv]
    exact ⟨(Header.hasNumberSize_iff _).mp hn, rfl⟩
  · rintro ⟨valid, rfl⟩
    exact ⟨signature, signature, _, ⟨rfl, rfl⟩, ⟨(), [], _, ⟨rfl, rfl⟩, ⟨versionByte, _, _, rfl,
      ⟨(), [], _, ⟨rfl, rfl⟩, ⟨h, _, [], rfl, ⟨(), ⟨h.hasNumberSize_iff.mpr valid, rfl⟩, rfl⟩,
        (List.append_nil _).symm⟩, rfl⟩, rfl⟩, rfl⟩, rfl⟩

/-- What follows the header of a chunk, with or without the summary of the header in the log. -/
lemma recognises_afterHeader {n : Nat} {h : Header} (valid : h.IsValid) (withSummary : Bool) :
    RecognisesBelow n (do
      if withSummary then h.logSummary
      h.readProto "") (h.StoresProto "") := by
  cases withSummary with
  | false => exact h.recognises_readProto valid ""
  | true =>
    exact .nothing_bind (.modify (fun _ => rfl) (fun _ => rfl)) (h.recognises_readProto valid "")

/-- A chunk, with or without the summary of its header in the log. -/
lemma recognises_readChunk {n : Nat} (withSummary : Bool) :
    RecognisesBelow n (readChunk withSummary) fun p bs =>
      ∃ (h : Header) (stored : Bytes), h.IsValid ∧ h.StoresProto "" p stored ∧
        bs = h.bytes ++ stored := by
  refine (RecognisesBelow.bind_of_le (k := 0) (fun _ => Nat.zero_le _) recognises_readHeader
    fun stored => recognises_afterHeader stored.1 withSummary).congr fun p bs => ?_
  constructor
  · rintro ⟨h, _, stored, ⟨valid, rfl⟩, stores, rfl⟩
    exact ⟨h, stored, valid, stores, rfl⟩
  · rintro ⟨h, stored, valid, stores, rfl⟩
    exact ⟨h, h.bytes, stored, ⟨valid, rfl⟩, stores, rfl⟩

/-- A header takes twelve bytes. -/
lemma Header.length_bytes (h : Header) : h.bytes.length = 12 :=
  rfl

/-- A chunk is read as a given function, up to a given position, exactly if it begins with a valid
header and with bytes that store the function under this header and end at the position. -/
theorem readChunk_eq_ok_iff (withSummary : Bool) (data : Bytes) (p : Proto) (j : Nat) :
    (∃ c, readChunk withSummary (.start data) = .ok p c ∧ c.position = j) ↔
      ∃ (h : Header) (stored rest : Bytes), h.IsValid ∧ h.StoresProto "" p stored ∧
        data = h.bytes ++ stored ++ rest ∧ j = 12 + stored.length := by
  have recognises := recognises_readChunk (n := data.length + 1) withSummary
  constructor
  · rintro ⟨c, read, rfl⟩
    obtain ⟨_, ⟨h, stored, valid, stores, rfl⟩, passed⟩ :=
      recognises.sound (Nat.lt_succ_self _) read
    refine ⟨h, stored, c.rest, valid, stores, passed.rest, ?_⟩
    rw [passed.position, List.length_append, h.length_bytes]
    exact Nat.zero_add _
  · rintro ⟨h, stored, rest, valid, stores, rfl, rfl⟩
    obtain ⟨c, read, passed⟩ :=
      recognises.complete (c := .start (h.bytes ++ stored ++ rest)) (Nat.lt_succ_self _)
        ⟨h, stored, valid, stores, rfl⟩ rfl
    refine ⟨c, read, ?_⟩
    rw [passed.position, List.length_append, h.length_bytes]
    exact Nat.zero_add _

end LuaChunk
