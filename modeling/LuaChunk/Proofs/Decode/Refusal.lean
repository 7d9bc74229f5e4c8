import LuaChunk.Proofs.Decode.Asking
import LuaChunk.Proofs.Decode.Truncation

/-!
# What an error tells about a chunk

A chunk is refused at the tag of a constant only where a constant comes next by the format:
`Header.LeadsToConstant` says which bytes of a function stand in front of a constant, and
`refuses_readProto` that each refused tag stands behind such bytes.  `FaultyHeader` does the same
for the header.  With the lack of bytes these are all the errors, and `readChunk_diagnostic` says
for each what its diagnostic tells.
-/

namespace LuaChunk

namespace Header

/-- The bytes of a function, inside one of a given source name, in front of a constant: one of its
own, or one of a function nested in it at any depth. -/
inductive LeadsToConstant (h : Header) : String → Bytes → Prop where
  | own {outer name bName first bFirst last bLast code bCode count bCount constants bConstants}
      {upvalues parameters vararg stack : UInt8} :
    h.StoresName name bName →
    h.StoresInt first bFirst →
    h.StoresInt last bLast →
    h.StoresList h.StoresInstruction code bCode →
    h.StoresInt count bCount →
    Each h.StoresConstant constants bConstants →
    constants.length < count.toNat →
    LeadsToConstant h outer (bName ++ bFirst ++ bLast ++ [upvalues, parameters, vararg, stack] ++
      bCode ++ bCount ++ bConstants)
  | nested {outer body before count bCount others bOthers inner} :
    h.StoresBefore outer body before →
    h.StoresInt count bCount →
    Each (h.StoresProto body.source) others bOthers →
    others.length < count.toNat →
    LeadsToConstant h body.source inner →
    LeadsToConstant h outer (before ++ bCount ++ bOthers ++ inner)

/-- The bytes of a list in front of a place inside of one of its members. -/
inductive LeadsIntoList {α : Type} (h : Header) (F : Format α) (Front : Bytes → Prop) :
    Bytes → Prop where
  | mk {xs count bCount bItems front} :
    h.StoresInt count bCount →
    Each F xs bItems →
    xs.length < count.toNat →
    Front front →
    LeadsIntoList h F Front (bCount ++ bItems ++ front)

end Header

/-- A scan that refuses nothing fails only at the end of the bytes, where it stands. -/
lemma Scan.isEndAt {α : Type} {x : ReadM α} {c c' : Cursor} {e : ReadError}
    (scan : Scan (fun _ => False) x) (failed : x c = .error e c') : e.IsEndAt c' := by
  obtain ⟨_, -, ended | ⟨never, -⟩⟩ := scan.error failed
  · exact ended
  · exact never.elim

/-- Where fewer than `n` bytes are left, a step refuses a tag only behind bytes of a given kind, and
stops right behind the tag. -/
def RefusesBelow {α : Type} (n : Nat) (x : ReadM α) (Front : Bytes → Prop) : Prop :=
  ∀ c e c' tag, c.rest.length < n → x c = .error e c' → e.fault = .illegalTag tag →
    ∃ front, Front front ∧ c.Passed (front ++ [tag]) c' ∧
      e.offset = (c.position + front.length : Nat) ∧ Kind.ofTag? tag = none

namespace RefusesBelow

variable {α β : Type} {n k : Nat} {x : ReadM α} {f : α → ReadM β} {F : Format α}
  {Front Front' : Bytes → Prop}

/-- There is nothing to refuse where no number of bytes is allowed. -/
lemma zero : RefusesBelow 0 x Front :=
  fun _ _ _ _ lt => absurd lt (Nat.not_lt_zero _)

/-- What is in front of a refused tag may be described more widely. -/
lemma mono (h : RefusesBelow n x Front) (wider : ∀ bs, Front bs → Front' bs) :
    RefusesBelow n x Front' := by
  intro c e c' tag lt failed fault
  obtain ⟨front, leads, rest⟩ := h c e c' tag lt failed fault
  exact ⟨front, wider front leads, rest⟩

/-- A scan that refuses nothing refuses no tag. -/
lemma of_scan (scan : Scan (fun _ => False) x) : RefusesBelow n x Front := by
  intro c e c' tag _ failed fault
  obtain ⟨_, rfl, -⟩ := scan.isEndAt failed
  cases fault

/-- A step that takes at least `k` bytes leaves that many less to what follows it. -/
lemma bind_of_le (long : ∀ {a bs}, F a bs → k ≤ bs.length) (hx : RecognisesBelow (n + k) x F)
    (first : RefusesBelow (n + k) x Front)
    (others : ∀ a bs, F a bs → RefusesBelow n (f a) fun front => Front (bs ++ front)) :
    RefusesBelow (n + k) (x >>= f) Front := by
  intro c e c' tag lt failed fault
  obtain failed | ⟨a, c₁, read, failed⟩ := bind_eq_error_iff.mp failed
  · exact first c e c' tag lt failed fault
  · obtain ⟨bs, stored, passed⟩ := hx.sound lt read
    have left := passed.length_rest
    have taken := long stored
    obtain ⟨front, leads, passed', offset, bad⟩ :=
      others a bs stored c₁ e c' tag (by omega) failed fault
    refine ⟨bs ++ front, leads, ?_, ?_, bad⟩
    · rw [List.append_assoc]
      exact passed.trans passed'
    · rw [offset, passed.position, List.length_append, Nat.add_assoc]

/-- Behind a recognised first step a tag is refused behind the bytes of this step. -/
lemma bind (hx : RecognisesBelow n x F) (first : RefusesBelow n x Front)
    (others : ∀ a bs, F a bs → RefusesBelow n (f a) fun front => Front (bs ++ front)) :
    RefusesBelow n (x >>= f) Front :=
  bind_of_le (k := 0) (fun _ => Nat.zero_le _) hx first others

/-- A step that refuses no tag, in front of one that may. -/
lemma skip (scan : Scan (fun _ => False) x) (hx : RecognisesBelow n x F)
    (others : ∀ a bs, F a bs → RefusesBelow n (f a) fun front => Front (bs ++ front)) :
    RefusesBelow n (x >>= f) Front :=
  bind hx (of_scan scan) others

/-- A repeated step refuses a tag behind the values that it has read before. -/
lemma times (hx : RecognisesBelow n x F) (first : RefusesBelow n x Front) (m : Nat) :
    RefusesBelow n (readTimes x m) fun bs => ∃ xs bItems front, Each F xs bItems ∧ xs.length < m ∧
      Front front ∧ bs = bItems ++ front := by
  induction m with
  | zero => exact of_scan (.pure [])
  | succ m ih =>
    refine bind hx (first.mono fun front leads => ?_) fun a bs stored => ?_
    · exact ⟨[], [], front, .nil, Nat.succ_pos m, leads, rfl⟩
    · refine bind (hx.readTimes m) (ih.mono ?_) fun as _ _ => of_scan (.pure _)
      rintro _ ⟨xs, bItems, front, each, lt, leads, rfl⟩
      exact ⟨a :: xs, bs ++ bItems, front, .cons stored each, Nat.succ_lt_succ lt, leads,
        (List.append_assoc _ _ _).symm⟩

end RefusesBelow

namespace Header

variable {n : Nat} (h : Header)

/-- A constant refuses its own tag only, with nothing in front of it. -/
lemma refuses_readConstant : RefusesBelow n h.readConstant (· = []) := by
  intro c e c' tag _ failed fault
  rw [readConstant_eq] at failed
  have failed : h.readConstantAt c.position c = .error e c' := failed
  obtain failed | ⟨b, c₁, read, failed⟩ := bind_eq_error_iff.mp failed
  · obtain ⟨_, rfl, -⟩ := Scan.byte.isEndAt failed
    cases fault
  · cases bad : Kind.ofTag? b with
    | some kind =>
      rw [bad] at failed
      obtain ⟨_, rfl, -⟩ := (h.scan_readPayload kind).isEndAt failed
      cases fault
    | none =>
      rw [bad] at failed
      cases failed
      cases fault
      obtain ⟨_, rfl, passed⟩ := RecognisesBelow.readByte.sound (Nat.lt_succ_self _) read
      exact ⟨[], rfl, passed, rfl, bad⟩

/-- A list refuses a tag only inside one of its members. -/
lemma refuses_readList {α : Type} {step : ReadM α} {F : Format α} {Front : Bytes → Prop}
    (recognises : RecognisesBelow n step F) (refuses : RefusesBelow n step Front) :
    RefusesBelow n (h.readList step) (h.LeadsIntoList F Front) := by
  refine .skip h.scan_readInt h.recognises_readInt fun count bCount hCount => ?_
  refine (RefusesBelow.times recognises refuses count.toNat).mono ?_
  rintro _ ⟨xs, bItems, front, each, lt, leads, rfl⟩
  rw [← List.append_assoc]
  exact .mk hCount each lt leads

/-- The fields in front of the nested functions refuse a tag only where a constant stands. -/
lemma refuses_readBefore (valid : h.IsValid) (outer : String) :
    RefusesBelow n (h.readBefore outer) (h.LeadsToConstant outer) := by
  refine .skip h.scan_readName h.recognises_readName fun name bName hName => ?_
  refine .skip h.scan_readInt h.recognises_readInt fun first bFirst hFirst => ?_
  refine .skip h.scan_readInt h.recognises_readInt fun last bLast hLast => ?_
  refine .skip .byte .readByte fun upvalues _ hUpvalues => ?_
  refine .skip .byte .readByte fun parameters _ hParameters => ?_
  refine .skip .byte .readByte fun vararg _ hVararg => ?_
  refine .skip .byte .readByte fun stack _ hStack => ?_
  refine .skip (h.scan_readList (h.scan_readUnsigned _))
    (h.recognises_readList (h.recognises_readUnsigned _)) fun code bCode hCode => ?_
  have constants := h.recognises_readConstant (n := n) valid
  refine .bind (h.recognises_readList constants)
    ((h.refuses_readList constants h.refuses_readConstant).mono ?_) fun _ _ _ => .of_scan (.pure _)
  rintro _ ⟨hCount, each, lt, rfl⟩
  cases hUpvalues
  cases hParameters
  cases hVararg
  cases hStack
  have leads : h.LeadsToConstant outer (bName ++ bFirst ++ bLast ++
      [upvalues, parameters, vararg, stack] ++ bCode ++ _ ++ _) :=
    .own hName hFirst hLast (h.storesList_instruction_iff.mpr ⟨code, hCode, rfl⟩) hCount each lt
  simpa only [List.append_assoc, List.append_nil, List.cons_append, List.nil_append] using leads

/-- A function refuses a tag only where a constant stands, if the functions nested in it do so. -/
lemma refuses_readProtoWith (valid : h.IsValid) {readNested : String → ReadM (List Proto)}
    (recognises : ∀ source,
      RecognisesBelow n (readNested source) (h.StoresList (h.StoresProto source)))
    (refuses : ∀ source, RefusesBelow n (readNested source)
      (h.LeadsIntoList (h.StoresProto source) (h.LeadsToConstant source))) (outer : String) :
    RefusesBelow (n + 4) (h.readProtoWith readNested outer) (h.LeadsToConstant outer) := by
  rw [readProtoWith_eq]
  refine .skip .enter (.modify (fun _ => rfl) (fun _ => rfl)) fun _ _ nothing => ?_
  obtain ⟨-, rfl⟩ := nothing
  refine .bind_of_le (fun stores => stores.2.le_length) (h.recognises_readBefore valid outer)
    (h.refuses_readBefore valid outer) fun before bBefore hBefore => ?_
  refine .bind (recognises before.source) ((refuses before.source).mono ?_) fun nested _ _ => ?_
  · rintro _ ⟨hCount, each, lt, leads⟩
    have leads := LeadsToConstant.nested hBefore.2 hCount each lt leads
    simpa only [List.append_assoc, List.nil_append] using leads
  · exact .of_scan (.bind (h.scan_readAfter before) fun body =>
      .bind (.log [⟨.debug, "read " ++ Proto.display ⟨body, nested⟩⟩]) fun _ => .pure _)

/-- With a bound on the nesting a function refuses a tag only where a constant stands. -/
lemma refuses_readProtoWithin (valid : h.IsValid) (depth : Nat) (outer : String) :
    RefusesBelow (4 * (depth + 1)) (h.readProtoWithin depth outer) (h.LeadsToConstant outer) := by
  induction depth generalizing outer with
  | zero => exact h.refuses_readProtoWith valid (fun _ => .zero) (fun _ => .zero) outer
  | succ depth ih =>
    have recognises (source : String) := h.recognises_readProtoWithin valid depth source
    exact h.refuses_readProtoWith valid (fun source => h.recognises_readList (recognises source))
      (fun source => h.refuses_readList (recognises source) (ih source)) outer

/-- A tag is refused only where a constant comes next. -/
lemma refuses_readProto (valid : h.IsValid) (outer : String) :
    RefusesBelow n (h.readProto outer) (h.LeadsToConstant outer) := by
  intro c e c' tag _ failed fault
  have enough : c.rest.length < 4 * (c.rest.length / 4 + 1) := by omega
  exact h.refuses_readProtoWithin valid _ outer c e c' tag enough failed fault

end Header

/-- The next `n` bytes as a value, or a failure if they are none. -/
def readChecked {α : Type} (n : Nat) (value? : Bytes → Option α) : ReadM α := do
  match value? (← readBytes n) with
  | some a => return a
  | none => failHere (.refused "These bytes have no value")

/-- A check of the bytes that never fails is no check. -/
lemma readChecked_eq {α : Type} {n : Nat} {value? : Bytes → Option α} {value : Bytes → α}
    (has : ∀ bs, bs.length = n → value? bs = some (value bs)) :
    readChecked n value? = readBytes n >>= fun bs => pure (value bs) := by
  funext c
  simp only [readChecked, Bind.bind, EStateM.bind]
  obtain ⟨bs, t, len, -, read⟩ | ⟨-, failed⟩ := readBytes_cases n c
  · rw [read]
    dsimp only
    rw [has bs len]
  · rw [failed]

/-- A byte is the first of one byte, and this check does not fail. -/
lemma readByte_eq_readChecked : readByte = readChecked 1 List.head? := by
  rw [readByte_eq]
  refine (readChecked_eq fun bs one => ?_).symm
  obtain ⟨b, rfl⟩ := List.length_eq_one_iff.mp one
  rfl

namespace Header

/-- The number that bytes store, if they are as many as a number in the storage takes. -/
def unpack? (h : Header) (bytes : Bytes) : Option Number :=
  match h.numberFormat with
  | .integer => some (h.number bytes)
  | .double => if bytes.length = 8 then some (h.number bytes) else none
  | .single => if bytes.length = 4 then some (h.number bytes) else none

/-- The bytes of a number have a value under a header that is valid. -/
lemma unpack?_eq {h : Header} (valid : h.IsValid) {bytes : Bytes}
    (len : bytes.length = h.numberSize.toNat) : h.unpack? bytes = some (h.number bytes) := by
  unfold unpack? numberFormat
  by_cases float : h.integral = 0
  · rw [if_neg (not_not.mpr float)]
    rcases valid with four | eight | integral
    · rw [four] at len
      rw [if_neg (by rw [four]; decide)]
      exact if_pos len
    · rw [eight] at len
      rw [if_pos eight]
      exact if_pos len
    · exact absurd float integral
  · rw [if_pos float]

/-- The bytes of a number are always as many as its storage takes. -/
lemma readNumber_eq_readChecked {h : Header} (valid : h.IsValid) :
    h.readNumber = readChecked h.numberSize.toNat h.unpack? :=
  (readChecked_eq fun _ len => unpack?_eq valid len).symm

end Header

/-- What an error about the header reports is what the chunk holds there. -/
inductive FaultyHeader (data : Bytes) : ReadError → Prop where
  | signature {start rest : Bytes} :
    data = start ++ rest →
    start.length = signature.length →
    start ≠ signature →
    FaultyHeader data ⟨.noSignature, 0⟩
  | version {version rest} :
    data = signature ++ version :: rest →
    version ≠ versionByte →
    FaultyHeader data ⟨.unsupportedVersion version, 4⟩
  | numberSize {h : Header} {rest : Bytes} :
    data = h.bytes ++ rest →
    ¬ h.IsValid →
    FaultyHeader data ⟨.unsupportedNumberSize h.numberSize, 10⟩

/-- A fault of the header is reported at an offset inside the chunk, as one of the bytecode. -/
lemma FaultyHeader.exists_offset {data : Bytes} {e : ReadError} (faulty : FaultyHeader data e) :
    ∃ o : Nat, e.offset = o ∧ o ≤ data.length ∧ e.fault.category = .bytecode := by
  cases faulty with
  | signature => exact ⟨0, rfl, Nat.zero_le _, rfl⟩
  | version parts =>
    refine ⟨4, rfl, ?_, rfl⟩
    rw [parts, List.length_append]
    exact Nat.le_add_right _ _
  | @numberSize h _ parts =>
    refine ⟨10, rfl, ?_, rfl⟩
    rw [parts, List.length_append, h.length_bytes]
    omega

/-- What fails if a value is read, and required to be one that will do, before anything else. -/
lemma error_of_required {α β : Type} {x : ReadM α} {F : Format α} {good : α → Bool}
    {fault : α → ReadFault} {offset : Int} {f : α → ReadM β} {c c' : Cursor} {e : ReadError}
    (scan : Scan (fun _ => False) x) (recognises : ∀ n, RecognisesBelow n x F)
    (failed : (x >>= fun a => require (good a) (fault a) offset >>= fun _ => f a) c =
      .error e c') :
    e.IsEndAt c' ∨ ∃ a bs c₁, F a bs ∧ c.Passed bs c₁ ∧
      (good a = false ∧ e = ⟨fault a, offset⟩ ∨ good a = true ∧ f a c₁ = .error e c') := by
  obtain failed | ⟨a, c₁, read, failed⟩ := bind_eq_error_iff.mp failed
  · exact .inl (scan.isEndAt failed)
  · obtain ⟨bs, stored, passed⟩ := (recognises _).sound (Nat.lt_succ_self _) read
    refine .inr ⟨a, bs, c₁, stored, passed, ?_⟩
    cases required : good a with
    | false =>
      rw [required] at failed
      cases failed
      exact .inl ⟨rfl, rfl⟩
    | true =>
      rw [required] at failed
      exact .inr ⟨rfl, failed⟩

/-- The header of a chunk ends too early, or one of its fields is at fault. -/
lemma readHeader_error {data : Bytes} {c : Cursor} {e : ReadError}
    (failed : readHeader (.start data) = .error e c) : e.IsEndAt c ∨ FaultyHeader data e := by
  rw [readHeader_eq] at failed
  -- The signature: four bytes, which have to be the right ones.
  obtain ended | ⟨start, _, c₁, ⟨rfl, len⟩, passed₁, ⟨differs, rfl⟩ | ⟨same, failed⟩⟩ :=
    error_of_required (.bytes _) (fun _ => .readBytes _) failed
  · exact .inl ended
  · exact .inr (.signature passed₁.rest len (beq_eq_false_iff_ne.mp differs))
  rw [beq_iff_eq.mp same] at passed₁
  -- The version.
  obtain ended | ⟨version, _, c₂, rfl, passed₂, ⟨differs, rfl⟩ | ⟨same, failed⟩⟩ :=
    error_of_required .byte (fun _ => .readByte) failed
  · exact .inl ended
  · exact .inr (.version (passed₁.trans passed₂).rest (beq_eq_false_iff_ne.mp differs))
  rw [beq_iff_eq.mp same] at passed₂
  -- The widths, of which only that of numbers is looked at.
  obtain ended | ⟨h, _, c₃, rfl, passed₃, ⟨bad, rfl⟩ | ⟨-, failed⟩⟩ :=
    error_of_required scan_readWidths (fun _ => recognises_readWidths) failed
  · exact .inl ended
  · refine .inr (.numberSize (h := h) ((passed₁.trans passed₂).trans passed₃).rest fun valid => ?_)
    rw [h.hasNumberSize_iff.mpr valid] at bad
    cases bad
  · cases failed

/-- A tag of no kind is none of the four tags. -/
lemma not_mem_of_ofTag? {tag : UInt8} (bad : Kind.ofTag? tag = none) : tag ∉ [0, 1, 3, 4] := by
  intro mem
  simp only [List.mem_cons, List.not_mem_nil, or_false] at mem
  rcases mem with rfl | rfl | rfl | rfl <;> cases bad

/-- A tag is at fault in a chunk behind a header and bytes that lead to a constant. -/
inductive FaultyTag (data : Bytes) (c : Cursor) : ReadError → Prop where
  | mk {h : Header} {front rest : Bytes} {tag : UInt8} :
    h.IsValid →
    h.LeadsToConstant "" front →
    data = h.bytes ++ front ++ tag :: rest →
    tag ∉ [0, 1, 3, 4] →
    c.position = 12 + front.length + 1 →
    FaultyTag data c ⟨.illegalTag tag, (12 + front.length : Nat)⟩

/-- What follows the header of a chunk ends too early, or one of its tags is at fault. -/
lemma readProto_error {h : Header} {data : Bytes} {c c' : Cursor} {e : ReadError}
    (valid : h.IsValid) (passed : (Cursor.start data).Passed h.bytes c)
    (failed : h.readProto "" c = .error e c') : e.IsEndAt c' ∨ FaultyTag data c' e := by
  have scan : Scan (fun fault => ∃ tag, fault = .illegalTag tag) (h.readProto "") :=
    h.scan_readProto (fun tag => ⟨tag, rfl⟩) ""
  obtain ⟨_, -, ended | ⟨⟨tag, fault⟩, -⟩⟩ := scan.error failed
  · exact .inl ended
  · obtain ⟨front, leads, passed', offset, bad⟩ :=
      h.refuses_readProto valid "" c e c' tag (Nat.lt_succ_self _) failed fault
    have position : c.position = 12 := passed.position.trans (Nat.zero_add _)
    rw [position] at offset
    obtain ⟨_, _⟩ := e
    cases fault
    cases offset
    have parts : data = h.bytes ++ front ++ tag :: c'.rest := by
      rw [List.append_assoc, List.append_cons, ← List.append_assoc]
      exact (passed.trans passed').rest
    refine .inr (.mk valid leads parts (not_mem_of_ofTag? bad) ?_)
    rw [passed'.position, position, List.length_append, Nat.add_assoc]
    rfl

/-- A chunk that cannot be read ends too early, or its header or one of its tags is at fault. -/
lemma readChunk_error {withSummary : Bool} {data : Bytes} {c : Cursor} {e : ReadError}
    (failed : readChunk withSummary (.start data) = .error e c) :
    e.IsEndAt c ∨ FaultyHeader data e ∨ FaultyTag data c e := by
  cases header : readHeader (.start data) with
  | error e' c' =>
    cases failed.symm.trans (bind_eq_error_iff.mpr (.inl header))
    exact (readHeader_error header).imp_right .inl
  | ok h c₁ =>
    rw [readChunk_of_readHeader withSummary header] at failed
    obtain ⟨_, ⟨valid, rfl⟩, passed⟩ := recognises_readHeader.sound (Nat.lt_succ_self _) header
    have logged (l : Log) : (Cursor.start data).Passed h.bytes { c₁ with log := l } :=
      ⟨passed.rest, passed.position⟩
    exact (readProto_error valid (logged _) failed).imp_right .inr

/-- A chunk is refused exactly if it does not begin with a valid header and a function that is
stored under it. -/
lemma exists_readChunk_eq_error_iff {withSummary : Bool} {data : Bytes} :
    (∃ e c, readChunk withSummary (.start data) = .error e c) ↔
      ∀ (h : Header) (p : Proto) (stored rest : Bytes), h.IsValid → h.StoresProto "" p stored →
        data ≠ h.bytes ++ stored ++ rest := by
  have recognises := recognises_readChunk (n := data.length + 1) withSummary
  constructor
  · rintro ⟨e, c, failed⟩ h p stored rest valid stores rfl
    obtain ⟨c', read, -⟩ := recognises.complete (c := .start (h.bytes ++ stored ++ rest))
      (Nat.lt_succ_self _) ⟨h, stored, valid, stores, rfl⟩ rfl
    cases failed.symm.trans read
  · intro none
    cases outcome : readChunk withSummary (.start data) with
    | ok p c =>
      obtain ⟨_, ⟨h, stored, valid, stores, rfl⟩, passed⟩ :=
        recognises.sound (Nat.lt_succ_self _) outcome
      exact absurd passed.rest (none h p stored c.rest valid stores)
    | error e c => exact ⟨e, c, rfl⟩

/-- A chunk is read or refused by a diagnostic: no number and no byte is taken from bytes that are
not as many as it needs, and the diagnostic names the given file and a place in the chunk.  There
the bytes are fewer than the number that it names, or the header is at fault, or the tag of a
constant is none and is the one that it names.  It is refused exactly if it does not begin with a
valid header and a function that is stored under it. -/
theorem readChunk_diagnostic (withSummary : Bool) (file : Option String) (data : Bytes) :
    (readByte = readChecked 1 List.head? ∧
      ∀ h c, readHeader (.start data) = .ok h c →
        h.readNumber = readChecked h.numberSize.toNat h.unpack?) ∧
    ((∃ p c, readChunk withSummary (.start data) = .ok p c) ∨
      ∃ (e : ReadError) (c : Cursor) (o : Nat),
        readChunk withSummary (.start data) = .error e c ∧ o ≤ data.length ∧
        ((∃ n : Nat, IsShort n ∧ e.diagnostic file = ⟨.bytecode,
            "Unexpected end of chunk (wanted " ++ toString n ++ " bytes)", some o, file⟩ ∧
            data.length < o + n ∧ c.position = o) ∨
          (e.diagnostic file = ⟨.bytecode, e.fault.message, some o, file⟩ ∧ FaultyHeader data e) ∨
          ∃ (h : Header) (front rest : Bytes) (tag : UInt8),
            e.diagnostic file = ⟨.invalidConstantKind,
              "Illegal constant type: " ++ toString tag.toNat, some o, file⟩ ∧
            h.IsValid ∧ h.LeadsToConstant "" front ∧ data = h.bytes ++ front ++ tag :: rest ∧
            o = 12 + front.length ∧ tag ∉ [0, 1, 3, 4] ∧ c.position = o + 1)) ∧
    ((∃ e c, readChunk withSummary (.start data) = .error e c) ↔
      ∀ (h : Header) (p : Proto) (stored rest : Bytes), h.IsValid → h.StoresProto "" p stored →
        data ≠ h.bytes ++ stored ++ rest) := by
  refine ⟨⟨readByte_eq_readChecked, fun h c read => ?_⟩, ?_, exists_readChunk_eq_error_iff⟩
  · obtain ⟨_, ⟨valid, -⟩, -⟩ := recognises_readHeader.sound (Nat.lt_succ_self _) read
    exact Header.readNumber_eq_readChecked valid
  · cases failed : readChunk withSummary (.start data) with
    | ok p c => exact .inl ⟨p, c, rfl⟩
    | error e c =>
      refine .inr ?_
      -- The cursor of the error stands where it reports a lack of bytes, and behind a refused tag.
      obtain ⟨n, rfl, short⟩ | faulty | ⟨valid, leads, parts, unknown, position⟩ :=
        readChunk_error failed
      · obtain ⟨_, passed, -⟩ := (scan_readChunk withSummary).error failed
        have inside := passed.position_add_length
        have few : IsShort n := asksFew_readChunk withSummary _ n _ c failed
        exact ⟨_, c, c.position, rfl, by omega, .inl ⟨n, few, rfl, by omega, rfl⟩⟩
      · obtain ⟨o, offset, inside, category⟩ := faulty.exists_offset
        refine ⟨e, c, o, rfl, inside, .inr (.inl ⟨?_, faulty⟩)⟩
        rw [ReadError.diagnostic, offset, category]
      · refine ⟨_, c, _, rfl, ?_, .inr (.inr ⟨_, _, _, _, rfl, valid, leads, parts, rfl, unknown,
          position⟩)⟩
        rw [parts, List.length_append, List.length_append, Header.length_bytes]
        omega

end LuaChunk
