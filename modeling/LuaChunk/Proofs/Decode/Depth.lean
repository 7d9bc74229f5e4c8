import LuaChunk.Proofs.Decode.Acceptance
import LuaChunk.Proofs.Decode.Scan

/-!
# Reading is a scan

Every reader of a field is a scan.  A function is read with a bound on its nesting, and two bounds
that suffice for the bytes that are left are equally good, since the fields in front of the nested
functions take four bytes.  So `Header.readProto` is a limit of scans, and `scan_readChunk` follows.
-/

namespace LuaChunk

section

variable {causes : ReadFault → Prop} {α β : Type} {n k m : Nat}

/-- The next byte is the first and only one of the next bytes, as many as one. -/
lemma readByte_eq : readByte = readBytes 1 >>= fun bs => pure (bs.headD 0) := by
  funext c
  obtain ⟨position, rest, log, begun⟩ := c
  cases rest with
  | nil => rfl
  | cons b rest =>
    have read : readBytes [b].length ⟨position, b :: rest, log, begun⟩ = _ := readBytes_append rfl
    simp only [Bind.bind, EStateM.bind, List.length_singleton] at read ⊢
    rw [read]
    rfl

namespace Scan

/-- Reading a byte is a scan. -/
lemma byte : Scan causes readByte := by
  rw [readByte_eq]
  exact .bind (.bytes 1) fun _ => .pure _

/-- A check is a scan if its fault is among the causes. -/
lemma require {fault : ReadFault} (cause : causes fault) (holds : Bool) (offset : Int) :
    Scan causes (require holds fault offset) := by
  cases holds with
  | false => exact .refuse cause
  | true => exact .pure ()

/-- Repeating a scan is a scan. -/
lemma times {step : ReadM α} (scan : Scan causes step) (n : Nat) :
    Scan causes (readTimes step n) := by
  induction n with
  | zero => exact .pure []
  | succ n ih => exact .bind scan fun _ => .bind ih fun _ => .pure _

end Scan

/-- A step takes at least `k` bytes if it succeeds. -/
def Takes (k : Nat) (x : ReadM α) : Prop :=
  ∀ c a c', x c = .ok a c' → c'.rest.length + k ≤ c.rest.length

/-- A scan does not move backwards. -/
lemma Scan.takes {x : ReadM α} (scan : Scan (fun _ => True) x) : Takes 0 x := by
  intro c a c' h
  obtain ⟨bs, passed, -⟩ := scan.ok h
  have left := passed.length_rest
  omega

/-- Reading a byte takes one byte. -/
lemma takes_readByte : Takes 1 readByte := by
  intro c b c' h
  rw [readByte_eq] at h
  obtain ⟨bs, c₁, read, h⟩ := bind_eq_ok_iff.mp h
  cases h
  obtain ⟨bs', t, len, parts, read'⟩ | ⟨-, failed⟩ := readBytes_cases 1 c
  · cases read.symm.trans read'
    rw [parts, List.length_append, len, Nat.add_comm]
  · cases read.symm.trans failed

namespace Takes

variable {x : ReadM α} {f : α → ReadM β}

/-- Two steps one after the other take what both take. -/
lemma bind (hx : Takes m x) (hf : ∀ a, Takes k (f a)) : Takes (k + m) (x >>= f) := by
  intro c b c' h
  obtain ⟨a, c₁, h₁, h₂⟩ := bind_eq_ok_iff.mp h
  have first := hx c a c₁ h₁
  have second := hf a c₁ b c' h₂
  omega

/-- A step behind a byte takes one byte more. -/
lemma byte_bind {f : UInt8 → ReadM β} (hf : ∀ a, Takes k (f a)) : Takes (k + 1) (readByte >>= f) :=
  takes_readByte.bind hf

/-- A step behind a scan takes at least what it takes by itself. -/
lemma scan_bind (scan : Scan (fun _ => True) x) (hf : ∀ a, Takes k (f a)) : Takes k (x >>= f) :=
  scan.takes.bind hf

end Takes

/-- Two steps do the same where fewer than `n` bytes are left. -/
def AgreeBelow (n : Nat) (x y : ReadM α) : Prop :=
  ∀ c : Cursor, c.rest.length < n → x c = y c

namespace AgreeBelow

/-- There is nothing to agree on where no number of bytes is allowed. -/
lemma zero {x y : ReadM α} : AgreeBelow 0 x y :=
  fun _ lt => absurd lt (Nat.not_lt_zero _)

/-- A step does the same as itself. -/
lemma refl (x : ReadM α) : AgreeBelow n x x :=
  fun _ _ => rfl

/-- Steps that take `k` bytes leave that many less to what follows them. -/
lemma bind {x y : ReadM α} {f g : α → ReadM β} (takes : Takes k x)
    (hx : AgreeBelow (n + k) x y) (hf : ∀ a, AgreeBelow n (f a) (g a)) :
    AgreeBelow (n + k) (x >>= f) (y >>= g) := by
  intro c lt
  have first := hx c lt
  simp only [Bind.bind, EStateM.bind, ← first]
  cases h : x c with
  | ok a c₁ =>
    have left := takes c a c₁ h
    exact hf a c₁ (by omega)
  | error e c₁ => rfl

/-- Repetitions of steps that agree agree, since the steps do not move backwards. -/
lemma times {x y : ReadM α} (takes : Takes 0 x) (agree : AgreeBelow n x y) (k : Nat) :
    AgreeBelow n (readTimes x k) (readTimes y k) := by
  induction k with
  | zero => exact refl _
  | succ k ih =>
    refine bind (k := 0) takes agree fun a => ?_
    intro c lt
    simp only [Bind.bind, EStateM.bind, ih c lt]

end AgreeBelow

end

namespace Header

variable {causes : ReadFault → Prop} {n : Nat} (h : Header)

/-- A constant whose tag stands at a given position. -/
def readConstantAt (h : Header) (offset : Nat) : ReadM PoolEntry := do
  let tag ← readByte
  (Kind.ofTag? tag).elim (failAt (.illegalTag tag) offset) h.readPayload

/-- The position of the tag is all that reading a constant needs to know of the cursor. -/
lemma readConstant_eq : h.readConstant = get >>= fun c => h.readConstantAt c.position := by
  unfold readConstant readConstantAt
  refine bind_congr fun c => bind_congr fun tag => ?_
  cases Kind.ofTag? tag with
  | some kind => rfl
  | none => rfl

section

variable (tags : ∀ tag, causes (.illegalTag tag))

/-- Reading an unsigned number is a scan. -/
lemma scan_readUnsigned (width : Nat) : Scan causes (h.readUnsigned width) :=
  .bind (.bytes width) fun _ => .pure _

/-- Reading an integer is a scan. -/
lemma scan_readInt : Scan causes h.readInt :=
  .bind (.bytes _) fun _ => .pure _

/-- Reading a string is a scan. -/
lemma scan_readString? : Scan causes h.readString? := by
  refine .bind (h.scan_readUnsigned _) fun size => ?_
  split
  case isTrue => exact .pure none
  case isFalse => exact .bind (.bytes size) fun _ => .pure _

/-- Reading a name is a scan. -/
lemma scan_readName : Scan causes h.readName := by
  refine .bind h.scan_readString? fun s => ?_
  cases s with
  | none => exact .pure ""
  | some data => exact .pure _

/-- Reading a number is a scan. -/
lemma scan_readNumber : Scan causes h.readNumber :=
  .bind (.bytes _) fun _ => .pure _

/-- Reading behind the tag of a constant is a scan, whatever the kind. -/
lemma scan_readPayload (kind : Kind) : Scan causes (h.readPayload kind) := by
  cases kind with
  | nil => exact .pure _
  | boolean => exact .bind .byte fun _ => .pure _
  | number => exact .bind h.scan_readNumber fun _ => .pure _
  | string => exact .bind h.scan_readString? fun _ => .pure _

include tags in
/-- Reading a constant is a scan if illegal tags are among the causes. -/
lemma scan_readConstant : Scan causes h.readConstant := by
  rw [readConstant_eq]
  refine Scan.position (f := h.readConstantAt) fun offset => .bind .byte fun tag => ?_
  cases Kind.ofTag? tag with
  | some kind => exact h.scan_readPayload kind
  | none => exact .refuse (tags tag)

/-- Reading a local variable is a scan. -/
lemma scan_readLocal : Scan causes h.readLocal :=
  .bind h.scan_readName fun _ => .bind h.scan_readInt fun _ => .bind h.scan_readInt fun _ => .pure _

/-- Reading a list is a scan if its step is one. -/
lemma scan_readList {α : Type} {step : ReadM α} (scan : Scan causes step) :
    Scan causes (h.readList step) :=
  .bind h.scan_readInt fun count => scan.times count.toNat

include tags in
/-- Reading the fields in front of the nested functions is a scan. -/
lemma scan_readBefore (outer : String) : Scan causes (h.readBefore outer) :=
  .bind h.scan_readName fun _ => .bind h.scan_readInt fun _ => .bind h.scan_readInt fun _ =>
    .bind .byte fun _ => .bind .byte fun _ => .bind .byte fun _ => .bind .byte fun _ =>
    .bind (h.scan_readList (h.scan_readUnsigned _)) fun _ =>
    .bind (h.scan_readList (h.scan_readConstant tags)) fun _ => .pure _

/-- Reading the fields behind the nested functions is a scan. -/
lemma scan_readAfter (before : FunctionBody) : Scan causes (h.readAfter before) :=
  .bind (h.scan_readList h.scan_readInt) fun _ => .bind (h.scan_readList h.scan_readLocal) fun _ =>
    .bind (h.scan_readList h.scan_readName) fun _ => .pure _

include tags in
/-- Reading a function is a scan if reading the functions nested in it is one. -/
lemma scan_readProtoWith {readNested : String → ReadM (List Proto)}
    (scan : ∀ source, Scan causes (readNested source)) (outer : String) :
    Scan causes (h.readProtoWith readNested outer) := by
  rw [readProtoWith_eq]
  exact .bind .enter fun _ => .bind (h.scan_readBefore tags outer) fun before =>
    .bind (scan before.source) fun nested => .bind (h.scan_readAfter before) fun body =>
    .bind (.log [⟨.debug, "read " ++ Proto.display ⟨body, nested⟩⟩]) fun _ => .pure _

include tags in
/-- Reading a function with a bound on its nesting is a scan, by induction on the bound. -/
lemma scan_readProtoWithin (depth : Nat) (outer : String) :
    Scan causes (h.readProtoWithin depth outer) := by
  induction depth generalizing outer with
  | zero => exact h.scan_readProtoWith tags (fun _ => .pure []) outer
  | succ depth ih =>
    exact h.scan_readProtoWith tags (fun source => h.scan_readList (ih source)) outer

end

/-- The flags of a function are four bytes. -/
lemma takes_readBefore (outer : String) : Takes 4 (h.readBefore outer) :=
  .scan_bind h.scan_readName fun _ => .scan_bind h.scan_readInt fun _ =>
    .scan_bind h.scan_readInt fun _ => .byte_bind fun _ => .byte_bind fun _ => .byte_bind fun _ =>
    .byte_bind fun _ => .scan_bind (h.scan_readList (h.scan_readUnsigned _)) fun _ =>
    .scan_bind (h.scan_readList (h.scan_readConstant fun _ => trivial)) fun _ =>
    (Scan.pure _).takes

/-- Readers of nested functions that agree give readers of functions that agree on four bytes more.
-/
lemma agree_readProtoWith {readNested readNested' : String → ReadM (List Proto)}
    (agree : ∀ source, AgreeBelow n (readNested source) (readNested' source)) (outer : String) :
    AgreeBelow (n + 4) (h.readProtoWith readNested outer) (h.readProtoWith readNested' outer) := by
  rw [readProtoWith_eq, readProtoWith_eq]
  refine .bind (n := n + 4) (Scan.enter).takes (.refl _) fun _ => ?_
  -- The nested functions come behind the four bytes of flags, where the lower bound suffices.
  refine .bind (h.takes_readBefore outer) (.refl _) fun before => ?_
  intro c lt
  simp only [Bind.bind, EStateM.bind, agree before.source c lt]

/-- Two bounds on the nesting that suffice for the bytes left are equally good. -/
lemma agree_readProtoWithin {depth depth' : Nat} (le : depth ≤ depth') (outer : String) :
    AgreeBelow (4 * (depth + 1)) (h.readProtoWithin depth outer)
      (h.readProtoWithin depth' outer) := by
  induction depth generalizing depth' outer with
  | zero =>
    cases depth' with
    | zero => exact .refl _
    | succ depth' => exact h.agree_readProtoWith (n := 0) (fun _ => .zero) outer
  | succ depth ih =>
    cases depth' with
    | zero => exact absurd le (Nat.not_succ_le_zero depth)
    | succ depth' =>
      -- Each nested function is read with the two bounds that are one less.
      refine h.agree_readProtoWith (n := 4 * (depth + 1)) (fun source => ?_) outer
      refine .bind (k := 0) (h.scan_readInt).takes (.refl _) fun count => ?_
      exact .times (h.scan_readProtoWithin (fun _ => trivial) _ _).takes
        (ih (Nat.le_of_succ_le_succ le) source) _

/-- A bound on the nesting that suffices for the bytes that are left is as good as another one. -/
lemma readProto_eq_readProtoWithin {depth : Nat} {c : Cursor}
    (enough : c.rest.length < 4 * (depth + 1)) (outer : String) :
    h.readProto outer c = h.readProtoWithin depth outer c := by
  have quarter : c.rest.length < 4 * (c.rest.length / 4 + 1) := by omega
  exact h.agree_readProtoWithin (by omega) outer c quarter

/-- Reading a function is a scan. -/
lemma scan_readProto (tags : ∀ tag, causes (.illegalTag tag)) (outer : String) :
    Scan causes (h.readProto outer) :=
  .limit (fun depth => h.scan_readProtoWithin tags depth outer) fun depth c lt =>
    h.readProto_eq_readProtoWithin (by omega) outer

end Header

/-- The faults of a chunk, apart from its ending too early. -/
def ReadFault.IsRefusal : ReadFault → Prop
  | .noSignature => True
  | .unsupportedVersion _ => True
  | .unsupportedNumberSize _ => True
  | .illegalTag _ => True
  | _ => False

/-- Reading the fields of a header behind its version is a scan. -/
lemma scan_readWidths {causes : ReadFault → Prop} : Scan causes readWidths :=
  .bind .byte fun _ => .bind .byte fun _ => .bind .byte fun _ => .bind .byte fun _ =>
    .bind .byte fun _ => .bind .byte fun _ => .bind .byte fun _ => .pure _

/-- Reading a header is a scan that may refuse what it reads. -/
lemma scan_readHeader : Scan ReadFault.IsRefusal readHeader := by
  rw [readHeader_eq]
  exact .bind (.bytes _) fun _ => .bind (.require trivial _ _) fun _ => .bind .byte fun _ =>
    .bind (.require trivial _ _) fun _ => .bind scan_readWidths fun h =>
    .bind (.require trivial _ _) fun _ => .pure h

/-- Behind its header a chunk is read as a function, with the summary in the log if asked for. -/
lemma readChunk_of_readHeader {data : Bytes} {h : Header} {c : Cursor} (withSummary : Bool)
    (header : readHeader (.start data) = .ok h c) :
    readChunk withSummary (.start data) =
      h.readProto "" { c with log := c.log ++ if withSummary then h.entries else [] } := by
  simp only [readChunk, Bind.bind, EStateM.bind, header]
  cases withSummary with
  | false => rw [if_neg Bool.false_ne_true, if_neg Bool.false_ne_true, List.append_nil]
  | true => rfl

/-- A chunk is read by a scan, with or without the summary of its header in the log. -/
lemma scan_readChunk (withSummary : Bool) : Scan ReadFault.IsRefusal (readChunk withSummary) := by
  refine .bind scan_readHeader fun h => ?_
  have tags (tag : UInt8) : ReadFault.IsRefusal (.illegalTag tag) := trivial
  cases withSummary with
  | false => exact h.scan_readProto tags ""
  | true => exact .bind (.log h.entries) fun _ => h.scan_readProto tags ""

end LuaChunk
