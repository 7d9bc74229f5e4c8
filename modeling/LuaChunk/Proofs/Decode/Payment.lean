import LuaChunk.Proofs.Decode.Cost
import LuaChunk.Proofs.Decode.Truncation

/-!
# Every function pays for itself

The recursion of reading ends because every function takes bytes: unrolled once for every four bytes
that are left it is never entered again (`Header.iterate_recursion`), whatever the counts in the
chunk say.

How often it is entered is a matter of accounts.  The `balance` of a cursor is the number of bytes
that are left with a price for each function that was begun, and `Pays` says how a step changes it.
At a price of four no function that is read adds to the balance, and one that fails adds its own
price at most, from which `readChunk_pays` follows.  Where reading succeeds, it has begun just the
functions that it yields (`begun_of_readChunk`).
-/

namespace LuaChunk

/-- The bytes before a cursor, and a price for each function that was begun. -/
def Cursor.balance (price : Nat) (c : Cursor) : Nat :=
  price * c.begun + c.rest.length

/-- A step takes at least a given amount off the balance if it succeeds, and adds no more than is
left owing if it fails. -/
structure Pays {α : Type} (price paid owing : Nat) (x : ReadM α) : Prop where
  ok : ∀ {c a c'}, x c = .ok a c' → c'.balance price + paid ≤ c.balance price
  error : ∀ {c e c'}, x c = .error e c' → c'.balance price ≤ c.balance price + owing

namespace Pays

variable {α β : Type} {price paid paid' owing owing' : Nat} {x : ReadM α} {f : α → ReadM β}

/-- A step that pays an amount pays less, and one that owes an amount at most owes more at most. -/
lemma mono (h : Pays price paid owing x) (less : paid' ≤ paid) (more : owing ≤ owing') :
    Pays price paid' owing' x := by
  constructor
  · intro c a c' e
    exact (Nat.add_le_add_left less _).trans (h.ok e)
  · intro c e c' failed
    exact (h.error failed).trans (Nat.add_le_add_left more _)

/-- A step that only yields a value pays nothing and owes nothing. -/
lemma pure (a : α) : Pays price 0 owing (pure a) := by
  constructor
  · intro c a' c' e
    cases e
    exact le_refl _
  · intro c e c' failed
    cases failed

/-- A failure pays any amount, since it never succeeds. -/
lemma failAt (fault : ReadFault) (offset : Int) :
    Pays price paid 0 (failAt fault offset : ReadM α) := by
  constructor
  · intro c a c' e
    cases e
  · intro c e c' failed
    cases failed
    exact le_refl _

/-- A check pays nothing and owes nothing. -/
lemma require (holds : Bool) (fault : ReadFault) (offset : Int) :
    Pays price 0 0 (require holds fault offset) := by
  cases holds with
  | false => exact failAt fault offset
  | true => exact pure ()

/-- Reading bytes pays for as many bytes. -/
lemma bytes (n : Nat) : Pays price n 0 (readBytes n) := by
  constructor
  · intro c bs c' e
    obtain ⟨_, t, rfl, parts, read⟩ | ⟨-, failed⟩ := readBytes_cases n c
    · cases e.symm.trans read
      simp only [Cursor.balance, parts, List.length_append]
      omega
    · cases e.symm.trans failed
  · intro c e c' h
    obtain ⟨_, t, rfl, parts, read⟩ | ⟨-, failed⟩ := readBytes_cases n c
    · cases h.symm.trans read
    · cases h.symm.trans failed
      exact le_refl _

/-- A log entry pays nothing and owes nothing. -/
lemma log (level : Level) (message : String) : Pays price 0 owing (writeLog level message) := by
  constructor
  · intro c a c' e
    cases e
    exact le_refl _
  · intro c e c' failed
    cases failed

/-- Two steps one after the other pay what both pay, and what the second one leaves owing is covered
by what was paid in front of it, up to what may be left owing at all. -/
lemma bind_of_le (hx : Pays price paid owing x) (hf : ∀ a, Pays price paid' owing' (f a))
    (covered : owing' ≤ paid + owing) : Pays price (paid + paid') owing (x >>= f) := by
  constructor
  · intro c b c' e
    obtain ⟨a, c₁, h₁, h₂⟩ := bind_eq_ok_iff.mp e
    have := hx.ok h₁
    have := (hf a).ok h₂
    omega
  · intro c e c' failed
    rcases bind_eq_error_iff.mp failed with h₁ | ⟨a, c₁, h₁, h₂⟩
    · exact hx.error h₁
    · have := hx.ok h₁
      have := (hf a).error h₂
      omega

/-- Two steps one after the other pay what both pay, and owe no more than one of them. -/
lemma bind (hx : Pays price paid owing x) (hf : ∀ a, Pays price paid' owing (f a)) :
    Pays price (paid + paid') owing (x >>= f) :=
  hx.bind_of_le hf (Nat.le_add_left owing paid)

/-- Beginning a function costs the price, which is left owing where the function fails. -/
lemma enter_bind {f : Unit → ReadM β} (hf : Pays price (price + paid) 0 (f ())) :
    Pays price paid price (modify Cursor.entered >>= f) := by
  have entered (c : Cursor) : c.entered.balance price = c.balance price + price := by
    simp only [Cursor.balance, Cursor.entered, Nat.mul_succ]
    omega
  constructor
  · intro c b c' e
    have := hf.ok (c := c.entered) e
    have := entered c
    omega
  · intro c e c' failed
    have := hf.error (c := c.entered) failed
    have := entered c
    omega

/-- A step that is told its position pays as it does at every position. -/
lemma position {f : Nat → ReadM β} (hf : ∀ n, Pays price paid owing (f n)) :
    Pays price paid owing (get >>= fun c => f c.position) :=
  ⟨fun {c _ _} e => (hf c.position).ok e, fun {c _ _} failed => (hf c.position).error failed⟩

/-- Reading a byte pays for one byte. -/
lemma byte : Pays price 1 0 readByte := by
  rw [readByte_eq]
  exact (bytes 1).bind fun _ => pure _

/-- At no price at all the bytes themselves are counted. -/
lemma takes (h : Pays 0 paid owing x) : Takes paid x := by
  intro c a c' e
  simpa [Cursor.balance] using h.ok e

/-- Repetitions of a step that pays nothing and owes no more than an amount are such a step. -/
lemma times (h : Pays price 0 owing x) (n : Nat) : Pays price 0 owing (readTimes x n) := by
  induction n with
  | zero => exact pure []
  | succ n ih => exact h.bind fun _ => ih.bind fun _ => pure _

end Pays

namespace Header

variable {price : Nat} (h : Header)

/-- An unsigned number pays for its width. -/
lemma pays_readUnsigned (width : Nat) : Pays price width 0 (h.readUnsigned width) :=
  (Pays.bytes width).bind fun _ => .pure _

/-- An integer pays for its width. -/
lemma pays_readInt : Pays price h.intSize.toNat 0 h.readInt :=
  (Pays.bytes _).bind fun _ => .pure _

/-- A string pays for its size field. -/
lemma pays_readString? : Pays price h.sizeSize.toNat 0 h.readString? := by
  have tail (size : Nat) : Pays price 0 0
      (if size = 0 then pure none else readBytes size >>= fun bs => pure (some bs.dropLast)) := by
    split
    case isTrue => exact .pure none
    case isFalse => exact ((Pays.bytes size).bind fun _ => .pure _).mono (Nat.zero_le _) (le_refl 0)
  exact (h.pays_readUnsigned _).bind tail

/-- A name pays for its size field. -/
lemma pays_readName : Pays price h.sizeSize.toNat 0 h.readName := by
  refine (h.pays_readString?.bind fun s => ?_).mono (Nat.le_add_right _ 0) (le_refl 0)
  cases s with
  | none => exact .pure ""
  | some data => exact .pure _

/-- What stands behind a tag pays nothing that can be relied on. -/
lemma pays_readPayload (kind : Kind) : Pays price 0 0 (h.readPayload kind) := by
  cases kind with
  | nil => exact .pure _
  | boolean => exact (Pays.byte.bind fun _ => .pure _).mono (Nat.zero_le _) (le_refl 0)
  | number =>
    have number : Pays price h.numberSize.toNat 0 h.readNumber :=
      (Pays.bytes _).bind fun _ => .pure _
    exact (number.bind fun _ => .pure _).mono (Nat.zero_le _) (le_refl 0)
  | string => exact (h.pays_readString?.bind fun _ => .pure _).mono (Nat.zero_le _) (le_refl 0)

/-- A constant pays for its tag. -/
lemma pays_readConstant : Pays price 1 0 h.readConstant := by
  rw [readConstant_eq]
  refine Pays.position (f := h.readConstantAt) fun offset => ?_
  refine (Pays.byte.bind fun tag => ?_).mono (Nat.le_add_right _ 0) (le_refl 0)
  cases Kind.ofTag? tag with
  | some kind => exact h.pays_readPayload kind
  | none => exact .failAt _ _

/-- A local variable pays for a size field and two integers. -/
lemma pays_readLocal : Pays price (h.sizeSize.toNat + 2 * h.intSize.toNat) 0 h.readLocal := by
  refine (h.pays_readName.bind fun _ => h.pays_readInt.bind fun _ => h.pays_readInt.bind fun _ =>
    .pure _).mono ?_ (le_refl 0)
  omega

/-- A list of steps that owe no more than an amount owes no more than it. -/
lemma pays_readList {α : Type} {step : ReadM α} {owing : Nat} (hs : Pays price 0 owing step) :
    Pays price 0 owing (h.readList step) :=
  (h.pays_readInt.mono (Nat.zero_le _) (Nat.zero_le _)).bind fun count => hs.times count.toNat

/-- The flags of a function pay for it. -/
lemma pays_readBefore (outer : String) : Pays price 4 0 (h.readBefore outer) :=
  (h.pays_readName.bind fun _ => h.pays_readInt.bind fun _ => h.pays_readInt.bind fun _ =>
    Pays.byte.bind fun _ => Pays.byte.bind fun _ => Pays.byte.bind fun _ => Pays.byte.bind fun _ =>
    (h.pays_readList ((h.pays_readUnsigned _).mono (Nat.zero_le _) (le_refl 0))).bind fun _ =>
    (h.pays_readList (h.pays_readConstant.mono (Nat.zero_le _) (le_refl 0))).bind fun _ =>
    .pure _).mono (by omega) (le_refl 0)

/-- The fields behind the nested functions owe nothing. -/
lemma pays_readAfter (before : FunctionBody) : Pays price 0 0 (h.readAfter before) :=
  (h.pays_readList (h.pays_readInt.mono (Nat.zero_le _) (le_refl 0))).bind fun _ =>
    (h.pays_readList (h.pays_readLocal.mono (Nat.zero_le _) (le_refl 0))).bind fun _ =>
    (h.pays_readList (h.pays_readName.mono (Nat.zero_le _) (le_refl 0))).bind fun _ => .pure _

/-- A function pays a price of up to four bytes with its flags; where it fails, its own price is
left owing, since the functions around it are paid for. -/
lemma pays_readProtoWith (low : price ≤ 4) {readNested : String → ReadM (List Proto)}
    (hn : ∀ source, Pays price 0 price (readNested source)) (outer : String) :
    Pays price (4 - price) price (h.readProtoWith readNested outer) := by
  rw [readProtoWith_eq]
  have tail (before : FunctionBody) : Pays price 0 price
      (readNested before.source >>= fun nested => h.readAfter before >>= fun body =>
        writeLog .debug ("read " ++ Proto.display ⟨body, nested⟩) >>= fun _ =>
          pure (Proto.mk body nested)) :=
    (hn before.source).bind fun nested =>
      ((h.pays_readAfter before).mono (le_refl 0) (Nat.zero_le price)).bind fun body =>
      (Pays.log _ _).bind fun _ => .pure _
  refine .enter_bind (((h.pays_readBefore outer).bind_of_le tail low).mono ?_ (le_refl 0))
  omega

/-- With a bound on the nesting a function pays what its price leaves of four bytes. -/
lemma pays_readProtoWithin (low : price ≤ 4) (depth : Nat) (outer : String) :
    Pays price (4 - price) price (h.readProtoWithin depth outer) := by
  induction depth generalizing outer with
  | zero => exact h.pays_readProtoWith low (fun _ => .pure []) outer
  | succ depth ih =>
    exact h.pays_readProtoWith low
      (fun source => h.pays_readList ((ih source).mono (Nat.zero_le _) (le_refl price))) outer

/-- A function pays what its price leaves of four bytes, however many bytes are left. -/
lemma pays_readProto (low : price ≤ 4) (outer : String) :
    Pays price (4 - price) price (h.readProto outer) :=
  ⟨fun {c _ _} e => (h.pays_readProtoWithin low (c.rest.length / 4) outer).ok e,
    fun {c _ _} failed => (h.pays_readProtoWithin low (c.rest.length / 4) outer).error failed⟩

/-- One level of the recursion: a function, given how the functions nested in it are read. -/
def recursion (h : Header) (readInner : String → ReadM Proto) (outer : String) : ReadM Proto :=
  h.readProtoWith (fun source => h.readList (readInner source)) outer

/-- Two ways to read nested functions that agree up to some bytes agree up to four bytes more one
level further up. -/
lemma agree_recursion {n : Nat} {x y : String → ReadM Proto} (takes : ∀ source, Takes 0 (x source))
    (agree : ∀ source, AgreeBelow n (x source) (y source)) (outer : String) :
    AgreeBelow (n + 4) (h.recursion x outer) (h.recursion y outer) := by
  refine h.agree_readProtoWith (fun source => ?_) outer
  exact .bind (k := 0) h.scan_readInt.takes (.refl _) fun count =>
    .times (takes source) (agree source) count.toNat

/-- Reading a function does not move backwards. -/
lemma takes_readProto (outer : String) : Takes 0 (h.readProto outer) :=
  (h.scan_readProto (fun _ => trivial) outer).takes

/-- Reading a function is reading one by its own recursion. -/
lemma recursion_readProto : h.recursion h.readProto = h.readProto := by
  funext outer c
  have enough : c.rest.length < 4 * (c.rest.length + 2) := by omega
  rw [h.readProto_eq_readProtoWithin enough outer]
  refine (h.agree_recursion (n := 4 * (c.rest.length + 1))
    (fun source => (h.scan_readProtoWithin (fun _ => trivial) c.rest.length source).takes)
    (fun source c' lt => ?_) outer c enough).symm
  exact (h.readProto_eq_readProtoWithin lt source).symm

/-- Where fewer than `4 * n` bytes are left, `n` levels of the recursion are all that is needed:
what would be done at the next one does not matter. -/
lemma iterate_recursion (readInner : String → ReadM Proto) (n : Nat) (outer : String) :
    AgreeBelow (4 * n) (h.readProto outer) ((h.recursion^[n]) readInner outer) := by
  induction n generalizing outer with
  | zero => exact .zero
  | succ n ih =>
    rw [← recursion_readProto, Function.iterate_succ_apply']
    exact h.agree_recursion h.takes_readProto ih outer

end Header

section

variable {c c' : Cursor} {n : Nat}

/-- A scan does not forget a function that was begun. -/
lemma Scan.begun_le {causes : ReadFault → Prop} {α : Type} {x : ReadM α} (scan : Scan causes x)
    {a : α} (done : x c = .ok a c') : c.begun ≤ c'.begun := by
  induction scan generalizing c c' with
  | pure =>
    cases done
    exact le_refl _
  | bytes n =>
    obtain ⟨bs, t, -, -, read⟩ | ⟨-, failed⟩ := readBytes_cases n c
    · cases done.symm.trans read
      exact le_refl _
    · cases done.symm.trans failed
  | refuse => cases done
  | position _ ih => exact ih c.position done
  | log =>
    cases done
    exact le_refl _
  | enter =>
    cases done
    exact Nat.le_succ _
  | bind _ _ ihx ihf =>
    obtain ⟨a₁, c₁, first, second⟩ := bind_eq_ok_iff.mp done
    exact (ihx first).trans (ihf a₁ second)
  | limit _ agree ih => exact ih _ ((agree _ c (Nat.lt_succ_self _)).symm.trans done)

/-- A scan that pays at every price begins no function, since it could not pay for one at a price of
more bytes than are left. -/
lemma Scan.begun_eq {α : Type} {x : ReadM α} (scan : Scan (fun _ => True) x)
    (pays : ∀ price, Pays price 0 0 x) {a : α} (done : x c = .ok a c') : c'.begun = c.begun := by
  apply Nat.le_antisymm _ (scan.begun_le done)
  by_contra more
  have paid := (pays (c.rest.length + 1)).ok done
  have dear : (c.rest.length + 1) * (c.begun + 1) ≤ (c.rest.length + 1) * c'.begun :=
    Nat.mul_le_mul_left _ (Nat.lt_of_not_le more)
  rw [Nat.mul_succ] at dear
  simp only [Cursor.balance] at paid
  omega

/-- A loop begins the functions that its iterations begin. -/
lemma begun_of_readTimes {step : ReadM Proto}
    (each : ∀ {c p c'}, step c = .ok p c' → c'.begun = c.begun + p.functions.length)
    {ps : List Proto} (done : readTimes step n c = .ok ps c') :
    c'.begun = c.begun + (Proto.functionsOf ps).length := by
  induction n generalizing c ps with
  | zero =>
    cases done
    rfl
  | succ n ih =>
    obtain ⟨p, c₁, first, done⟩ := bind_eq_ok_iff.mp done
    obtain ⟨ps, c₂, others, done⟩ := bind_eq_ok_iff.mp done
    cases done
    rw [ih others, each first, Proto.functionsOf, List.length_append, Nat.add_assoc]

namespace Header

variable {h : Header} {outer : String} {p : Proto}

/-- A function is begun once, beside the functions nested in it. -/
lemma begun_of_readProtoWith {readNested : String → ReadM (List Proto)}
    (inside : ∀ {source c ps c'}, readNested source c = .ok ps c' →
      c'.begun = c.begun + (Proto.functionsOf ps).length)
    (done : h.readProtoWith readNested outer c = .ok p c') :
    c'.begun = c.begun + p.functions.length := by
  rw [readProtoWith_eq] at done
  obtain ⟨_, _, entered, done⟩ := bind_eq_ok_iff.mp done
  obtain ⟨before, _, front, done⟩ := bind_eq_ok_iff.mp done
  obtain ⟨nested, _, middle, done⟩ := bind_eq_ok_iff.mp done
  obtain ⟨body, _, back, done⟩ := bind_eq_ok_iff.mp done
  obtain ⟨_, _, logged, done⟩ := bind_eq_ok_iff.mp done
  cases entered
  cases logged
  cases done
  have own := (h.scan_readBefore (fun _ => trivial) outer).begun_eq
    (fun _ => (h.pays_readBefore outer).mono (Nat.zero_le 4) (le_refl 0)) front
  have rest : _ = _ := (h.scan_readAfter before).begun_eq (fun _ => h.pays_readAfter before) back
  have nested := inside middle
  simp only [Cursor.entered] at own
  simp only [Cursor.logged, Proto.functions, List.length_cons]
  omega

/-- Reading a function begins just the functions of its tree. -/
lemma begun_of_readProtoWithin {depth : Nat} (done : h.readProtoWithin depth outer c = .ok p c') :
    c'.begun = c.begun + p.functions.length := by
  induction depth generalizing outer c p c' with
  | zero =>
    refine begun_of_readProtoWith (fun {_ _ _ _} none => ?_) done
    cases none
    rfl
  | succ depth ih =>
    refine begun_of_readProtoWith (fun {_ _ _ _} read => ?_) done
    obtain ⟨count, c₁, length, members⟩ := bind_eq_ok_iff.mp read
    have same := h.scan_readInt.begun_eq
      (fun _ => h.pays_readInt.mono (Nat.zero_le _) (le_refl 0)) length
    rw [begun_of_readTimes ih members, same]

end Header

end

/-- A header pays for its twelve bytes. -/
lemma pays_readHeader {price : Nat} : Pays price 12 0 readHeader := by
  have widths : Pays price 7 0 readWidths :=
    Pays.byte.bind fun _ => Pays.byte.bind fun _ => Pays.byte.bind fun _ => Pays.byte.bind fun _ =>
      Pays.byte.bind fun _ => Pays.byte.bind fun _ => Pays.byte.bind fun _ => .pure _
  rw [readHeader_eq]
  exact (Pays.bytes 4).bind fun _ => (Pays.require _ _ _).bind fun _ => Pays.byte.bind fun _ =>
    (Pays.require _ _ _).bind fun _ => widths.bind fun _ => (Pays.require _ _ _).bind fun _ =>
    .pure _

/-- Behind a valid header reading has begun no function yet. -/
lemma exists_readHeader {h : Header} (valid : h.IsValid) (rest : Bytes) :
    ∃ c, readHeader (.start (h.bytes ++ rest)) = .ok h c ∧ c.position = 12 ∧ c.rest = rest ∧
      c.begun = 0 := by
  obtain ⟨c, read, passed⟩ := (recognises_readHeader (n := (h.bytes ++ rest).length + 1)).complete
    (c := .start (h.bytes ++ rest)) (Nat.lt_succ_self _) ⟨valid, rfl⟩ rfl
  have left : c.rest = rest := passed.rest_eq rfl
  refine ⟨c, read, passed.position, left, ?_⟩
  have paid := (pays_readHeader : Pays 1 12 0 readHeader).ok read
  have start : (Cursor.start (h.bytes ++ rest)).balance 1 = 12 + rest.length := by
    simp only [Cursor.balance, Cursor.start, List.length_append, h.length_bytes]
    omega
  rw [start, Cursor.balance, left] at paid
  omega

/-- A chunk that is read has begun just the functions of its tree. -/
lemma begun_of_readChunk {h : Header} (valid : h.IsValid) {rest : Bytes} {withSummary : Bool}
    {p : Proto} {c : Cursor} (read : readChunk withSummary (.start (h.bytes ++ rest)) = .ok p c) :
    c.begun = p.functions.length := by
  obtain ⟨c₀, header, -, -, begun⟩ := exists_readHeader valid rest
  rw [readChunk_of_readHeader withSummary header] at read
  rw [Header.begun_of_readProtoWithin read, begun, Nat.zero_add]

/-- Reading a function always ends, since its recursion is never entered more than once for every
four bytes that are left, whatever would be done then.  Behind a valid header at most one function
more than that is begun, whether reading succeeds or fails; and a chunk that is read has begun just
the functions of its tree and holds all the bytes that they need. -/
theorem readChunk_pays {h : Header} (valid : h.IsValid) (rest : Bytes) (withSummary : Bool) :
    h.recursion h.readProto = h.readProto ∧
    (∀ (readInner : String → ReadM Proto) (n : Nat) (outer : String) (c : Cursor),
      c.rest.length < 4 * n → (h.recursion^[n]) readInner outer c = h.readProto outer c) ∧
    (∀ e c, readChunk withSummary (.start (h.bytes ++ rest)) = .error e c →
      c.begun ≤ 1 + rest.length / 4) ∧
    ∀ p c, readChunk withSummary (.start (h.bytes ++ rest)) = .ok p c →
      c.begun = p.functions.length ∧ c.begun ≤ 1 + rest.length / 4 ∧
        12 + p.cost h ≤ c.position := by
  obtain ⟨c₀, header, position, left, begun⟩ := exists_readHeader valid rest
  have behind := readChunk_of_readHeader withSummary header
  have start (log : Log) : Cursor.balance 4 { c₀ with log := log } = rest.length := by
    rw [Cursor.balance, begun, left, Nat.mul_zero, Nat.zero_add]
  have pays := h.pays_readProto (le_refl 4) ""
  refine ⟨h.recursion_readProto, fun readInner n outer c lt => ?_, fun e c failed => ?_,
    fun p c read => ⟨begun_of_readChunk valid read, ?_⟩⟩
  · exact (h.iterate_recursion readInner n outer c lt).symm
  · rw [behind] at failed
    have owing := pays.error failed
    rw [start, Cursor.balance] at owing
    omega
  · rw [behind] at read
    have paid := pays.ok read
    rw [start, Cursor.balance] at paid
    refine ⟨by omega, ?_⟩
    obtain ⟨stored, stores, passed⟩ :=
      (h.recognises_readProto valid "").sound (Nat.lt_succ_self _) read
    have reached : c.position = 12 + stored.length := by
      rw [← position]
      exact passed.position
    rw [reached]
    exact Nat.add_le_add_left stores.cost_le_length 12

/-- A header under which only lengths of lists and flags take bytes. -/
def narrowHeader : Header := ⟨0, 1, 1, 0, 0, 8, 0⟩

/-- A function in which two others are nested, as stored under the narrow header. -/
def narrowBody : Bytes :=
  List.replicate 8 0 ++ [2] ++ List.replicate 24 0 ++ List.replicate 3 0

/-- How many functions are begun in reading a chunk, whether this succeeds or fails. -/
def readBegun (data : Bytes) : Nat :=
  match readChunk false (.start data) with
  | .ok _ c => c.begun
  | .error _ c => c.begun

/-- Three functions of twelve bytes each are read; without the last bytes of the third one reading
fails after it has begun all three. -/
theorem readChunk_pays_narrowBody :
    narrowHeader.IsValid ∧
      (∃ p c, readChunk false (.start (narrowHeader.bytes ++ narrowBody)) = .ok p c ∧
        p.functions.length = 3 ∧ c.begun = 3 ∧ c.position = 48 ∧ c.begun ≤ 10 ∧
        12 + p.cost narrowHeader ≤ 48) ∧
      (∃ e c, readChunk false (.start (narrowHeader.bytes ++ narrowBody.take 30)) = .error e c ∧
        c.begun = 3 ∧ c.begun ≤ 8) ∧
      ∀ c : Cursor, c.rest.length < 4 * 1 →
        (narrowHeader.recursion^[1]) (fun _ => failHere .noSignature) "" c =
          narrowHeader.readProto "" c := by
  have valid : narrowHeader.IsValid := .inr (.inl rfl)
  have length : narrowBody.length = 36 := by decide
  have whole : readStop (narrowHeader.bytes ++ narrowBody) = .ok 48 := by decide +kernel
  have cut : readStop (narrowHeader.bytes ++ narrowBody.take 30) =
      .error ⟨.unexpectedEnd 1, 42⟩ := by decide +kernel
  have three : readBegun (narrowHeader.bytes ++ narrowBody) = 3 := by decide +kernel
  have threeToo : readBegun (narrowHeader.bytes ++ narrowBody.take 30) = 3 := by decide +kernel
  obtain ⟨p, c, read, stop⟩ := exists_of_readStop_eq_ok whole
  obtain ⟨c', failed⟩ := exists_of_readStop_eq_error cut
  rw [readBegun, read] at three
  rw [readBegun, failed] at threeToo
  refine ⟨valid, ⟨p, c, read, ?_⟩, ⟨_, c', failed, threeToo, ?_⟩, fun c lt => ?_⟩
  · obtain ⟨begun, few, paid⟩ := (readChunk_pays valid narrowBody false).2.2.2 p c read
    rw [length] at few
    rw [stop] at paid
    exact ⟨begun.symm.trans three, three, stop, few, paid⟩
  · have owing := (readChunk_pays valid (narrowBody.take 30) false).2.2.1 _ c' failed
    rw [List.length_take, length] at owing
    exact owing
  · exact (readChunk_pays valid [] false).2.1 (fun _ => failHere .noSignature) 1 "" c lt

end LuaChunk
