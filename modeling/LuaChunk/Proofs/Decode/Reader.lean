import LuaChunk.Decode.Reader
import LuaChunk.Proofs.Decode.Refusal

/-!
# Readers stay in their chunk

A request is a scan, so it moves a reader over bytes of the chunk, also where it fails on the way.
`Reader.IsInside` is what each request keeps (`Reader.IsInside.ask`) and so all of them in any
order; `Reader.askAll_invariant` says in addition where a request leaves the reader.
-/

namespace LuaChunk

namespace Request

/-- The request reads from the chunk. -/
def IsRead : Request → Prop
  | summary => False
  | failure _ _ => False
  | _ => True

/-- The request asks for no negative number of bytes. -/
def IsForward : Request → Prop
  | bytes n => 0 ≤ n
  | unsigned width => 0 ≤ width
  | _ => True

instance : DecidablePred IsForward := fun q => by
  cases q <;> unfold IsForward <;> infer_instance

variable {q : Request} (data : Bytes) (h : Header)

/-- Reading a span of bytes is a scan if their number is not negative. -/
lemma scan_readSpan {causes : ReadFault → Prop} {n : Int} (forward : 0 ≤ n) :
    Scan causes (readSpan data n) := by
  obtain ⟨n, rfl⟩ := Int.eq_ofNat_of_zero_le forward
  exact .bytes n

/-- A request that reads refuses nothing but the tag of a constant. -/
lemma scan_read (reads : q.IsRead) (forward : q.IsForward) :
    Scan (fun fault => ∃ tag, fault = .illegalTag tag) (q.read data h) := by
  have tags (tag : UInt8) : ∃ t, ReadFault.illegalTag tag = .illegalTag t := ⟨tag, rfl⟩
  cases q with
  | byte => exact .bind .byte fun _ => .pure _
  | bytes => exact .bind (scan_readSpan data forward) fun _ => .pure _
  | unsigned => exact .bind (scan_readSpan data forward) fun _ => .pure _
  | size => exact .bind (h.scan_readUnsigned _) fun _ => .pure _
  | int => exact .bind h.scan_readInt fun _ => .pure _
  | string => exact .bind h.scan_readString? fun _ => .pure _
  | name => exact .bind h.scan_readName fun _ => .pure _
  | number => exact .bind h.scan_readNumber fun _ => .pure _
  | constant => exact .bind (h.scan_readConstant tags) fun _ => .pure _
  | proto outer => exact .bind (h.scan_readProto tags outer) fun _ => .pure _
  | summary => exact reads.elim
  | failure => exact reads.elim

/-- A request that does not read leaves the cursor where it is. -/
lemma stays_of_not_isRead (c : Cursor) (other : ¬ q.IsRead) :
    (∃ a c', q.read data h c = .ok a c' ∧ c.Passed [] c') ∨
      ∃ e, q.read data h c = .error e c := by
  cases q with
  | summary => exact .inl ⟨_, _, rfl, .of_eq rfl rfl⟩
  | failure message offset =>
    cases offset with
    | none => exact .inr ⟨_, rfl⟩
    | some offset => exact .inr ⟨_, rfl⟩
  | _ => exact absurd trivial other

end Request

/-- A text in front of others begins with the character that it begins with by itself. -/
lemma head?_toList_append {text : String} {c : Char} (first : text.toList.head? = some c)
    (others : String) : (text ++ others).toList.head? = some c := by
  rw [String.toList_append, List.head?_append, first]
  rfl

namespace ReadFault

/-- Messages about a chunk that ends too early differ where the numbers of bytes differ. -/
lemma message_unexpectedEnd_inj {n m : Nat}
    (same : (unexpectedEnd n).message = (unexpectedEnd m).message) : n = m := by
  have numerals := (String.append_right_inj _).mp ((String.append_left_inj _).mp same)
  exact Nat.repr_inj.mp numerals

/-- The message about an illegal tag is never the one about a chunk that ends too early. -/
lemma message_illegalTag_ne (tag : UInt8) (n : Nat) :
    (illegalTag tag).message ≠ (unexpectedEnd n).message := by
  have refusal : (illegalTag tag).message.toList.head? = some 'I' :=
    head?_toList_append (by decide) _
  have lack : (unexpectedEnd n).message.toList.head? = some 'U' :=
    head?_toList_append (head?_toList_append (by decide) _) _
  intro same
  rw [same, lack] at refusal
  cases refusal

end ReadFault

/-- What is reported of an error by a diagnostic is reported by its own one. -/
lemma ReadError.eq_diagnostic_of_requestFault {file : Option String} {e : ReadError}
    {d : Diagnostic} (reported : e.requestFault file = .reported d) : d = e.diagnostic file := by
  unfold requestFault at reported
  split at reported
  case h_1 =>
    split at reported
    case h_1 => exact (RequestFault.reported.inj reported).symm
    case h_2 => cases reported
  case h_2 => exact (RequestFault.reported.inj reported).symm

namespace Reader

variable {r : Reader} {q : Request}

/-- The reader stands in its chunk, behind the header. -/
structure IsInside (r : Reader) : Prop where
  header : 12 ≤ r.cursor.position
  rest : r.cursor.position + r.cursor.rest.length = r.data.length

/-- A reader in its chunk stands at most at the end of it. -/
lemma IsInside.le_length (inside : r.IsInside) : r.cursor.position ≤ r.data.length := by
  rw [← inside.rest]
  exact Nat.le_add_right _ _

/-- A reader that passes bytes of its chunk is still in it. -/
lemma IsInside.passed (inside : r.IsInside) {bs : Bytes} {c : Cursor}
    (passed : r.cursor.Passed bs c) : ({ r with cursor := c } : Reader).IsInside := by
  have length := passed.length_rest
  have position := passed.position
  obtain ⟨header, rest⟩ := inside
  constructor
  · dsimp only
    omega
  · dsimp only
    omega

/-- A request moves the reader over some bytes, whatever its outcome. -/
lemma exists_passed (forward : q.IsForward) :
    ∃ bs c, r.cursor.Passed bs c ∧ (r.ask q).2 = { r with cursor := c } := by
  unfold ask
  by_cases reads : q.IsRead
  · have scan := Request.scan_read r.data r.header reads forward
    cases outcome : q.read r.data r.header r.cursor with
    | ok a c =>
      obtain ⟨bs, passed, -⟩ := scan.ok outcome
      exact ⟨bs, c, passed, rfl⟩
    | error e c =>
      obtain ⟨bs, passed, -⟩ := scan.error outcome
      exact ⟨bs, c, passed, rfl⟩
  · obtain ⟨a, c, outcome, passed⟩ | ⟨e, outcome⟩ :=
      Request.stays_of_not_isRead r.data r.header r.cursor reads
    · rw [outcome]
      exact ⟨[], c, passed, rfl⟩
    · rw [outcome]
      exact ⟨[], r.cursor, .of_eq rfl rfl, rfl⟩

/-- A request keeps the reader in its chunk and never moves it back. -/
lemma IsInside.ask (inside : r.IsInside) (forward : q.IsForward) :
    (r.ask q).2.IsInside ∧ r.cursor.position ≤ (r.ask q).2.cursor.position := by
  obtain ⟨bs, c, passed, after⟩ := exists_passed (r := r) forward
  rw [after]
  refine ⟨inside.passed passed, ?_⟩
  rw [passed.position]
  exact Nat.le_add_right _ _

/-- A reader is still in its chunk after any requests that go forward. -/
lemma IsInside.askAll (inside : r.IsInside) {qs : List Request} (forward : ∀ q ∈ qs, q.IsForward) :
    (r.askAll qs).IsInside := by
  induction qs generalizing r with
  | nil => exact inside
  | cons q qs ih =>
    rw [List.forall_mem_cons] at forward
    exact ih (inside.ask forward.1).1 forward.2

/-- A request changes nothing of a reader but its cursor. -/
lemma ask_eq (r : Reader) (q : Request) :
    (r.ask q).2 = { r with cursor := (r.ask q).2.cursor } := by
  unfold ask
  split
  · rfl
  · rfl

/-- Requests change nothing of a reader but its cursor. -/
lemma askAll_eq (r : Reader) (qs : List Request) :
    r.askAll qs = { r with cursor := (r.askAll qs).cursor } := by
  induction qs generalizing r with
  | nil => rfl
  | cons q qs ih =>
    change (r.ask q).2.askAll qs = { r with cursor := ((r.ask q).2.askAll qs).cursor }
    rw [ih, ask_eq]

/-- An opened reader stands in the chunk that it was opened with. -/
lemma isInside_of_opened {file : Option String} {data : Bytes}
    (opened : Reader.opened file data = .ok r) : r.IsInside ∧ r.data = data := by
  unfold Reader.opened at opened
  split at opened
  case h_1 h c read =>
    cases opened
    obtain ⟨_, ⟨-, rfl⟩, passed⟩ := recognises_readHeader.sound (Nat.lt_succ_self _) read
    have position : c.position = 12 := passed.position.trans (Nat.zero_add _)
    exact ⟨⟨position.ge, passed.position_add_length⟩, rfl⟩
  case h_2 => cases opened

/-- A request that does not read leaves the position as it is. -/
lemma position_of_not_isRead (other : ¬ q.IsRead) :
    (r.ask q).2.cursor.position = r.cursor.position := by
  unfold ask
  obtain ⟨a, c, outcome, passed⟩ | ⟨e, outcome⟩ :=
    Request.stays_of_not_isRead r.data r.header r.cursor other
  · rw [outcome]
    exact passed.position
  · rw [outcome]

/-- A request for bytes that fails leaves the position as it is. -/
lemma position_of_bytes_failed {n : Int} {fault : RequestFault} (forward : 0 ≤ n)
    (failed : (r.ask (.bytes n)).1 = .error fault) :
    (r.ask (.bytes n)).2.cursor.position = r.cursor.position := by
  obtain ⟨n, rfl⟩ := Int.eq_ofNat_of_zero_le forward
  unfold ask at failed ⊢
  obtain ⟨bs, t, -, -, read⟩ | ⟨-, lack⟩ := readBytes_cases n r.cursor
  · have done : (Request.bytes n).read r.data r.header r.cursor = .ok (.bytes bs) _ :=
      bind_eq_ok_iff.mpr ⟨_, _, read, rfl⟩
    rw [done] at failed
    cases failed
  · have stays : (Request.bytes n).read r.data r.header r.cursor = .error _ r.cursor :=
      bind_eq_error_iff.mpr (.inl lack)
    rw [stays]

/-- A read that fails with the message about a lack of bytes reports the position where it leaves
the reader, and fewer bytes are left there than it names. -/
lemma lack_of_failed {n : Nat} {d : Diagnostic} (reads : q.IsRead) (forward : q.IsForward)
    (failed : (r.ask q).1 = .error (.reported d))
    (message : d.message = (ReadFault.unexpectedEnd n).message) :
    d.offset = some ((r.ask q).2.cursor.position : Int) ∧ (r.ask q).2.cursor.rest.length < n := by
  have scan := Request.scan_read r.data r.header reads forward
  unfold ask at failed ⊢
  cases outcome : q.read r.data r.header r.cursor with
  | ok a c =>
    rw [outcome] at failed
    cases failed
  | error e c =>
    rw [outcome] at failed
    obtain rfl := ReadError.eq_diagnostic_of_requestFault (Except.error.inj failed)
    obtain ⟨_, -, ⟨m, rfl, short⟩ | ⟨⟨tag, refused⟩, -⟩⟩ := scan.error outcome
    · obtain rfl := ReadFault.message_unexpectedEnd_inj message
      exact ⟨rfl, short⟩
    · -- The only other fault is a refused tag, and the message about it begins otherwise.
      have named : e.fault.message = (ReadFault.unexpectedEnd n).message := message
      rw [refused] at named
      exact absurd named (ReadFault.message_illegalTag_ne tag n)

/-- After any requests, failed ones among them, a reader stands in its chunk behind the header, and
its header is the one that it was opened with.  One more request never moves it back; a summary and
a failure of the caller's leave it in place, and so does a failed request for bytes.  A read that
reports a lack of bytes reports it for the position where it leaves the reader, and the chunk ends
before the bytes that it names. -/
theorem askAll_invariant {file : Option String} {data : Bytes}
    (opened : Reader.opened file data = .ok r) {qs : List Request}
    (forward : ∀ q ∈ qs, q.IsForward) :
    12 ≤ (r.askAll qs).cursor.position ∧ (r.askAll qs).cursor.position ≤ data.length ∧
    (r.askAll qs).header = r.header ∧
    ∀ q, q.IsForward → ∀ (result : Except RequestFault Answer) (after : Reader),
      (r.askAll qs).ask q = (result, after) →
      (r.askAll qs).cursor.position ≤ after.cursor.position ∧
      after.cursor.position ≤ data.length ∧ after.header = r.header ∧
      (¬ q.IsRead → after.cursor.position = (r.askAll qs).cursor.position) ∧
      (∀ n fault, q = .bytes n → result = .error fault →
        after.cursor.position = (r.askAll qs).cursor.position) ∧
      ∀ (n : Nat) d, q.IsRead → result = .error (.reported d) →
        d.message = "Unexpected end of chunk (wanted " ++ toString n ++ " bytes)" →
        d.offset = some (after.cursor.position : Int) ∧
          data.length < after.cursor.position + n := by
  obtain ⟨start, rfl⟩ := isInside_of_opened opened
  have inside := start.askAll forward
  have kept := r.askAll_eq qs
  generalize r.askAll qs = s at inside kept ⊢
  have data : s.data = r.data := by rw [kept]
  have header : s.header = r.header := by rw [kept]
  rw [← data, ← header]
  refine ⟨inside.header, inside.le_length, rfl, ?_⟩
  intro q onward result after asked
  obtain ⟨rfl, rfl⟩ : (s.ask q).1 = result ∧ (s.ask q).2 = after := Prod.ext_iff.mp asked
  obtain ⟨inside', le⟩ := inside.ask onward
  have data' : (s.ask q).2.data = s.data := by rw [ask_eq]
  refine ⟨le, ?_, by rw [ask_eq], position_of_not_isRead, ?_, ?_⟩
  · rw [← data']
    exact inside'.le_length
  · rintro n fault rfl failed
    exact position_of_bytes_failed onward failed
  · intro n d reads failed message
    obtain ⟨offset, short⟩ := lack_of_failed reads onward failed message
    have rest := inside'.rest
    rw [data'] at rest
    exact ⟨offset, by omega⟩

/-- A chunk with the size of a string of four bytes behind its header, and then two bytes. -/
def cutChunk : Bytes :=
  standardHeader.bytes ++ [5, 0, 0, 0, 0, 0, 0, 0, 0x61, 0x62]

/-- The reader of this chunk. -/
def cutReader : Reader where
  data := cutChunk
  file := none
  header := standardHeader
  cursor := (Cursor.start cutChunk).advance 12

/-- Requests of which most fail: the string behind its size, the constant behind its tag. -/
def cutRequests : List Request :=
  [.string, .bytes 3, .summary, .failure "no" (some 5), .byte, .constant]

/-- The requests bring the reader to the end of the chunk, where a number of four bytes is
refused. -/
theorem askAll_invariant_cutChunk :
    Reader.opened none cutChunk = .ok cutReader ∧ (∀ q ∈ cutRequests, q.IsForward) ∧
    12 ≤ (cutReader.askAll cutRequests).cursor.position ∧
    (cutReader.askAll cutRequests).cursor.position ≤ cutChunk.length ∧
    ∃ d, ((cutReader.askAll cutRequests).ask .int).1 = .error (.reported d) ∧
      d.message = "Unexpected end of chunk (wanted " ++ toString 4 ++ " bytes)" ∧
      d.offset = some 22 ∧ cutChunk.length < 22 + 4 := by
  have opened : Reader.opened none cutChunk = .ok cutReader := rfl
  have forward : ∀ q ∈ cutRequests, q.IsForward := by decide
  obtain ⟨behind, inside, -, next⟩ := askAll_invariant opened forward
  obtain ⟨-, -, -, -, -, lack⟩ := next .int trivial _ _ Prod.mk.eta.symm
  have failed : ((cutReader.askAll cutRequests).ask .int).1 =
    .error (.reported ((⟨.unexpectedEnd 4, 22⟩ : ReadError).diagnostic none)) := rfl
  have place : ((cutReader.askAll cutRequests).ask .int).2.cursor.position = 22 := rfl
  obtain ⟨offset, beyond⟩ := lack 4 _ trivial failed rfl
  rw [place] at offset beyond
  exact ⟨opened, forward, behind, inside, _, failed, rfl, offset, beyond⟩

end Reader

end LuaChunk
