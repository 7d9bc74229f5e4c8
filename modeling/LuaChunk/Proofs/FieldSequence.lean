import LuaChunk.Decode.Reader
import LuaChunk.Proofs.Number.Stored

/-!
# Fields in any order

Fields of any kind are written one after another behind a header, in an order that nothing in the
chunk tells.  A reader that asks for the same kinds in the same order gets each of them back and
stands behind it, whatever comes next: `Reader.passes_field` is the step for one field, and
`Reader.askAll_written` follows for all of them.
-/

namespace LuaChunk

/-- What is read where a number is written: the double that an integer is rounded to. -/
inductive Number.ReadAs : Number → Number → Prop
  | whole {n : Int} {d : Double} : Double.RoundsTo n d → ReadAs (whole n) (double d)
  | double (d : Double) : ReadAs (double d) (double d)

/-- What is read where a constant is written: a truth value is read as zero or one. -/
inductive PoolEntry.ReadAs : PoolEntry → PoolEntry → Prop
  | nil : ReadAs nil nil
  | false : ReadAs (boolean 0) (boolean 0)
  | true {v : Int} : v ≠ 0 → ReadAs (boolean v) (boolean 1)
  | number {n m : Number} : n.ReadAs m → ReadAs (number n) (number m)
  | string (data : Bytes) : ReadAs (string data) (string data)

/-- A field that is written on its own. -/
inductive Field
  | byte (n : Int)
  | int (n : Int)
  | size (n : Int)
  | string (data : Bytes)
  | number (n : Number)
  | constant (e : PoolEntry)
deriving DecidableEq, Repr

namespace Field

/-- What is written of a field. -/
def emission : Field → Emission
  | byte n => .byte n
  | int n => .int n
  | size n => .size n
  | string data => .string data
  | number n => .number n
  | constant e => .constant e

/-- The request for a field of the same kind. -/
def request : Field → Request
  | byte _ => .byte
  | int _ => .int
  | size _ => .size
  | string _ => .string
  | number _ => .number
  | constant _ => .constant

/-- Fields behind the standard header. -/
def writeAll (fields : List Field) : Emission :=
  Emission.header ++ Emission.concat (fields.map emission)

/-- What is read where a field is written: integers have a sign, and an empty string is none. -/
inductive ReadAs : Field → Answer → Prop
  | byte (n : Int) : ReadAs (byte n) (.whole n)
  | low {n : Int} : n < 2 ^ 31 → ReadAs (int n) (.whole n)
  | high {n : Int} : 2 ^ 31 ≤ n → ReadAs (int n) (.whole (n - 2 ^ 32))
  | size (n : Int) : ReadAs (size n) (.whole n)
  | none : ReadAs (string []) (.string none)
  | some {data : Bytes} : data ≠ [] → ReadAs (string data) (.string (some data))
  | number {n m : Number} : n.ReadAs m → ReadAs (number n) (.number m)
  | constant {e e' : PoolEntry} : e.ReadAs e' → ReadAs (constant e) (.constant e')

end Field

namespace Emission

/-- A number that is written is read as it is, or as the double that it is rounded to. -/
lemma readAs_normalize_number {v : Number} {bs : Bytes} (writes : (number v).Writes bs) :
    v.ReadAs v.normalize := by
  obtain ⟨d, e, -⟩ := exists_double_of_writes writes
  cases v with
  | whole n =>
    rw [e]
    exact .whole (Double.roundsTo_of_ofInt? (Number.normalize_whole_eq_double_iff.mp e))
  | double d => exact .double d

/-- A constant that is written is read as its normal form. -/
lemma readAs_normalize_constant {v : PoolEntry} {bs : Bytes} (writes : (constant v).Writes bs) :
    v.ReadAs v.normalize := by
  cases v with
  | nil => exact .nil
  | boolean v =>
    rw [PoolEntry.normalize]
    split
    case isTrue zero =>
      rw [zero]
      exact .false
    case isFalse other => exact .true other
  | number v =>
    obtain ⟨_, written, -⟩ := writes_tagged 3 (by decide) writes
    exact .number (readAs_normalize_number written)
  | string data => exact .string data
  | foreign v => exact absurd writes not_writes_stopped

/-- What several lists of fields write is written one after the other. -/
lemma concat_append (es es' : List Emission) : concat (es ++ es') = concat es ++ concat es' := by
  induction es with
  | nil => rfl
  | cons e es ih => rw [List.cons_append, concat, concat, ih, append_assoc]

end Emission

/-- Where bytes of a format come next, what a step yields is passed on. -/
lemma RecognisesBelow.exists_map {α β : Type} {x : ReadM α} {F : Format α}
    (recognises : ∀ n, RecognisesBelow n x F) {a : α} {bs t : Bytes} {c : Cursor} (stored : F a bs)
    (stands : c.rest = bs ++ t) (g : α → β) :
    ∃ c', (x >>= fun a => Pure.pure (g a)) c = .ok (g a) c' ∧ c.Passed bs c' :=
  ((recognises _).map g).complete (Nat.lt_succ_self _) ⟨a, stored, rfl⟩ stands

/-- A request for a field of its kind reads what was written of it, whatever stands behind it. -/
lemma Field.exists_read_of_writes {f : Field} {bs t : Bytes} {c : Cursor}
    (writes : f.emission.Writes bs) (stands : c.rest = bs ++ t) (data : Bytes) :
    ∃ a c', f.request.read data standardHeader c = .ok a c' ∧ f.ReadAs a ∧ c.Passed bs c' := by
  cases f with
  | byte n =>
    obtain ⟨b⟩ := Emission.writes_byte_iff.mp writes
    obtain ⟨c', read, passed⟩ := RecognisesBelow.exists_map (fun n => .readByte)
      (rfl : Format.byte b [b]) stands fun b => Answer.whole b.toNat
    exact ⟨_, c', read, .byte _, passed⟩
  | int n =>
    obtain ⟨c', read, passed⟩ := RecognisesBelow.exists_map
      (fun _ => standardHeader.recognises_readInt) (Emission.stores_int writes) stands Answer.whole
    refine ⟨_, c', read, ?_, passed⟩
    unfold wrap
    split
    case isTrue low => exact .low low
    case isFalse high => exact .high (not_lt.mp high)
  | size n =>
    obtain ⟨m, rfl, stored⟩ := Emission.storesUnsigned_of_writes writes
    obtain ⟨c', read, passed⟩ := RecognisesBelow.exists_map
      (fun _ => standardHeader.recognises_readUnsigned 8) stored stands fun n => Answer.whole n
    exact ⟨_, c', read, .size _, passed⟩
  | string data =>
    obtain ⟨c', read, passed⟩ := RecognisesBelow.exists_map
      (fun _ => standardHeader.recognises_readString?) (Emission.stores_string writes) stands
      Answer.string
    refine ⟨_, c', read, ?_, passed⟩
    split
    case isTrue empty =>
      rw [empty]
      exact .none
    case isFalse nonempty => exact .some nonempty
  | number n =>
    obtain ⟨c', read, passed⟩ := RecognisesBelow.exists_map
      (fun _ => standardHeader.recognises_readNumber (.inr (.inl rfl)))
      (Emission.stores_number writes) stands Answer.number
    exact ⟨_, c', read, .number (Emission.readAs_normalize_number writes), passed⟩
  | constant e =>
    obtain ⟨c', read, passed⟩ := RecognisesBelow.exists_map
      (fun _ => standardHeader.recognises_readConstant (.inr (.inl rfl)))
      (Emission.stores_constant writes) stands Answer.constant
    exact ⟨_, c', read, .constant (Emission.readAs_normalize_constant writes), passed⟩

namespace Reader

variable {r : Reader} {bs t : Bytes}

/-- A reader that stands in front of a written field gets it and stands behind it then. -/
lemma passes_field (standard : r.header = standardHeader) {f : Field}
    (writes : f.emission.Writes bs) (stands : r.cursor.rest = bs ++ t) :
    ∃ a c, r.ask f.request = (.ok a, { r with cursor := c }) ∧ f.ReadAs a ∧
      r.cursor.Passed bs c := by
  obtain ⟨a, c, read, readAs, passed⟩ := f.exists_read_of_writes writes stands r.data
  refine ⟨a, c, ?_, readAs, passed⟩
  rw [ask, standard, read]

/-- A reader that stands in front of written fields stands behind them after as many requests. -/
lemma passes_fields (standard : r.header = standardHeader) {fields : List Field}
    (writes : (Emission.concat (fields.map Field.emission)).Writes bs)
    (stands : r.cursor.rest = bs ++ t) :
    ∃ c, r.askAll (fields.map Field.request) = { r with cursor := c } ∧ r.cursor.Passed bs c := by
  -- Each request leaves another reader behind, so the induction is for all of them.
  induction fields generalizing r bs with
  | nil =>
    obtain rfl := Emission.writes_ofBytes_iff.mp writes
    exact ⟨r.cursor, rfl, .of_eq rfl rfl⟩
  | cons f fields ih =>
    obtain ⟨front, back, first, others, rfl⟩ := Emission.writes_append_iff.mp writes
    rw [List.append_assoc] at stands
    obtain ⟨a, c, asked, -, passed⟩ := passes_field standard first stands
    obtain ⟨c', after, passed'⟩ := ih (r := { r with cursor := c }) standard others
      (passed.rest_eq stands)
    refine ⟨c', ?_, passed.trans passed'⟩
    rw [List.map_cons, askAll, List.foldl_cons, asked]
    exact after

/-- A chunk that begins with the standard header is opened, and its reader stands behind it. -/
lemma opened_standard (file : Option String) (behind : Bytes) :
    ∃ r, opened file (standardHeader.bytes ++ behind) = .ok r ∧ r.header = standardHeader ∧
      r.cursor.position = 12 ∧ r.cursor.rest = behind := by
  obtain ⟨c, read, passed⟩ := recognises_readHeader.complete
    (c := .start (standardHeader.bytes ++ behind)) (Nat.lt_succ_self _) ⟨.inr (.inl rfl), rfl⟩ rfl
  refine ⟨⟨standardHeader.bytes ++ behind, file, standardHeader, c⟩, ?_, rfl, passed.position,
    passed.rest_eq rfl⟩
  rw [opened, read]

/-- Fields of any kinds are written in any order behind the standard header, and any bytes follow.
The chunk is opened, and requests for fields of the same kinds in the same order all succeed: each
moves the reader by the number of bytes that were written of its field and yields the field again,
except that integers from 2³¹ on are negative, an empty string is none, numbers are the nearest
doubles and truth values are zero or one.  At the end just the bytes that follow are left. -/
theorem askAll_written {fields : List Field} {bytes : Bytes}
    (written : (Field.writeAll fields).toExcept = .ok bytes) (t : Bytes) (file : Option String) :
    ∃ r, opened file (bytes ++ t) = .ok r ∧ r.cursor.position = 12 ∧
      (∀ before f after, fields = before ++ f :: after →
        ∃ bs a r', f.emission.toExcept = .ok bs ∧
          (r.askAll (before.map Field.request)).ask f.request = (.ok a, r') ∧ f.ReadAs a ∧
          r'.cursor.position =
            (r.askAll (before.map Field.request)).cursor.position + bs.length) ∧
      (r.askAll (fields.map Field.request)).cursor.position = bytes.length ∧
      (r.askAll (fields.map Field.request)).cursor.rest = t := by
  obtain ⟨_, stored, header, writes, rfl⟩ :=
    Emission.writes_append_iff.mp (Emission.toExcept_eq_ok_iff.mp written)
  obtain rfl := Emission.writes_ofBytes_iff.mp header
  rw [List.append_assoc]
  obtain ⟨r, opens, standard, start, stands⟩ := opened_standard file (stored ++ t)
  refine ⟨r, opens, start, ?_, ?_⟩
  · rintro before f after rfl
    rw [List.map_append, Emission.concat_append] at writes
    obtain ⟨front, _, earlier, others, rfl⟩ := Emission.writes_append_iff.mp writes
    obtain ⟨bs, back, own, -, rfl⟩ := Emission.writes_append_iff.mp others
    rw [List.append_assoc, List.append_assoc] at stands
    obtain ⟨c, between, passed⟩ := passes_fields standard earlier stands
    rw [between]
    obtain ⟨a, c', asked, readAs, passed'⟩ :=
      passes_field (r := { r with cursor := c }) standard own (passed.rest_eq stands)
    exact ⟨bs, a, _, Emission.toExcept_eq_ok_iff.mpr own, asked, readAs, passed'.position⟩
  · obtain ⟨c, behind, passed⟩ := passes_fields standard writes stands
    rw [behind]
    refine ⟨?_, passed.rest_eq stands⟩
    rw [List.length_append]
    exact passed.position.trans (congrArg (· + stored.length) start)

/-- Fields of each kind, half of which are read as something else than what is written. -/
def mixedFields : List Field :=
  [.string [], .int (2 ^ 32 - 1), .constant (.boolean 7), .byte 255, .string [0, 0x61],
    .number (.whole (2 ^ 53 + 1)), .size (2 ^ 40), .constant (.string [])]

/-- The bytes that are written of these fields, with the header in front of them. -/
def mixedBytes : Bytes :=
  (Field.writeAll mixedFields).bytes

/-- The empty string is read as none and the integer behind it as minus one, and behind all of the
fields the reader stands before the one byte that follows them. -/
theorem askAll_written_mixedFields :
    (Field.writeAll mixedFields).toExcept = .ok mixedBytes ∧
    ∃ r r₁ r₂, opened none (mixedBytes ++ [7]) = .ok r ∧
      r.ask .string = (.ok (.string none), r₁) ∧ r₁.cursor.position = 20 ∧
      (r.askAll [.string]).ask .int = (.ok (.whole (-1)), r₂) ∧
      (r.askAll (mixedFields.map Field.request)).cursor.position = 64 ∧
      (r.askAll (mixedFields.map Field.request)).cursor.rest = [7] := by
  have written : (Field.writeAll mixedFields).toExcept = .ok mixedBytes :=
    Emission.toExcept_of_stop (by decide +kernel)
  obtain ⟨r, opens, start, each, position, rest⟩ := askAll_written written [7] none
  obtain ⟨bs, a, r₁, own, asked, readAs, moved⟩ := each [] (.string []) _ rfl
  obtain ⟨_, a', r₂, -, asked', readAs', -⟩ := each [.string []] (.int (2 ^ 32 - 1)) _ rfl
  refine ⟨written, r, r₁, r₂, opens, ?_, ?_, ?_, ?_, rest⟩
  · cases readAs with
    | none => exact asked
    | some nonempty => exact absurd rfl nonempty
  · cases own
    exact moved.trans (congrArg (· + 8) start)
  · cases readAs' with
    | low small => exact absurd small (by decide)
    | high => exact asked'
  · rw [position]
    decide +kernel

end Reader

end LuaChunk
