import LuaChunk.Proofs.Decode.Depth

/-!
# Chunks that are cut or continued

A chunk that is read does not need what stands behind it, and a chunk that is refused is refused
whatever stands behind it.  So a cut in front of the place where reading stops can only be met as a
lack of bytes, which is what `readChunk_take_append` says for every cut.
-/

namespace LuaChunk

variable {withSummary : Bool} {data : Bytes} {p : Proto} {c c' : Cursor} {e : ReadError}

/-- A chunk is passed up to the position of the cursor. -/
lemma Cursor.Passed.eq_take {bs : Bytes} (passed : (start data).Passed bs c) :
    bs = data.take c.position := by
  have position : c.position = bs.length := passed.position.trans (Nat.zero_add _)
  have parts : data = bs ++ c.rest := passed.rest
  rw [position, parts, List.take_left]

/-- The position and the number of bytes left add up to the length of the chunk. -/
lemma Cursor.Passed.position_add_length {bs : Bytes} (passed : (start data).Passed bs c) :
    c.position + c.rest.length = data.length := by
  have position : c.position = bs.length := passed.position.trans (Nat.zero_add _)
  rw [position]
  exact passed.length_rest.symm

/-- What was read of a chunk is read whatever stands behind it. -/
lemma readChunk_take (read : readChunk withSummary (.start data) = .ok p c) (t : Bytes) :
    readChunk withSummary (.start (data.take c.position ++ t)) = .ok p (c.facing t) := by
  obtain ⟨bs, passed, same⟩ := (scan_readChunk withSummary).ok read
  rw [← passed.eq_take]
  exact same t

/-- A refused chunk is refused whatever stands behind it. -/
lemma readChunk_refused (failed : readChunk withSummary (.start data) = .error e c)
    (refused : ¬ e.IsEndAt c) (t : Bytes) :
    readChunk withSummary (.start (data ++ t)) = .error e (c.facing (c.rest ++ t)) := by
  obtain ⟨bs, passed, done⟩ := (scan_readChunk withSummary).error failed
  obtain ⟨-, same⟩ := done.resolve_left refused
  have parts : data ++ t = bs ++ (c.rest ++ t) := by
    rw [← List.append_assoc]
    exact congrArg (· ++ t) passed.rest
  rw [parts]
  exact same (c.rest ++ t)

/-- A chunk that is cut in front of the place where reading stops ends too early. -/
lemma exists_isEndAt_of_lt (read : readChunk withSummary (.start data) = .ok p c) {k : Nat}
    (lt : k < c.position) :
    ∃ e c', readChunk withSummary (.start (data.take k)) = .error e c' ∧ e.IsEndAt c' ∧
      c'.position + c'.rest.length = k := by
  obtain ⟨_, passed, -⟩ := (scan_readChunk withSummary).ok read
  have inside := passed.position_add_length
  have len : (data.take k).length = k := List.length_take_of_le (by omega)
  have whole : data.take k ++ data.drop k = data := List.take_append_drop k data
  cases cut : readChunk withSummary (.start (data.take k)) with
  | ok p' c' =>
    -- Reading would stop at the same place without the bytes in front of it.
    obtain ⟨bs', passed', same⟩ := (scan_readChunk withSummary).ok cut
    have again := same (c'.rest ++ data.drop k)
    rw [← List.append_assoc, ← passed'.rest] at again
    have read' : readChunk withSummary (.start (data.take k ++ data.drop k)) = _ := again
    rw [whole] at read'
    cases read.symm.trans read'
    have inside' := passed'.position_add_length
    have stop : c'.position ≤ k := by omega
    exact absurd lt (Nat.not_lt_of_le stop)
  | error e c' =>
    obtain ⟨_, passed', -⟩ := (scan_readChunk withSummary).error cut
    refine ⟨e, c', rfl, ?_, passed'.position_add_length.trans len⟩
    by_contra refused
    have failed := readChunk_refused cut refused (data.drop k)
    rw [whole] at failed
    cases read.symm.trans failed

/-- A chunk that is read up to a position is read alike with anything else behind the position, and
cut in front of it the chunk ends too early, with more bytes wanted than are left; a chunk that is
refused is refused alike with anything behind it. -/
theorem readChunk_take_append (withSummary : Bool) (data : Bytes) :
    (∀ p c, readChunk withSummary (.start data) = .ok p c →
      (∀ t, ∃ c', readChunk withSummary (.start (data.take c.position ++ t)) = .ok p c' ∧
        c'.position = c.position ∧ c'.log = c.log) ∧
      ∀ k < c.position, ∃ (n o : Nat) (c' : Cursor),
        readChunk withSummary (.start (data.take k)) = .error ⟨.unexpectedEnd n, o⟩ c' ∧
          o ≤ k ∧ k < o + n) ∧
    ∀ e c, readChunk withSummary (.start data) = .error e c → (∀ n, e.fault ≠ .unexpectedEnd n) →
      ∀ t, ∃ c', readChunk withSummary (.start (data ++ t)) = .error e c' ∧ c'.log = c.log := by
  refine ⟨fun p c read => ⟨fun t => ⟨_, readChunk_take read t, rfl, rfl⟩, fun k lt => ?_⟩,
    fun e c failed other t => ?_⟩
  · obtain ⟨e, c', failed, ⟨n, rfl, short⟩, place⟩ := exists_isEndAt_of_lt read lt
    exact ⟨n, c'.position, c', failed, by omega, by omega⟩
  · have refused : ¬ e.IsEndAt c := by
      rintro ⟨n, rfl, -⟩
      exact other n rfl
    exact ⟨_, readChunk_refused failed refused t, rfl⟩

/-- Where reading a chunk stops, or the error with which it fails. -/
def readStop (data : Bytes) : Except ReadError Nat :=
  match readChunk false (.start data) with
  | .ok _ c => .ok c.position
  | .error e _ => .error e

/-- A chunk that is read up to a position is read by a cursor that ends there. -/
lemma exists_of_readStop_eq_ok {j : Nat} (stop : readStop data = .ok j) :
    ∃ p c, readChunk false (.start data) = .ok p c ∧ c.position = j := by
  unfold readStop at stop
  split at stop
  case h_1 p c read =>
    cases stop
    exact ⟨p, c, read, rfl⟩
  case h_2 => cases stop

/-- A chunk whose reading stops at a fault is read by a cursor that meets it. -/
lemma exists_of_readStop_eq_error (stop : readStop data = .error e) :
    ∃ c, readChunk false (.start data) = .error e c := by
  unfold readStop at stop
  split at stop
  case h_1 => cases stop
  case h_2 c failed =>
    cases stop
    exact ⟨c, failed⟩

/-- A chunk of a function with one constant that has a tag and nothing else. -/
def tagChunk (tag : UInt8) : Bytes :=
  standardHeader.bytes ++ List.replicate 24 0 ++ [1, 0, 0, 0, tag] ++ List.replicate 16 0

/-- With a tag of zero the chunk is read to its end, and cut at its tag it ends too early; with a
tag of two it is refused at the tag. -/
theorem readChunk_take_append_tagChunk :
    (∃ (p : Proto) (c c' c'' : Cursor) (n o : Nat),
      readChunk false (.start (tagChunk 0)) = .ok p c ∧
      readChunk false (.start ((tagChunk 0).take c.position ++ [7])) = .ok p c' ∧
      c'.position = c.position ∧
      readChunk false (.start ((tagChunk 0).take 40)) = .error ⟨.unexpectedEnd n, o⟩ c'' ∧
      o ≤ 40 ∧ 40 < o + n) ∧
    ∃ c c', readChunk false (.start (tagChunk 2)) = .error ⟨.illegalTag 2, 40⟩ c ∧
      readChunk false (.start (tagChunk 2 ++ [7])) = .error ⟨.illegalTag 2, 40⟩ c' ∧
      c'.log = c.log := by
  constructor
  · have whole : readStop (tagChunk 0) = .ok 57 := by decide +kernel
    obtain ⟨p, c, read, stop⟩ := exists_of_readStop_eq_ok whole
    obtain ⟨continued, cut⟩ := (readChunk_take_append false (tagChunk 0)).1 p c read
    obtain ⟨c', read', position, -⟩ := continued [7]
    obtain ⟨n, o, c'', failed, before, behind⟩ := cut 40 (by rw [stop]; decide)
    exact ⟨p, c, c', c'', n, o, read, read', position, failed, before, behind⟩
  · have refused : readStop (tagChunk 2) = .error ⟨.illegalTag 2, 40⟩ := by decide +kernel
    obtain ⟨c, failed⟩ := exists_of_readStop_eq_error refused
    obtain ⟨c', failed', log⟩ := (readChunk_take_append false (tagChunk 2)).2 _ c failed nofun [7]
    exact ⟨c, c', failed, failed', log⟩

end LuaChunk
