import LuaChunk.Proofs.Decode.Acceptance
import LuaChunk.Proofs.Encode.Written

/-!
# Writing and reading back

What is written of a function is a chunk under the standard header, so reading accepts it, whatever
follows it.  `Proto.readChunk_encode` says that reading yields the normal form of the function and
stops where the written bytes end.
-/

namespace LuaChunk

/-- A written chunk is the standard header with what stores the normal form of the function. -/
lemma Proto.exists_of_encode {p : Proto} {bytes : Bytes} (encoded : p.encode = .ok bytes) :
    ∃ stored, (Emission.proto p).Writes stored ∧ bytes = standardHeader.bytes ++ stored := by
  obtain ⟨_, stored, header, written, rfl⟩ :=
    Emission.writes_append_iff.mp (Emission.toExcept_eq_ok_iff.mp encoded)
  rw [← Emission.writes_ofBytes_iff.mp header]
  exact ⟨stored, written, rfl⟩

/-- Bytes that store a function under the standard header are read behind this header, whatever
follows them. -/
lemma exists_readChunk_of_stores {p : Proto} {stored : Bytes}
    (stores : standardHeader.StoresProto "" p stored) (t : Bytes) (withSummary : Bool) :
    ∃ c, readChunk withSummary (.start (standardHeader.bytes ++ stored ++ t)) = .ok p c ∧
      c.position = (standardHeader.bytes ++ stored).length ∧ c.rest = t := by
  obtain ⟨c, read, passed⟩ := (recognises_readChunk withSummary).complete
    (c := .start (standardHeader.bytes ++ stored ++ t)) (Nat.lt_succ_self _)
    ⟨standardHeader, stored, .inr (.inl rfl), stores, rfl⟩ rfl
  exact ⟨c, read, passed.position.trans (Nat.zero_add _), passed.rest_eq rfl⟩

/-- Reading a written chunk and anything behind it yields the normal form of the function and stops
at the end of the chunk; whole numbers become the doubles nearest to them. -/
theorem Proto.readChunk_encode {p : Proto} {bytes : Bytes} (encoded : p.encode = .ok bytes)
    (short : ∀ f ∈ p.functions, f.HasShortLists) (t : Bytes) (withSummary : Bool) :
    (∃ c, readChunk withSummary (.start (bytes ++ t)) = .ok p.normalize c ∧
      c.position = bytes.length ∧ c.rest = t) ∧
    ∀ f ∈ p.functions, ∀ n, .number (.whole n) ∈ f.body.constants →
      ∃ d, (Number.whole n).normalize = .double d ∧ d.IsNearest n := by
  obtain ⟨stored, written, rfl⟩ := exists_of_encode encoded
  refine ⟨exists_readChunk_of_stores (Emission.stores_proto "" short written) t withSummary, ?_⟩
  intro f inside n mem
  obtain ⟨d, e⟩ := Emission.exists_double_of_mem_constants written inside mem
  exact ⟨d, e, .of_ofInt? (Number.normalize_whole_eq_double_iff.mp e)⟩

/-- A function in which reading changes each kind of field that it can change. -/
def Proto.sample : Proto where
  body :=
    { source := "@a", firstLine := 2 ^ 32 - 1, lastLine := 0
      upvalueCount := 1, parameterCount := 0, varargFlag := 255, stackSize := 2
      code := [2 ^ 32 - 1]
      constants := [.nil, .boolean 5, .number (.whole (2 ^ 53 + 1)), .string []]
      lines := [2 ^ 31], locals := [⟨"é", 0, 2 ^ 31⟩], upvalues := [""] }
  nested := [⟨default, []⟩]

/-- The sample is written, and with a byte behind it read back as its normal form. -/
theorem Proto.readChunk_encode_sample :
    ∃ (bytes : Bytes) (p : Proto) (c : Cursor), sample.encode = .ok bytes ∧
      readChunk true (.start (bytes ++ [7])) = .ok p c ∧ c.position = bytes.length ∧
      c.rest = [7] ∧ p.functions.map body =
        [{ sample.body with
            firstLine := -1, lines := [-2 ^ 31], locals := [⟨"é", 0, -2 ^ 31⟩]
            constants := [.nil, .boolean 1, .number (.double ⟨0x4340000000000000⟩), .string []] },
          { (default : FunctionBody) with source := "@a" }] := by
  have encoded : sample.encode = .ok (Emission.header ++ Emission.proto sample).bytes :=
    Emission.toExcept_of_stop (by decide +kernel)
  obtain ⟨⟨c, read, position, rest⟩, -⟩ := readChunk_encode encoded (by decide +kernel) [7] true
  exact ⟨_, _, c, encoded, read, position, rest, by decide +kernel⟩

end LuaChunk
