import LuaChunk.Proofs.Decode.Acceptance
import LuaChunk.Proofs.Double.Integer
import LuaChunk.Proofs.Encode.Items
import LuaChunk.Proofs.Number.Integer

/-!
# Integers that are stored as doubles

Numbers are written as doubles, so an integer among the constants comes back as the double that it
is rounded to.  `Number.StoredAs` says what writing the constant and reading it again yields, and
`Number.storedAs_iff_ofInt?` reduces it to rounding; `Number.storedAs_nearest` says what is kept of
the integer.
-/

namespace LuaChunk

namespace Emission

/-- An integer is written as a constant unless it is too large for a double. -/
lemma stop_whole (n : Int) : (constant (.number (.whole n))).stop = (Item.whole n).fault? := by
  have short : (PoolEntry.number (.whole n)).stringLength < 2 ^ 64 - 1 := by
    change 0 < 2 ^ 64 - 1
    decide
  have stops := stopsAt_constant short
  rw [StopsAt, PoolEntry.items, List.findSome?_singleton] at stops
  exact stops

/-- What is written of a constant is read as its normal form under the header of written chunks,
whatever stands behind it. -/
lemma exists_readConstant_of_writes {v : PoolEntry} {bs : Bytes} (writes : (constant v).Writes bs)
    {c : Cursor} {t : Bytes} (stands : c.rest = bs ++ t) :
    ∃ c', standardHeader.readConstant c = .ok v.normalize c' ∧
      c'.position = c.position + bs.length ∧ c'.rest = t := by
  have recognises := Header.recognises_readConstant (n := c.rest.length + 1)
    (h := standardHeader) (.inr (.inl rfl))
  obtain ⟨c', read, passed⟩ :=
    recognises.complete (Nat.lt_succ_self _) (stores_constant writes) stands
  exact ⟨c', read, passed.position, passed.rest_eq stands⟩

end Emission

namespace Number

/-- An integer can be written as a constant, and a given double is read where the constant is read
again under the header of written chunks, whatever stands behind it. -/
def StoredAs (n : Int) (d : Double) : Prop :=
  ∃ bs, (Emission.constant (.number (.whole n))).toExcept = .ok bs ∧
    ∀ (c : Cursor) (t : Bytes), c.rest = bs ++ t →
      ∃ c', standardHeader.readConstant c = .ok (.number (.double d)) c' ∧
        c'.position = c.position + bs.length ∧ c'.rest = t

variable {n : Int} {d : Double}

/-- An integer is stored as a double exactly if it is converted to this double. -/
lemma storedAs_iff_ofInt? : StoredAs n d ↔ Double.ofInt? n = some d := by
  constructor
  · intro ⟨bs, written, reads⟩
    have start : (Cursor.start bs).rest = bs ++ [] := (List.append_nil bs).symm
    obtain ⟨c, read, -⟩ := reads (.start bs) [] start
    obtain ⟨c', read', -⟩ :=
      Emission.exists_readConstant_of_writes (Emission.toExcept_eq_ok_iff.mp written) start
    rw [PoolEntry.normalize, read] at read'
    rw [← normalize_whole_eq_double_iff]
    -- Taking the equation apart would unfold rounding.
    generalize (whole n).normalize = m at read' ⊢
    cases read'
    rfl
  · intro rounded
    have small : (Item.whole n).IsWritable := Double.exists_ofInt?_iff.mp ⟨d, rounded⟩
    have complete := (Emission.stop_whole n).trans (Item.fault?_eq_none_iff.mpr small)
    have written := Emission.toExcept_of_stop complete
    refine ⟨_, written, fun c t stands => ?_⟩
    have read :=
      Emission.exists_readConstant_of_writes (Emission.toExcept_eq_ok_iff.mp written) stands
    rw [PoolEntry.normalize, normalize_whole_eq_double_iff.mpr rounded] at read
    exact read

/-- An integer from the bound on is refused. -/
lemma toExcept_whole_of_large (large : Double.overflowBound ≤ n.natAbs) :
    (Emission.constant (.number (.whole n))).toExcept = .error (.overflow n) := by
  have refused : ¬ (Item.whole n).IsWritable := not_lt.mpr large
  apply Emission.toExcept_eq_error_iff.mpr
  rw [Emission.stop_whole]
  exact Item.fault?_eq_some_iff.mpr ⟨refused, rfl⟩

/-- The double that stores an integer is the one that the integer is rounded to. -/
lemma StoredAs.roundsTo (stored : StoredAs n d) : Double.RoundsTo n d :=
  Double.roundsTo_of_ofInt? (storedAs_iff_ofInt?.mp stored)

/-- An integer below the bound is stored as a double, and no other one is written: the writer fails
as it does for what does not fit a field.  The double is the one that the integer is rounded to.
So it is whole itself, has the same integer of 32 bits nearest to it, and is equal to the integer up
to 2⁵³; and integers in order are stored as doubles in order. -/
theorem storedAs_nearest (n : Int) :
    (n.natAbs < Double.overflowBound → ∃ d, StoredAs n d) ∧
    (Double.overflowBound ≤ n.natAbs →
      (Emission.constant (.number (.whole n))).toExcept = .error (.overflow n) ∧
        (WriteFault.overflow n).name = "struct.error") ∧
    (∀ d, StoredAs n d →
      Double.RoundsTo n d ∧ (Constant.number (.double d)).isWhole = true ∧
      (Constant.number (.double d)).toInt32 = (Constant.number (.whole n)).toInt32 ∧
      (n.natAbs ≤ 2 ^ 53 → (double d).value? = some (n : ℚ))) ∧
    ∀ d m e, StoredAs n d → StoredAs m e → n ≤ m → d.value ≤ e.value := by
  refine ⟨fun small => ?_, fun large => ⟨toExcept_whole_of_large large, rfl⟩, fun d stored => ?_,
    fun d m e stored stored' le => ?_⟩
  · obtain ⟨d, rounded⟩ := Double.exists_ofInt?_iff.mpr small
    exact ⟨d, storedAs_iff_ofInt?.mpr rounded⟩
  · have rounds := stored.roundsTo
    have whole := rounds.isWhole
    obtain ⟨finite, k, value⟩ := Double.isWhole_iff.mp whole
    refine ⟨rounds, whole, ?_, fun small => ?_⟩
    · rw [Constant.toInt32_of_value? (value?_double_eq_some_iff.mpr ⟨finite, value⟩),
        Constant.toInt32_of_value? (v := Number.whole n) rfl, rounds.clamp_eq value]
    · exact value?_double_eq_some_iff.mpr ⟨finite, rounds.value_eq small⟩
  · exact stored.roundsTo.mono stored'.roundsTo (Int.cast_le.mpr le)

/-- The integer halfway between two doubles is stored as the one with the even significand. -/
theorem storedAs_nearest_tie :
    (∃ d, StoredAs (-7) d ∧ (double d).value? = some (-7)) ∧
    (StoredAs (2 ^ 53 + 1) ⟨0x4340000000000000⟩ ∧
      Double.RoundsTo (2 ^ 53 + 1 : ℤ) ⟨0x4340000000000000⟩ ∧
      (⟨0x4340000000000000⟩ : Double).value ≤ (⟨0x4340000000000001⟩ : Double).value) ∧
    (Emission.constant (.number (.whole (2 ^ 1024)))).toExcept = .error (.overflow (2 ^ 1024)) := by
  have tie : StoredAs (2 ^ 53 + 1) ⟨0x4340000000000000⟩ :=
    storedAs_iff_ofInt?.mpr (by decide +kernel)
  have next : StoredAs (2 ^ 53 + 2) ⟨0x4340000000000001⟩ :=
    storedAs_iff_ofInt?.mpr (by decide +kernel)
  obtain ⟨-, -, kept, ordered⟩ := storedAs_nearest (2 ^ 53 + 1)
  obtain ⟨storable, -, small, -⟩ := storedAs_nearest (-7)
  obtain ⟨d, stored⟩ := storable (by decide +kernel)
  refine ⟨⟨d, stored, (small d stored).2.2.2 (by decide)⟩,
    ⟨tie, (kept _ tie).1, ordered _ _ _ tie next (by decide)⟩, ?_⟩
  exact ((storedAs_nearest (2 ^ 1024)).2.1 (by decide +kernel)).1

/-- An integer that is too large for a double is not reported as an overflow. -/
theorem not_forall_large_overflow :
    ¬ ∀ n : Int, Double.overflowBound ≤ n.natAbs →
      ∃ fault, (Emission.constant (.number (.whole n))).toExcept = .error fault ∧
        fault.name = "OverflowError" := by
  intro always
  have large : Double.overflowBound ≤ (2 ^ 1024 : Int).natAbs := by decide +kernel
  obtain ⟨fault, failed, named⟩ := always (2 ^ 1024) large
  rw [toExcept_whole_of_large large] at failed
  cases failed
  exact absurd named (by decide)

end Number

end LuaChunk
