import Mathlib
import LuaChunk.Literal.Piece

/-!
# How strings are cut

Each piece of a string is one of four cases: a byte with an escape letter, a printable one, a
multi-byte run of more than one byte, or a byte that is none of these.  `CutsInto` takes one piece
after another off the front of a string, and `cutsInto_pieces` and `CutsInto.eq_pieces` say that the
pieces of a string are the only ones it is cut into.
-/

namespace LuaChunk

/-- A lead byte is not ASCII. -/
lemma le_of_leadLength {b : UInt8} (long : 1 < leadLength b) : 0x80 ≤ b := by
  by_contra low
  rw [leadLength, if_pos (UInt8.not_le.mp low)] at long
  exact absurd long (lt_irrefl 1)

/-- A byte that continues a run is not ASCII. -/
lemma le_of_isContinuation {b : UInt8} (continuation : isContinuation b = true) : 0x80 ≤ b := by
  rw [isContinuation, Bool.and_eq_true, decide_eq_true_eq] at continuation
  exact continuation.1

/-- A byte that continues a run does not lead one. -/
lemma leadLength_of_isContinuation {b : UInt8} (continuation : isContinuation b = true) :
    leadLength b = 0 := by
  rw [isContinuation, Bool.and_eq_true, decide_eq_true_eq, decide_eq_true_eq] at continuation
  rw [leadLength, if_neg (UInt8.not_lt.mpr continuation.1), if_pos continuation.2]

/-- A multi-byte run: a lead byte and as many bytes that continue it as it asks for. -/
inductive IsRun : Bytes → Prop
  | mk {lead : UInt8} {tail : Bytes} :
    1 < leadLength lead →
    tail.length + 1 = leadLength lead →
    (∀ b ∈ tail, isContinuation b = true) →
    IsRun (lead :: tail)

namespace IsRun

variable {run : Bytes}

/-- The bytes of a run are not ASCII. -/
lemma high (h : IsRun run) : ∀ b ∈ run, 0x80 ≤ b := by
  cases h with
  | mk long _ continued =>
    intro b mem
    rcases List.mem_cons.mp mem with rfl | behind
    · exact le_of_leadLength long
    · exact le_of_isContinuation (continued b behind)

/-- A run has at least two bytes. -/
lemma one_lt_length (h : IsRun run) : 1 < run.length := by
  cases h with
  | mk long length _ =>
    rw [List.length_cons, length]
    exact long

/-- A run is found in front of whatever follows it. -/
lemma runLength_append (h : IsRun run) (rest : Bytes) : runLength (run ++ rest) = run.length := by
  cases h with
  | @mk lead tail _ length continued =>
    have front : (tail ++ rest).take (leadLength lead - 1) = tail := by
      apply List.take_left'
      omega
    rw [List.cons_append, runLength, front, if_pos, List.length_cons, length]
    constructor
    · omega
    · exact List.all_eq_true.mpr continued

end IsRun

/-- A run that is found is the front of the string. -/
lemma isRun_take {data : Bytes} (long : 1 < runLength data) :
    IsRun (data.take (runLength data)) := by
  cases data with
  | nil => exact absurd long (by decide)
  | cons lead rest =>
    unfold runLength at long ⊢
    dsimp only at long ⊢
    split at long
    case isFalse => exact absurd long (by decide)
    case isTrue complete =>
      have tail : leadLength lead = (leadLength lead - 1) + 1 := by omega
      rw [if_pos complete, tail, List.take_succ_cons]
      apply IsRun.mk long
      · rw [complete.1]
        omega
      · exact List.all_eq_true.mp complete.2

/-- A run is found exactly if one comes first. -/
lemma one_lt_runLength_iff {data : Bytes} :
    1 < runLength data ↔ ∃ run rest, IsRun run ∧ data = run ++ rest := by
  constructor
  · intro long
    exact ⟨_, _, isRun_take long, (List.take_append_drop _ data).symm⟩
  · rintro ⟨run, rest, h, rfl⟩
    rw [h.runLength_append]
    exact h.one_lt_length

/-- A run of more than one byte has none of the ASCII ones. -/
lemma le_of_mem_run {data : Bytes} (long : 1 < runLength data) :
    ∀ b ∈ data.take (runLength data), 0x80 ≤ b :=
  (isRun_take long).high

namespace Piece

/-- The pieces that strings are cut into. -/
inductive IsCut : Piece → Prop
  | literal {b : UInt8} : Control.ofByte? b = none → isPrintable b = true → IsCut (literal b)
  | escape (c : Control) : IsCut (escape c)
  | raw {data : Bytes} : 1 < runLength data → IsCut (raw (data.take (runLength data)))
  | hex {b : UInt8} : Control.ofByte? b = none → isPrintable b = false → IsCut (hex b)

end Piece

/-- Every piece of a string is one that may be cut off somewhere. -/
lemma isCut_of_mem_pieces (data : Bytes) : ∀ p ∈ pieces data, p.IsCut := by
  fun_induction pieces data with
  | case1 => exact fun _ mem => absurd mem List.not_mem_nil
  | case2 b rest c _ ih => exact List.forall_mem_cons.mpr ⟨.escape c, ih⟩
  | case3 b rest other printable ih => exact List.forall_mem_cons.mpr ⟨.literal other printable, ih⟩
  | case4 b rest _ _ long ih => exact List.forall_mem_cons.mpr ⟨.raw long, ih⟩
  | case5 b rest other high _ ih =>
    exact List.forall_mem_cons.mpr ⟨.hex other (Bool.eq_false_of_not_eq_true high), ih⟩

/-- A string is cut into pieces, one after another from its front. -/
inductive CutsInto : Bytes → List Piece → Prop
  | nil : CutsInto [] []
  | escape {rest ps} (c : Control) :
    CutsInto rest ps →
    CutsInto (c.byte :: rest) (.escape c :: ps)
  | literal {b rest ps} :
    Control.ofByte? b = none →
    isPrintable b = true →
    CutsInto rest ps →
    CutsInto (b :: rest) (.literal b :: ps)
  | raw {run rest ps} :
    IsRun run →
    CutsInto rest ps →
    CutsInto (run ++ rest) (.raw run :: ps)
  | hex {b rest ps} :
    Control.ofByte? b = none →
    isPrintable b = false →
    ¬ 1 < runLength (b :: rest) →
    CutsInto rest ps →
    CutsInto (b :: rest) (.hex b :: ps)

/-- A string is cut into its pieces. -/
lemma cutsInto_pieces (data : Bytes) : CutsInto data (pieces data) := by
  fun_induction pieces data with
  | case1 => exact .nil
  | case2 b rest c h ih =>
    rw [← Control.byte_of_ofByte? h]
    exact .escape c ih
  | case3 b rest other printable ih => exact .literal other printable ih
  | case4 b rest other high long ih =>
    have cut := CutsInto.raw (isRun_take long) ih
    have behind :
        rest.drop (runLength (b :: rest) - 1) = (b :: rest).drop (runLength (b :: rest)) := by
      rw [← List.drop_succ_cons (a := b), Nat.sub_add_cancel long.le]
    rw [behind, List.take_append_drop] at cut
    rw [behind]
    exact cut
  | case5 b rest other high short ih =>
    exact .hex other (Bool.eq_false_of_not_eq_true high) short ih

/-- No byte past ASCII has an escape letter of its own. -/
lemma ofByte?_of_high {b : UInt8} (high : 0x80 ≤ b) : Control.ofByte? b = none := by
  cases e : Control.ofByte? b with
  | none => rfl
  | some c =>
    rw [← Control.byte_of_ofByte? e] at high
    have low : ¬ 0x80 ≤ c.byte := by cases c <;> decide
    exact absurd high low

/-- A byte that is not ASCII is not printable. -/
lemma isPrintable_of_high {b : UInt8} (high : 0x80 ≤ b) : isPrintable b = false := by
  have above : ¬ b ≤ 0x7F := by
    intro low
    exact absurd (UInt8.le_trans high low) (by decide)
  rw [isPrintable, decide_eq_false above, Bool.and_false]

/-- There is only one way to cut a string. -/
lemma CutsInto.eq_pieces {data : Bytes} {ps : List Piece} (h : CutsInto data ps) :
    ps = pieces data := by
  induction h with
  | nil => rw [pieces]
  | escape c _ ih => rw [pieces, Control.ofByte?_byte, ih]
  | literal other printable _ ih =>
    rw [pieces, other]
    dsimp only
    rw [if_pos printable, ih]
  | @raw run rest ps h _ ih =>
    have length := h.runLength_append rest
    have long := h.one_lt_length
    have high := h.high
    cases run with
    | nil => exact absurd long (by decide)
    | cons lead tail =>
      have first := high lead List.mem_cons_self
      rw [List.cons_append] at length ⊢
      rw [pieces, ofByte?_of_high first]
      dsimp only
      rw [isPrintable_of_high first, if_neg Bool.false_ne_true, length, if_pos long, ih,
        ← List.cons_append, List.take_left, List.length_cons, Nat.add_sub_cancel, List.drop_left]
  | hex other high short _ ih =>
    rw [pieces, other]
    dsimp only
    rw [high, if_neg Bool.false_ne_true, if_neg short, ih]

end LuaChunk
