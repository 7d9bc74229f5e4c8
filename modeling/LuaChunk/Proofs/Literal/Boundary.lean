import LuaChunk.Constant
import LuaChunk.Proofs.Literal.Cut

/-!
# Where cutting resumes

No run reaches over a byte that does not continue one, so a string may be cut at such a byte and its
parts taken apart on their own: `Constant.literal_append`.  Each lead byte is a place of this kind,
and so every complete run in a string is a piece of it, whatever stands in front
(`pieces_tile`).
-/

namespace LuaChunk

/-- No byte that continues a run stands in front. -/
def IsBoundary (behind : Bytes) : Prop :=
  ∀ b ∈ behind.head?, isContinuation b = false

/-- The end of a string is a boundary. -/
lemma isBoundary_nil : IsBoundary [] := by
  intro b mem
  cases mem

/-- A string begins at a boundary unless its first byte continues a run. -/
lemma isBoundary_cons {b : UInt8} {rest : Bytes} :
    IsBoundary (b :: rest) ↔ isContinuation b = false := by
  constructor
  · intro h
    exact h b rfl
  · rintro h _ ⟨⟩
    exact h

instance : (behind : Bytes) → Decidable (IsBoundary behind)
  | [] => .isTrue isBoundary_nil
  | _ :: _ => decidable_of_iff _ isBoundary_cons.symm

/-- A run begins at a boundary. -/
lemma IsRun.isBoundary {run : Bytes} (h : IsRun run) (rest : Bytes) :
    IsBoundary (run ++ rest) := by
  cases h with
  | mk long _ _ =>
    apply isBoundary_cons.mpr
    apply Bool.eq_false_of_not_eq_true
    intro continuation
    rw [leadLength_of_isContinuation continuation] at long
    exact absurd long (by decide)

/-- A run in front of a string that ends at a boundary does not reach over it. -/
lemma one_lt_runLength_of_append {a b : Bytes} (nonempty : a ≠ []) (boundary : IsBoundary b)
    (long : 1 < runLength (a ++ b)) : 1 < runLength a := by
  obtain ⟨run, rest, h, e⟩ := one_lt_runLength_iff.mp long
  apply one_lt_runLength_iff.mpr
  rcases List.append_eq_append_iff.mp e with ⟨inside, rfl, rfl⟩ | ⟨behind, rfl, rfl⟩
  · cases inside with
    | nil =>
      rw [List.append_nil] at h
      exact ⟨a, [], h, (List.append_nil a).symm⟩
    | cons x inside =>
      -- The byte behind the boundary would be one of those that continue the run.
      cases a with
      | nil => exact absurd rfl nonempty
      | cons lead front =>
        cases h with
        | mk _ _ continued =>
          have first := continued x (List.mem_append_right front List.mem_cons_self)
          have fresh := isBoundary_cons.mp boundary
          rw [first] at fresh
          cases fresh
  · exact ⟨run, behind, h, rfl⟩

/-- Pieces of a string in front of a boundary, and those behind it, cut both together. -/
lemma CutsInto.append {a b : Bytes} {ps qs : List Piece} (ha : CutsInto a ps)
    (hb : CutsInto b qs) (boundary : IsBoundary b) : CutsInto (a ++ b) (ps ++ qs) := by
  induction ha with
  | nil => exact hb
  | escape c _ ih => exact .escape c ih
  | literal other printable _ ih => exact .literal other printable ih
  | raw h _ ih =>
    rw [List.append_assoc]
    exact .raw h ih
  | hex other high short _ ih =>
    apply CutsInto.hex other high _ ih
    intro long
    exact short (one_lt_runLength_of_append (List.cons_ne_nil _ _) boundary long)

/-- The pieces of a string in front of a boundary do not depend on what is behind it. -/
lemma pieces_append {a b : Bytes} (boundary : IsBoundary b) :
    pieces (a ++ b) = pieces a ++ pieces b :=
  ((cutsInto_pieces a).append (cutsInto_pieces b) boundary).eq_pieces.symm

/-- Where the second of two strings does not begin with a byte that continues a run, the pieces of
both together are those of the first and those of the second, and between the quotes of the literal
stands what stands in the literals of both. -/
theorem Constant.literal_append {a b : Bytes} (boundary : IsBoundary b) :
    pieces (a ++ b) = pieces a ++ pieces b ∧
      literalBody (a ++ b) = literalBody a ++ literalBody b ∧
      (string (a ++ b)).literal =
        .ok (quoteByte :: (literalBody a ++ literalBody b) ++ [quoteByte]) := by
  have cut := pieces_append (a := a) boundary
  have body : literalBody (a ++ b) = literalBody a ++ literalBody b := by
    rw [literalBody, cut, List.flatMap_append]
    rfl
  refine ⟨cut, body, ?_⟩
  rw [literal, quoted, body]

/-- A run that breaks off at the boundary stays broken, and the one behind it stays whole. -/
theorem Constant.literal_append_brokenRun :
    IsBoundary [0xE2, 0x82, 0xAC] ∧
      pieces ([0x61, 0xE2, 0x82] ++ [0xE2, 0x82, 0xAC]) =
        [.literal 0x61, .hex 0xE2, .hex 0x82, .raw [0xE2, 0x82, 0xAC]] := by
  have boundary : IsBoundary [0xE2, 0x82, 0xAC] := by decide
  obtain ⟨cut, -⟩ := literal_append (a := [0x61, 0xE2, 0x82]) boundary
  refine ⟨boundary, ?_⟩
  rw [cut]
  decide +kernel

end LuaChunk
