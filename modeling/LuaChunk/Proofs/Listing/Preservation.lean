import LuaChunk.Proofs.Double.Whole
import LuaChunk.Proofs.Encode.Reproduction
import LuaChunk.Proofs.Listing.Likeness

/-!
# Listings of written functions

What is read of a written function looks like the function, so it has the same listing
(`Proto.listing_readChunk_encode`), unless a field changes that a listing shows: a line of
definition past four bytes with a sign, a source name that is inherited, or a whole number that no
double is equal to or that is printed with an exponent.
-/

namespace LuaChunk

namespace Double

variable {n : Int} {d e : Double}

/-- Where a double is equal to a whole number, no other value is as near. -/
lemma IsNearest.scaled_eq (near : d.IsNearest n) (finite : e.isFinite = true)
    (equal : e.scaled = n * one) : d.scaled = n * one := by
  have distance := near.nearest e finite
  rw [equal, sub_self, abs_zero] at distance
  exact sub_eq_zero.mp (abs_nonpos_iff.mp distance)

end Double

/-- A whole number below 2⁶³ is printed like the double that it is equal to. -/
lemma Number.text_double {n : Int} {d e : Double} (small : n.natAbs < 2 ^ 63)
    (near : d.IsNearest n) (finite : e.isFinite = true) (equal : e.scaled = n * Double.one) :
    (double d).text = (whole n).text := by
  have value := Double.magnitude_of_scaled near.sign (near.scaled_eq finite equal)
  obtain ⟨number, bounded⟩ := Double.not_special_of_isFinite near.finite
  have truncated := Double.truncate_of_magnitude near.sign value
  have limit : n.natAbs < Double.wholeTextLimit := small
  have short : IsShort n := isShort_of_lt_two_pow small (by decide)
  have literal : d.literal = toString n := by
    rw [Double.literal, number, bounded, Double.isWhole_of_magnitude near.finite value, truncated,
      decide_eq_true limit]
    rfl
  exact (congrArg Except.ok literal).trans (wholeText_of_isShort short).symm

/-- Each entry of a written tree is a constant. -/
lemma Emission.exists_constant_of_mem_constants {p f : Proto} {bs : Bytes}
    (writes : (proto p).Writes bs) (inside : f ∈ p.functions) {e : PoolEntry}
    (mem : e ∈ f.body.constants) : ∃ c, e.constant = .ok c := by
  obtain ⟨_, written⟩ := exists_writes_of_mem_constants writes inside mem
  cases e with
  | foreign v => exact absurd written not_writes_stopped
  | _ => exact ⟨_, rfl⟩

/-- An entry looks like its normal form, if a whole number is kept by it. -/
lemma PoolEntry.looksLike_normalize {e : PoolEntry} (constant : ∃ c, e.constant = .ok c)
    (kept : ∀ n, e = .number (.whole n) →
      (n.natAbs < 2 ^ 63 ∧ ∃ d : Double, d.isFinite = true ∧ d.scaled = n * Double.one) ∧
        ∃ d, (Number.whole n).normalize = .double d) : e.normalize.LooksLike e := by
  cases e with
  | nil => exact ⟨_, _, rfl, rfl, .nil⟩
  | boolean v =>
    have truth : ((if v = 0 then 0 else 1 : Int) != 0) = (v != 0) := by
      by_cases zero : v = 0 <;> simp [zero]
    exact ⟨_, _, congrArg (Except.ok <| Constant.boolean ·) truth, rfl, .boolean _⟩
  | number v =>
    refine ⟨_, _, rfl, rfl, .number ?_⟩
    cases v with
    | whole n =>
      obtain ⟨⟨small, e, finite, equal⟩, d, rounded⟩ := kept n rfl
      have near := Double.IsNearest.of_ofInt? (Number.normalize_whole_eq_double_iff.mp rounded)
      rw [rounded]
      exact Number.text_double small near finite equal
    | double d => rfl
  | string data => exact ⟨_, _, rfl, rfl, .string data⟩
  | foreign v =>
    obtain ⟨c, impossible⟩ := constant
    cases impossible

/-- The fields of a function that a listing shows are the same in its normal form. -/
structure FunctionBody.IsShownAlike (b : FunctionBody) : Prop where
  firstLine : b.firstLine < 2 ^ 31
  lastLine : b.lastLine < 2 ^ 31
  constants : ∀ e ∈ b.constants, e.normalize.LooksLike e

/-- A function looks like its normal form, if its source name is not inherited. -/
lemma FunctionBody.looksLike_normalize {b : FunctionBody} {outer : String}
    (alike : b.IsShownAlike) (named : b.source = "" → outer = "") :
    (b.normalize outer).LooksLike b where
  source := by
    left
    dsimp only [normalize]
    split
    case isTrue unnamed => rw [named unnamed, unnamed]
    case isFalse => rfl
  firstLine := if_pos alike.firstLine
  lastLine := if_pos alike.lastLine
  constants := List.forall₂_map_left_iff.mpr (List.forall₂_same.mpr alike.constants)

/-- A function inside one of a given source name looks like its normal form, if no name is
inherited. -/
lemma Proto.looksLike_normalizeIn {p : Proto} (alike : ∀ f ∈ p.functions, f.body.IsShownAlike)
    {outer : String} (names : p.KeepsNames ∧ (outer ≠ "" → p.IsNamed)) :
    (p.normalizeIn outer).LooksLike p := by
  -- The name around a function changes on the way down, so the induction is for all such names.
  induction p using nestedInduction generalizing outer with
  | mk body nested ih =>
    obtain ⟨own, inside⟩ := forall_functions_iff.mp alike
    obtain ⟨named, others⟩ := Emission.keepsNames_and_iff.mp names
    rw [normalizeIn, normalizeAllIn_eq_map]
    refine .mk (FunctionBody.looksLike_normalize own named) ?_
    refine List.forall₂_map_left_iff.mpr (List.forall₂_same.mpr fun q mem => ?_)
    exact ih q mem (inside q mem) (others q mem)

/-- The listing of what is read of a written function is that of the function, from any state of the
output and under any name.  The lines of definition have to be below 2³¹, a whole number below 2⁶³
and equal to a double, and no function without a source name may be nested in one with a name. -/
theorem Proto.listing_readChunk_encode {p : Proto} {bytes : Bytes}
    (encoded : p.encode = .ok bytes) (short : ∀ f ∈ p.functions, f.HasShortLists)
    (small : ∀ f ∈ p.functions, f.body.firstLine < 2 ^ 31 ∧ f.body.lastLine < 2 ^ 31)
    (keep : ∀ f ∈ p.functions, f.body.source ≠ "" → ∀ g ∈ f.functions, g.body.source ≠ "")
    (kept : ∀ f ∈ p.functions, ∀ n, .number (.whole n) ∈ f.body.constants →
      n.natAbs < 2 ^ 63 ∧ ∃ d : Double, d.isFinite = true ∧ d.scaled = n * Double.one) :
    ∃ q, (∀ withSummary, ∃ c, readChunk withSummary (.start bytes) = .ok q c) ∧
      ∀ name sink, q.listing name sink = p.listing name sink ∧
        (Latin1.IsText name → ∃ t, p.listing name sink = .ok () t) := by
  obtain ⟨stored, written, rfl⟩ := exists_of_encode encoded
  have stores := Emission.stores_proto "" short written
  have read (withSummary : Bool) : ∃ c, readChunk withSummary
      (.start (standardHeader.bytes ++ stored)) = .ok p.normalize c := by
    obtain ⟨c, read, -⟩ := exists_readChunk_of_stores stores [] withSummary
    rw [List.append_nil] at read
    exact ⟨c, read⟩
  have alike : ∀ f ∈ p.functions, f.body.IsShownAlike := by
    intro f inside
    obtain ⟨first, last⟩ := small f inside
    refine ⟨first, last, fun e mem => PoolEntry.looksLike_normalize ?_ ?_⟩
    · exact Emission.exists_constant_of_mem_constants written inside mem
    · rintro n rfl
      exact ⟨kept f inside n mem, Emission.exists_double_of_mem_constants written inside mem⟩
  have same : p.normalize.LooksLike p := looksLike_normalizeIn alike ⟨keep, fun h => absurd rfl h⟩
  have lists (name : String) (sink : Sink) : p.normalize.listing name sink = p.listing name sink :=
    congrFun (Listing.function_of_looksLike same name) ⟨sink, []⟩
  refine ⟨p.normalize, read, fun name sink => ⟨lists name sink, fun named => ?_⟩⟩
  obtain ⟨c, read⟩ := read false
  rw [← lists]
  exact succeeds_function (isListable_of_readChunk read) named ⟨sink, []⟩

/-- A function that is read with other constants than it was written with. -/
def Proto.keptSample : Proto where
  body :=
    { (default : FunctionBody) with
      firstLine := 2 ^ 31 - 1
      constants := [.boolean 5, .number (.whole (-2 ^ 62))] }
  nested := [⟨{ (default : FunctionBody) with source := "@b" }, []⟩]

/-- The listing of the sample is that of what is read of it, also from the middle of a line. -/
theorem Proto.listing_readChunk_encode_keptSample :
    ∃ bytes q c t, keptSample.encode = .ok bytes ∧ readChunk true (.start bytes) = .ok q c ∧
      q.listing "f" ⟨#[0x20], 3, 1, false⟩ = .ok () t ∧
      keptSample.listing "f" ⟨#[0x20], 3, 1, false⟩ = .ok () t := by
  have encoded : keptSample.encode = .ok (Emission.header ++ Emission.proto keptSample).bytes :=
    Emission.toExcept_of_stop (by decide +kernel)
  have kept : ∀ f ∈ keptSample.functions, ∀ n, .number (.whole n) ∈ f.body.constants →
      n.natAbs < 2 ^ 63 ∧ ∃ d : Double, d.isFinite = true ∧ d.scaled = n * Double.one := by
    intro f inside n mem
    have pool : ∀ f ∈ keptSample.functions, ∀ e ∈ f.body.constants,
        e = .boolean 5 ∨ e = .number (.whole (-2 ^ 62)) := by decide +kernel
    obtain other | number := pool f inside _ mem
    · cases other
    · cases number
      exact ⟨by decide, ⟨0xC3D0000000000000⟩, by decide +kernel⟩
  obtain ⟨q, read, lists⟩ := listing_readChunk_encode encoded (by decide +kernel)
    (by decide +kernel) (by decide +kernel) kept
  obtain ⟨c, read⟩ := read true
  obtain ⟨same, succeeds⟩ := lists "f" ⟨#[0x20], 3, 1, false⟩
  obtain ⟨t, listed⟩ := succeeds (by decide)
  exact ⟨_, q, c, t, encoded, read, same.trans listed, listed⟩

end LuaChunk
