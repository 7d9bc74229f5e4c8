import LuaChunk.Proofs.Listing.Success
import LuaChunk.Proofs.Sink

/-!
# What looks alike in a listing

A listing does not show everything of a function.  Two functions look alike if they differ in
nothing that it shows: an entry of the pool is shown by its constant and a number by its text, and
no source name is shown as a question mark.  Trees that look alike are listed alike from any state
of the output (`Listing.function_of_looksLike`).
-/

namespace LuaChunk

/-- Constants that a listing shows alike: numbers do not have to be equal, but their texts. -/
inductive Constant.LooksLike : Constant → Constant → Prop
  | nil : LooksLike nil nil
  | boolean (b : Bool) : LooksLike (boolean b) (boolean b)
  | number {n n' : Number} : n.text = n'.text → LooksLike (number n) (number n')
  | string (data : Bytes) : LooksLike (string data) (string data)

/-- Entries that stand for constants which a listing shows alike. -/
def PoolEntry.LooksLike (e e' : PoolEntry) : Prop :=
  ∃ c c', e.constant = .ok c ∧ e'.constant = .ok c' ∧ c.LooksLike c'

/-- Functions that a listing shows alike, without those nested in them. -/
structure FunctionBody.LooksLike (b b' : FunctionBody) : Prop where
  source : b.source = b'.source ∨ b.source ∈ ["", "?"] ∧ b'.source ∈ ["", "?"]
  firstLine : b.firstLine = b'.firstLine
  lastLine : b.lastLine = b'.lastLine
  constants : List.Forall₂ PoolEntry.LooksLike b.constants b'.constants

/-- Trees of the same shape whose functions a listing shows alike. -/
inductive Proto.LooksLike : Proto → Proto → Prop
  | mk {b b' : FunctionBody} {ps ps' : List Proto} :
    b.LooksLike b' → List.Forall₂ LooksLike ps ps' → LooksLike ⟨b, ps⟩ ⟨b', ps'⟩

namespace Listing

/-- The source name as a listing shows it. -/
def shownSource (source : String) : String :=
  if source.isEmpty then "?" else source

/-- Two source names are shown alike if they are equal or neither is a name. -/
lemma shownSource_eq_iff {source source' : String} :
    shownSource source = shownSource source' ↔
      source = source' ∨ source ∈ ["", "?"] ∧ source' ∈ ["", "?"] := by
  have shown (source : String) : shownSource source = "?" ↔ source ∈ ["", "?"] := by
    rw [shownSource]
    split
    case isTrue empty => simp [String.isEmpty_iff.mp empty]
    case isFalse named => simp [mt String.isEmpty_iff.mpr named]
  have named {source : String} (h : source ∉ ["", "?"]) : shownSource source = source := by
    apply if_neg
    intro empty
    rw [String.isEmpty_iff.mp empty] at h
    exact h List.mem_cons_self
  constructor
  · intro same
    by_cases unnamed : source ∈ ["", "?"]
    · have unnamed' := (shown source').mp (same ▸ (shown source).mpr unnamed)
      exact .inr ⟨unnamed, unnamed'⟩
    · have unnamed' : source' ∉ ["", "?"] :=
        fun h => unnamed ((shown source).mp (same ▸ (shown source').mpr h))
      exact .inl (by rw [← named unnamed, same, named unnamed'])
  · rintro (rfl | ⟨h, h'⟩)
    · rfl
    · rw [(shown source).mpr h, (shown source').mpr h']

/-- Functions that look alike are described alike, or neither is. -/
lemma heading_of_looksLike {b b' : FunctionBody} (alike : b.LooksLike b') (name : String)
    (nested : Nat) : heading name b nested = heading name b' nested := by
  have source := shownSource_eq_iff.mpr alike.source
  unfold shownSource at source
  unfold heading headingText
  rw [source, alike.firstLine, alike.lastLine, alike.constants.length_eq]

/-- Constants that look alike are printed alike. -/
lemma print_of_looksLike {c c' : Constant} (alike : c.LooksLike c') : c.print = c'.print := by
  cases alike with
  | @number n n' text =>
    have literal : (Constant.number n).literal = (Constant.number n').literal := by
      rw [Constant.literal, Constant.literal, text]
    unfold Constant.print
    dsimp only
    rw [literal]
  | nil => rfl
  | boolean => rfl
  | string => rfl

/-- Constants that look alike are both marked or both not. -/
lemma isIdentifier_of_looksLike {c c' : Constant} (alike : c.LooksLike c') :
    c.isIdentifier = c'.isIdentifier := by
  cases alike <;> rfl

/-- Entries that look alike have the same line. -/
lemma entry_of_looksLike {e e' : PoolEntry} (alike : e.LooksLike e') (n : Nat) :
    entry n e = entry n e' := by
  obtain ⟨c, c', constant, constant', same⟩ := alike
  unfold entry
  rw [constant, constant']
  dsimp only
  rw [print_of_looksLike same, isIdentifier_of_looksLike same]

/-- Entries that look alike one by one have the same lines. -/
lemma entries_of_looksLike {es es' : List PoolEntry}
    (alike : List.Forall₂ PoolEntry.LooksLike es es') (n : Nat) : entries n es = entries n es' := by
  induction alike generalizing n with
  | nil => rfl
  | cons first _ ih => rw [entries, entries, entry_of_looksLike first, ih]

/-- Functions that are listed alike one by one are listed alike together. -/
lemma functions_of_looksLike {ps ps' : List Proto}
    (each : ∀ p ∈ ps, ∀ q, p.LooksLike q → ∀ name, function name p = function name q)
    (alike : List.Forall₂ Proto.LooksLike ps ps') (name : String) (i : Nat) :
    functions name i ps = functions name i ps' := by
  induction alike generalizing i with
  | nil => rfl
  | cons first _ ih =>
    rw [List.forall_mem_cons] at each
    rw [functions, functions, each.1 _ first, ih each.2]

/-- What looks alike is listed alike. -/
theorem function_of_looksLike {p q : Proto} (alike : p.LooksLike q) (name : String) :
    function name p = function name q := by
  induction p using Proto.nestedInduction generalizing q name with
  | mk body nested ih =>
    cases alike with
    | mk own inside =>
      have functions := functions_of_looksLike (fun p mem q alike name => ih p mem alike name)
        inside name 0
      rw [function, function, describe, describe, heading_of_looksLike own, inside.length_eq,
        entries_of_looksLike own.constants, functions]

end Listing

end LuaChunk
