import LuaChunk.Proofs.Literal.Boundary

/-!
# Where pieces stand

The pieces of a string tile it: each byte lies in exactly one of them, and `pieces_tile` says in
which.  A run stands wherever a lead byte has all the bytes that continue it, whatever is in front,
so no code point that a string holds in multi-byte form is taken apart.
-/

namespace LuaChunk

/-- A piece stands at a position if the pieces in front of it cover that many bytes. -/
inductive StandsAt : List Piece → Nat → Piece → Prop
  | zero {p ps} :
    StandsAt (p :: ps) 0 p
  | succ {p q ps i} :
    StandsAt ps i p →
    StandsAt (q :: ps) (q.source.length + i) p

/-- A piece that stands at a position covers the bytes from there on. -/
structure Covers (ps : List Piece) (i start : Nat) (p : Piece) : Prop where
  stands : StandsAt ps start p
  le : start ≤ i
  lt : i < start + p.source.length

/-- Other pieces in front move the position by the bytes that they cover. -/
lemma StandsAt.append {qs : List Piece} {i : Nat} {p : Piece} (h : StandsAt qs i p)
    (ps : List Piece) : StandsAt (ps ++ qs) ((ps.flatMap Piece.source).length + i) p := by
  induction ps with
  | nil =>
    rw [List.flatMap_nil, List.length_nil, Nat.zero_add]
    exact h
  | cons q ps ih =>
    rw [List.flatMap_cons, List.length_append, Nat.add_assoc]
    exact .succ ih

/-- No two pieces cover the same byte. -/
lemma Covers.unique {ps : List Piece} {i start start' : Nat} {p p' : Piece}
    (h : Covers ps i start p) (h' : Covers ps i start' p') : start = start' ∧ p = p' := by
  obtain ⟨stands, le, lt⟩ := h
  obtain ⟨stands', le', lt'⟩ := h'
  induction stands generalizing i start' with
  | zero =>
    cases stands' with
    | zero => exact ⟨rfl, rfl⟩
    | succ => omega
  | @succ p q ps start inside ih =>
    cases stands' with
    | zero => omega
    | @succ _ _ _ start' inside' =>
      obtain ⟨rfl, same⟩ := ih (i := i - q.source.length) (by omega) (by omega) inside' (by omega)
        (by omega)
      exact ⟨rfl, same⟩

/-- Each byte of what pieces cover is covered by one of them. -/
lemma exists_covers {ps : List Piece} {i : Nat} (h : i < (ps.flatMap Piece.source).length) :
    ∃ start p, Covers ps i start p := by
  induction ps generalizing i with
  | nil => exact absurd h (Nat.not_lt_zero i)
  | cons q ps ih =>
    rw [List.flatMap_cons, List.length_append] at h
    rcases Nat.lt_or_ge i q.source.length with first | behind
    · exact ⟨0, q, .zero, Nat.zero_le i, by omega⟩
    · obtain ⟨start, p, stands, le, lt⟩ := ih (i := i - q.source.length) (by omega)
      exact ⟨_, p, .succ stands, by omega, by omega⟩

/-- What stands somewhere among pieces is one of them. -/
lemma StandsAt.mem {ps : List Piece} {i : Nat} {p : Piece} (h : StandsAt ps i p) : p ∈ ps := by
  induction h with
  | zero => exact List.mem_cons_self
  | succ _ ih => exact List.mem_cons_of_mem _ ih

/-- The bytes of a piece are those from its position on. -/
lemma StandsAt.source_prefix_flatMap {ps : List Piece} {i : Nat} {p : Piece}
    (h : StandsAt ps i p) : p.source <+: (ps.flatMap Piece.source).drop i := by
  induction h with
  | zero => exact List.prefix_append _ _
  | succ _ ih =>
    rw [List.flatMap_cons, List.drop_append, List.drop_of_length_le (Nat.le_add_right _ _),
      List.nil_append, Nat.add_sub_cancel_left]
    exact ih

/-- A piece covers the bytes of the string at its place. -/
lemma StandsAt.source_prefix {data : Bytes} {i : Nat} {p : Piece}
    (h : StandsAt (pieces data) i p) : p.source <+: data.drop i := by
  have front := h.source_prefix_flatMap
  rw [flatMap_source_pieces] at front
  exact front

/-- Where a string may be cut, its first piece from there on stands in the whole string. -/
lemma standsAt_of_cutsInto {data : Bytes} {i : Nat} {p : Piece} {after : List Piece}
    (inside : i ≤ data.length) (boundary : IsBoundary (data.drop i))
    (cut : CutsInto (data.drop i) (p :: after)) : StandsAt (pieces data) i p := by
  have first : StandsAt (p :: after) 0 p := .zero
  have stands := first.append (pieces (data.take i))
  rw [flatMap_source_pieces, List.length_take_of_le inside, cut.eq_pieces,
    ← pieces_append boundary, List.take_append_drop] at stands
  exact stands

/-- The raw pieces of a string are runs. -/
lemma isRun_of_mem_pieces {data run : Bytes} (mem : .raw run ∈ pieces data) : IsRun run := by
  cases isCut_of_mem_pieces data _ mem with
  | raw long => exact isRun_take long

/-- A raw piece stands at a position exactly if a run is found there, and is this run. -/
lemma standsAt_raw_iff {data : Bytes} {i : Nat} {run : Bytes} :
    StandsAt (pieces data) i (.raw run) ↔
      ∃ n, runLengthAt? data i = some n ∧ 1 < n ∧ run = (data.drop i).take n := by
  constructor
  · intro stands
    obtain ⟨rest, e⟩ := stands.source_prefix
    have h := isRun_of_mem_pieces stands.mem
    have long := h.one_lt_length
    have inside : i < data.length := by
      have lengths := congrArg List.length e
      rw [List.length_drop, List.length_append, Piece.source] at lengths
      omega
    refine ⟨run.length, ?_, long, ?_⟩
    · rw [runLengthAt?, if_pos inside, ← e, Piece.source, h.runLength_append]
    · rw [← e, Piece.source, List.take_left]
  · rintro ⟨n, found, long, rfl⟩
    unfold runLengthAt? at found
    split at found
    case isTrue inside =>
      cases found
      obtain ⟨run, rest, h, e⟩ := one_lt_runLength_iff.mp long
      rw [e, h.runLength_append, List.take_left]
      apply standsAt_of_cutsInto inside.le
      · rw [e]
        exact h.isBoundary rest
      · rw [e]
        exact .raw h (cutsInto_pieces rest)
    case isFalse => cases found

/-- A byte has no escape exactly if it is the byte of no control character. -/
lemma Control.ofByte?_eq_none_iff {b : UInt8} :
    Control.ofByte? b = none ↔ ∀ c : Control, c.byte ≠ b := by
  constructor
  · rintro none c rfl
    rw [Control.ofByte?_byte] at none
    cases none
  · intro other
    cases e : Control.ofByte? b with
    | none => rfl
    | some c => exact absurd (Control.byte_of_ofByte? e) (other c)

/-- Printable bytes go from the blank to 7F. -/
lemma isPrintable_iff {b : UInt8} : isPrintable b = true ↔ 0x20 ≤ b ∧ b ≤ 0x7F := by
  rw [isPrintable, Bool.and_eq_true, decide_eq_true_eq, decide_eq_true_eq]

/-- A string that begins with an ASCII byte begins at a boundary. -/
lemma isBoundary_of_low {b : UInt8} {rest : Bytes} (low : ¬ 0x80 ≤ b) : IsBoundary (b :: rest) := by
  apply isBoundary_cons.mpr
  apply Bool.eq_false_of_not_eq_true
  intro continuation
  exact low (le_of_isContinuation continuation)

section

variable {data : Bytes} {i : Nat}

/-- Every byte of a string lies in one of its pieces. -/
lemma exists_covers_pieces (inside : i < data.length) :
    ∃ start p, Covers (pieces data) i start p := by
  apply exists_covers
  rw [flatMap_source_pieces]
  exact inside

/-- A piece of a single byte has the byte that it covers. -/
lemma Covers.source_eq {start : Nat} {p : Piece} (h : Covers (pieces data) i start p)
    (single : p.source.length = 1) (inside : i < data.length) : p.source = [data[i]] := by
  obtain ⟨stands, le, lt⟩ := h
  obtain rfl : start = i := by omega
  have front := stands.source_prefix
  rw [List.drop_eq_getElem_cons inside, List.prefix_iff_eq_take, single] at front
  exact front

/-- A byte of ASCII begins a piece wherever it stands. -/
lemma covers_of_cutsInto {p : Piece} {after : List Piece} (inside : i < data.length)
    (low : ¬ 0x80 ≤ data[i]) (cut : CutsInto (data[i] :: data.drop (i + 1)) (p :: after))
    (nonempty : 0 < p.source.length) : Covers (pieces data) i i p := by
  refine ⟨?_, le_rfl, by omega⟩
  have e := List.drop_eq_getElem_cons inside
  apply standsAt_of_cutsInto inside.le
  · rw [e]
    exact isBoundary_of_low low
  · rw [e]
    exact cut

/-- The pieces that are escapes cover the bytes of control characters. -/
lemma covers_escape_iff (inside : i < data.length) :
    (∃ start c, Covers (pieces data) i start (.escape c)) ↔ ∃ c : Control, c.byte = data[i] := by
  constructor
  · rintro ⟨start, c, h⟩
    exact ⟨c, List.singleton_inj.mp (h.source_eq rfl inside)⟩
  · rintro ⟨c, e⟩
    have low : ¬ 0x80 ≤ data[i] := by
      rw [← e]
      cases c <;> decide
    have cut := CutsInto.escape c (cutsInto_pieces (data.drop (i + 1)))
    rw [e] at cut
    exact ⟨i, c, covers_of_cutsInto inside low cut Nat.one_pos⟩

/-- The literal pieces cover the printable bytes that are no control characters. -/
lemma covers_literal_iff (inside : i < data.length) :
    (∃ start b, Covers (pieces data) i start (.literal b)) ↔
      (∀ c : Control, c.byte ≠ data[i]) ∧ 0x20 ≤ data[i] ∧ data[i] ≤ 0x7F := by
  rw [← Control.ofByte?_eq_none_iff, ← isPrintable_iff]
  constructor
  · rintro ⟨start, b, h⟩
    rw [← List.singleton_inj.mp (h.source_eq rfl inside)]
    cases isCut_of_mem_pieces data _ h.stands.mem with
    | literal other printable => exact ⟨other, printable⟩
  · rintro ⟨other, printable⟩
    have low : ¬ 0x80 ≤ data[i] := by
      intro high
      rw [isPrintable_of_high high] at printable
      cases printable
    have cut := CutsInto.literal other printable (cutsInto_pieces (data.drop (i + 1)))
    exact ⟨i, _, covers_of_cutsInto inside low cut Nat.one_pos⟩

/-- The pieces in hexadecimal digits cover what is left. -/
lemma covers_hex_iff (inside : i < data.length) :
    (∃ start b, Covers (pieces data) i start (.hex b)) ↔
      (∀ c : Control, c.byte ≠ data[i]) ∧ ¬ (0x20 ≤ data[i] ∧ data[i] ≤ 0x7F) ∧
        ¬ ∃ start run, Covers (pieces data) i start (.raw run) := by
  constructor
  · rintro ⟨start, b, h⟩
    have other : ¬ ∃ start run, Covers (pieces data) i start (.raw run) := by
      rintro ⟨start', run, h'⟩
      cases (h.unique h').2
    rw [← Control.ofByte?_eq_none_iff, ← isPrintable_iff,
      ← List.singleton_inj.mp (h.source_eq rfl inside)]
    cases isCut_of_mem_pieces data _ h.stands.mem with
    | hex none high => exact ⟨none, Bool.eq_false_iff.mp high, other⟩
  · rintro ⟨none, high, other⟩
    obtain ⟨start, p, h⟩ := exists_covers_pieces inside
    cases p with
    | literal b => exact absurd ((covers_literal_iff inside).mp ⟨start, b, h⟩).2 high
    | escape c =>
      obtain ⟨c, e⟩ := (covers_escape_iff inside).mp ⟨start, c, h⟩
      exact absurd e (none c)
    | raw run => exact absurd ⟨start, run, h⟩ other
    | hex b => exact ⟨start, b, h⟩

end

/-- Groups of six bits of a number, the lowest in the last byte, each in a byte that continues a
run. -/
def continuationBytes : Nat → Nat → Bytes
  | 0, _ => []
  | n + 1, c => continuationBytes n (c / 64) ++ [UInt8.ofNat (0x80 + c % 64)]

/-- A code point of up to thirty-one bits in the shortest multi-byte form: the lead byte tells how
many bytes follow and holds the highest bits. -/
def codePointBytes (c : Nat) : Bytes :=
  if c < 0x80 then [UInt8.ofNat c]
  else if c < 0x800 then UInt8.ofNat (0xC0 + c / 64) :: continuationBytes 1 c
  else if c < 0x10000 then UInt8.ofNat (0xE0 + c / 64 ^ 2) :: continuationBytes 2 c
  else if c < 0x200000 then UInt8.ofNat (0xF0 + c / 64 ^ 3) :: continuationBytes 3 c
  else if c < 0x4000000 then UInt8.ofNat (0xF8 + c / 64 ^ 4) :: continuationBytes 4 c
  else UInt8.ofNat (0xFC + c / 64 ^ 5) :: continuationBytes 5 c

/-- A code point has as many continuation bytes as are asked for. -/
lemma length_continuationBytes (n c : Nat) : (continuationBytes n c).length = n := by
  induction n generalizing c with
  | zero => rfl
  | succ n ih => rw [continuationBytes, List.length_append, ih, List.length_singleton]

/-- The continuation bytes of a code point continue a run. -/
lemma isContinuation_of_mem (n c : Nat) :
    ∀ b ∈ continuationBytes n c, isContinuation b = true := by
  induction n generalizing c with
  | zero => exact fun _ mem => absurd mem List.not_mem_nil
  | succ n ih =>
    intro b mem
    rcases List.mem_append.mp mem with front | last
    · exact ih (c / 64) b front
    · obtain rfl := List.mem_singleton.mp last
      have group : ∀ k < 64, isContinuation (UInt8.ofNat (0x80 + k)) = true := by decide
      exact group (c % 64) (Nat.mod_lt c (by decide))

/-- A lead byte with the continuation bytes that it asks for is a run. -/
lemma isRun_continuationBytes {lead : UInt8} {n : Nat} (c : Nat) (asks : leadLength lead = n + 1)
    (pos : 0 < n) : IsRun (lead :: continuationBytes n c) := by
  apply IsRun.mk
  · omega
  · rw [length_continuationBytes, asks]
  · exact isContinuation_of_mem n c

/-- The multi-byte form of a code point is a run. -/
lemma isRun_codePointBytes {c : Nat} (low : 0x80 ≤ c) (high : c ≤ 0x7FFFFFFF) :
    IsRun (codePointBytes c) := by
  have two : ∀ k < 32, leadLength (UInt8.ofNat (0xC0 + k)) = 2 := by decide
  have three : ∀ k < 16, leadLength (UInt8.ofNat (0xE0 + k)) = 3 := by decide
  have four : ∀ k < 8, leadLength (UInt8.ofNat (0xF0 + k)) = 4 := by decide
  have five : ∀ k < 4, leadLength (UInt8.ofNat (0xF8 + k)) = 5 := by decide
  have six : ∀ k < 2, leadLength (UInt8.ofNat (0xFC + k)) = 6 := by decide
  unfold codePointBytes
  split
  · omega
  split
  · exact isRun_continuationBytes c (two _ (by omega)) (by decide)
  split
  · exact isRun_continuationBytes c (three _ (by omega)) (by decide)
  split
  · exact isRun_continuationBytes c (four _ (by omega)) (by decide)
  split
  · exact isRun_continuationBytes c (five _ (by omega)) (by decide)
  · exact isRun_continuationBytes c (six _ (by omega)) (by decide)

example : codePointBytes 0x20AC = [0xE2, 0x82, 0xAC] ∧
    codePointBytes 0x7FFFFFFF = [0xFD, 0xBF, 0xBF, 0xBF, 0xBF, 0xBF] := by decide

/-- A string is its pieces one after another, and each of its bytes lies in exactly one of them: in
an escape if it has a letter of its own, as itself if it is another one of printable ASCII, in
hexadecimal if it is neither and in no run.  A run stands exactly where one is found, and so each
code point in multi-byte form is a piece, whatever stands around it. -/
theorem pieces_tile :
    (∀ data : Bytes,
      (pieces data).flatMap Piece.source = data ∧
      (∀ i p, StandsAt (pieces data) i p → p.source <+: data.drop i) ∧
      (∀ i < data.length, ∃! place : Nat × Piece, Covers (pieces data) i place.1 place.2) ∧
      (∀ i run, StandsAt (pieces data) i (.raw run) ↔
        ∃ n, runLengthAt? data i = some n ∧ 1 < n ∧ run = (data.drop i).take n) ∧
      ∀ (i : Nat) (inside : i < data.length),
        ((∃ start c, Covers (pieces data) i start (.escape c)) ↔
          ∃ c : Control, c.byte = data[i]) ∧
        ((∃ start b, Covers (pieces data) i start (.literal b)) ↔
          (∀ c : Control, c.byte ≠ data[i]) ∧ 0x20 ≤ data[i] ∧ data[i] ≤ 0x7F) ∧
        ((∃ start b, Covers (pieces data) i start (.hex b)) ↔
          (∀ c : Control, c.byte ≠ data[i]) ∧ ¬ (0x20 ≤ data[i] ∧ data[i] ≤ 0x7F) ∧
            ¬ ∃ start run, Covers (pieces data) i start (.raw run))) ∧
    ∀ c, 0x80 ≤ c → c ≤ 0x7FFFFFFF → ∀ a b : Bytes,
      StandsAt (pieces (a ++ codePointBytes c ++ b)) a.length (.raw (codePointBytes c)) := by
  refine ⟨fun data => ⟨flatMap_source_pieces data, fun i p => StandsAt.source_prefix, ?_,
    fun i run => standsAt_raw_iff, fun i inside => ⟨covers_escape_iff inside,
      covers_literal_iff inside, covers_hex_iff inside⟩⟩, ?_⟩
  · intro i inside
    obtain ⟨start, p, h⟩ := exists_covers_pieces inside
    refine ⟨(start, p), h, ?_⟩
    rintro ⟨start', p'⟩ h'
    obtain ⟨rfl, rfl⟩ := h.unique h'
    rfl
  · intro c low high a b
    have h := isRun_codePointBytes low high
    have e : (a ++ codePointBytes c ++ b).drop a.length = codePointBytes c ++ b := by
      rw [List.append_assoc, List.drop_left]
    have cut := CutsInto.raw h (cutsInto_pieces b)
    rw [← e] at cut
    refine standsAt_of_cutsInto ?_ ?_ cut
    · rw [List.append_assoc, List.length_append]
      omega
    · rw [e]
      exact h.isBoundary b

/-- The euro sign stays whole behind its own first two bytes, and in front of a byte that could
continue it. -/
theorem pieces_tile_euro :
    StandsAt (pieces [0xE2, 0x82, 0xE2, 0x82, 0xAC, 0xAC]) 2 (.raw [0xE2, 0x82, 0xAC]) ∧
      ∃! place : Nat × Piece,
        Covers (pieces [0xE2, 0x82, 0xE2, 0x82, 0xAC, 0xAC]) 5 place.1 place.2 := by
  obtain ⟨tile, whole⟩ := pieces_tile
  obtain ⟨-, -, covered, -⟩ := tile [0xE2, 0x82, 0xE2, 0x82, 0xAC, 0xAC]
  exact ⟨whole 0x20AC (by decide) (by decide) [0xE2, 0x82] [0xAC], covered 5 (by decide)⟩

end LuaChunk
