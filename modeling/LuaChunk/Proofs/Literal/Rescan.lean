import LuaChunk.Proofs.Literal.Position
import LuaChunk.Proofs.Literal.Shown

/-!
# Cutting a literal again

What is written of each piece is cut in one way only, whatever stands behind it: a run is one piece
again, and everything else that is written is printable.  So the runs of a literal are those of its
string, and no byte of it needs a hexadecimal escape (`Constant.pieces_literal`).
-/

namespace LuaChunk

/-- Whether a piece is a multi-byte run. -/
def Piece.isRaw : Piece → Bool
  | raw _ => true
  | _ => false

/-- A text is cut into these runs and pieces without hexadecimal digits, whatever follows it. -/
def IsClean (text : Bytes) (runs : List Piece) : Prop :=
  ∃ ps, (∀ rest qs, CutsInto rest qs → CutsInto (text ++ rest) (ps ++ qs)) ∧
    (∀ b, .hex b ∉ ps) ∧ ps.filter Piece.isRaw = runs

namespace IsClean

variable {s t : Bytes} {runs runs' : List Piece}

/-- The empty text has no runs. -/
lemma nil : IsClean [] [] :=
  ⟨[], fun _ _ cut => cut, fun _ => List.not_mem_nil, rfl⟩

/-- The runs of two texts one behind the other are those of the first and those of the second. -/
lemma append (front : IsClean s runs) (back : IsClean t runs') :
    IsClean (s ++ t) (runs ++ runs') := by
  obtain ⟨ps, cutFront, noHex, rfl⟩ := front
  obtain ⟨ps', cutBack, noHex', rfl⟩ := back
  refine ⟨ps ++ ps', ?_, ?_, List.filter_append ps ps'⟩
  · intro rest qs cut
    rw [List.append_assoc, List.append_assoc]
    exact cutFront _ _ (cutBack _ _ cut)
  · intro b mem
    rcases List.mem_append.mp mem with inside | inside
    · exact noHex b inside
    · exact noHex' b inside

/-- A run is one run. -/
lemma run (h : IsRun s) : IsClean s [.raw s] := by
  refine ⟨[.raw s], fun rest qs cut => .raw h cut, ?_, rfl⟩
  intro b mem
  cases List.mem_singleton.mp mem

/-- A printable byte has no runs. -/
lemma printable {b : UInt8} (h : isPrintable b = true) : IsClean [b] [] := by
  cases e : Control.ofByte? b with
  | some c =>
    obtain rfl := Control.byte_of_ofByte? e
    refine ⟨[.escape c], fun rest qs cut => .escape c cut, ?_, rfl⟩
    intro b mem
    cases List.mem_singleton.mp mem
  | none =>
    refine ⟨[.literal b], fun rest qs cut => .literal e h cut, ?_, rfl⟩
    intro b mem
    cases List.mem_singleton.mp mem

/-- Printable bytes have no runs. -/
lemma printables (h : s.all isPrintable = true) : IsClean s [] := by
  induction s with
  | nil => exact nil
  | cons b s ih =>
    rw [List.all_cons, Bool.and_eq_true] at h
    exact (printable h.1).append (ih h.2)

/-- What is written of a piece is a run if the piece is one, and else printable. -/
lemma written {p : Piece} (cut : p.IsCut) : IsClean p.written ([p].filter Piece.isRaw) := by
  cases cut with
  | literal _ h => exact printable h
  | escape c =>
    apply printables
    cases c <;> rfl
  | raw long => exact run (isRun_take long)
  | @hex b =>
    have digit : ∀ n < 16, isPrintable (hexDigit n).toUInt8 = true := by decide
    have lt := b.toNat_lt
    apply printables
    show (_ && (_ && (_ && true))) = true
    rw [digit _ (by omega), digit _ (by omega)]
    rfl

/-- What is written of pieces has the runs among them. -/
lemma flatMap_written {ps : List Piece} (cut : ∀ p ∈ ps, p.IsCut) :
    IsClean (ps.flatMap Piece.written) (ps.filter Piece.isRaw) := by
  induction ps with
  | nil => exact nil
  | cons p ps ih =>
    rw [List.forall_mem_cons] at cut
    rw [List.flatMap_cons, ← List.singleton_append, List.filter_append]
    exact (written cut.1).append (ih cut.2)

/-- A literal has the runs of its string. -/
lemma quoted (data : Bytes) : IsClean (quoted data) ((pieces data).filter Piece.isRaw) := by
  have quote : IsClean [quoteByte] [] := printable (by decide)
  have literal := (quote.append (flatMap_written (isCut_of_mem_pieces data))).append quote
  rw [List.append_nil] at literal
  exact literal

/-- A clean text is cut into its runs and into other pieces than hexadecimal escapes. -/
lemma pieces_eq (h : IsClean s runs) :
    (∀ b, .hex b ∉ pieces s) ∧ (pieces s).filter Piece.isRaw = runs := by
  obtain ⟨ps, cut, noHex, e⟩ := h
  have alone := (cut [] [] .nil).eq_pieces
  rw [List.append_nil, List.append_nil] at alone
  rw [← alone]
  exact ⟨noHex, e⟩

end IsClean

/-- What is written of a piece is no shorter than its bytes, and at most three times as long. -/
lemma Piece.length_bounds (p : Piece) :
    p.source.length ≤ p.written.length ∧ p.written.length ≤ 3 * p.source.length := by
  cases p with
  | literal =>
    show 1 ≤ 1 ∧ 1 ≤ 3 * 1
    decide
  | escape =>
    show 1 ≤ 2 ∧ 2 ≤ 3 * 1
    decide
  | raw run =>
    show run.length ≤ run.length ∧ run.length ≤ 3 * run.length
    omega
  | hex =>
    show 1 ≤ 3 ∧ 3 ≤ 3 * 1
    decide

/-- What is written of pieces is no shorter than their bytes, and at most three times as long. -/
lemma length_flatMap_written (ps : List Piece) :
    (ps.flatMap Piece.source).length ≤ (ps.flatMap Piece.written).length ∧
      (ps.flatMap Piece.written).length ≤ 3 * (ps.flatMap Piece.source).length := by
  induction ps with
  | nil => exact ⟨le_rfl, le_rfl⟩
  | cons p ps ih =>
    have own := p.length_bounds
    rw [List.flatMap_cons, List.flatMap_cons, List.length_append, List.length_append]
    omega

/-- A literal has the quotes and between one and three bytes for each byte of its string. -/
lemma length_quoted (data : Bytes) : data.length + 2 ≤ (quoted data).length ∧
    (quoted data).length ≤ 3 * data.length + 2 := by
  have body := length_flatMap_written (pieces data)
  have length : (quoted data).length = ((pieces data).flatMap Piece.written).length + 2 := by
    rw [quoted, List.length_append, List.length_cons]
    rfl
  rw [flatMap_source_pieces] at body
  omega

/-- A byte past ASCII in a clean text belongs to one of its runs. -/
lemma IsClean.exists_covers {text : Bytes} {runs : List Piece} (h : IsClean text runs) {i : Nat}
    (inside : i < text.length) (high : 0x80 ≤ text[i]) :
    ∃ start run, Covers (pieces text) i start (.raw run) ∧ IsRun run ∧ .raw run ∈ runs := by
  obtain ⟨noHex, e⟩ := h.pieces_eq
  obtain ⟨start, p, covers⟩ := exists_covers_pieces inside
  have mem := covers.stands.mem
  cases p with
  | literal b =>
    have low := ((covers_literal_iff inside).mp ⟨start, b, covers⟩).2.2
    exact absurd (UInt8.le_trans high low) (by decide)
  | escape c =>
    rw [← List.singleton_inj.mp (covers.source_eq rfl inside)] at high
    have low : ¬ 0x80 ≤ c.byte := by cases c <;> decide
    exact absurd high low
  | raw run =>
    rw [← e]
    exact ⟨start, run, covers, isRun_of_mem_pieces mem, List.mem_filter.mpr ⟨mem, rfl⟩⟩
  | hex b => exact absurd mem (noHex b)

/-- A string literal has no control character.  Cut again, it has no piece in hexadecimal and the
runs of its string in their order, and each of its bytes past ASCII lies in one of these.  It is
longer than the string by the quotes at least, and without them at most three times as long. -/
theorem Constant.pieces_literal (data : Bytes) :
    ∃ text, (string data).literal = .ok text ∧
      (∀ b ∈ text, 0x20 ≤ b) ∧
      (∀ b, .hex b ∉ pieces text) ∧
      (pieces text).filter Piece.isRaw = (pieces data).filter Piece.isRaw ∧
      (∀ (i : Nat) (inside : i < text.length), 0x80 ≤ text[i] →
        ∃ start run, Covers (pieces text) i start (.raw run) ∧ IsRun run ∧
          .raw run ∈ pieces data) ∧
      data.length + 2 ≤ text.length ∧ text.length ≤ 3 * data.length + 2 := by
  have clean : IsClean (quoted data) ((pieces data).filter Piece.isRaw) := .quoted data
  obtain ⟨noHex, runs⟩ := clean.pieces_eq
  refine ⟨quoted data, rfl, AreShown.quoted data, noHex, runs, ?_, length_quoted data⟩
  intro i inside high
  obtain ⟨start, run, covers, h, mem⟩ := clean.exists_covers inside high
  exact ⟨start, run, covers, h, List.mem_of_mem_filter mem⟩

/-- Behind a run that breaks off, a whole one is found again in the literal. -/
theorem Constant.pieces_literal_brokenRun :
    ∃ text start run, (string [0xE2, 0x82, 0xE2, 0x82, 0xAC]).literal = .ok text ∧
      Covers (pieces text) 8 start (.raw run) ∧ IsRun run ∧
      .raw run ∈ pieces [0xE2, 0x82, 0xE2, 0x82, 0xAC] := by
  obtain ⟨text, literal, -, -, -, high, -⟩ := pieces_literal [0xE2, 0x82, 0xE2, 0x82, 0xAC]
  obtain rfl := Except.ok.inj literal
  obtain ⟨start, run, covers, h, mem⟩ := high 8 (by decide +kernel) (by decide +kernel)
  exact ⟨_, start, run, literal, covers, h, mem⟩

end LuaChunk
