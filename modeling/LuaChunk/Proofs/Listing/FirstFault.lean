import LuaChunk.Proofs.Listing.Layout

/-!
# Where a listing stops

A listing stops at the first row that cannot be written.  `Row.Stops` lists how a row can stop it,
and `Proto.listing_firstFault` says what is left behind: the rows in front of this one and, if it
was begun, the indentation of this one and a part of its text.  The output stays indented as for the
row, since nothing sets it back.
-/

namespace LuaChunk

namespace Listing

section

variable {width level : Int} {root : String} {s s' : Sink} {fault : ListingFault}

/-- Lines are written up to the first one that cannot be written. -/
lemma exists_of_writeLines_eq_error {ls : List Line} (failed : writeLines ls s = .error fault s') :
    ∃ before l after, ls = before ++ l :: after ∧ (∀ l ∈ before, l.IsWritable) ∧
      l.write (s.append (written before)) = .error fault s' := by
  induction ls generalizing s with
  | nil => cases failed
  | cons l ls ih =>
    rw [writeLines, List.forM_cons] at failed
    simp only [Bind.bind, EStateM.bind] at failed
    cases outcome : l.write s with
    | ok u s₁ =>
      rw [outcome] at failed
      obtain ⟨writable, rfl⟩ := write_eq_ok_iff.mp outcome
      obtain ⟨before, l', after, rfl, others, stops⟩ := ih failed
      rw [Sink.append_append, ← written_cons] at stops
      exact ⟨l :: before, l', after, rfl, List.forall_mem_cons.mpr ⟨writable, others⟩, stops⟩
    | error fault₁ s₁ =>
      rw [outcome] at failed
      cases failed
      exact ⟨[], l, ls, rfl, fun _ mem => absurd mem List.not_mem_nil, outcome⟩

/-- Lines are written, or one of them cannot be written. -/
lemma exists_writeLines_eq_error_iff {ls : List Line} :
    (∃ fault s', writeLines ls s = .error fault s') ↔ ∃ l ∈ ls, ¬ l.IsWritable := by
  rw [← not_iff_not]
  push Not
  constructor
  · intro never
    cases outcome : writeLines ls s with
    | ok u s' => exact (writeLines_eq_ok_iff.mp outcome).1
    | error fault s' => exact absurd outcome (never fault s')
  · intro writable fault s' failed
    rw [writeLines_eq_ok_iff.mpr ⟨writable, rfl⟩] at failed
    cases failed

/-- A line that was at its start is left as it is, or behind its indentation and a text. -/
lemma Stop.leave_eq (stop : Stop) (start : s.atLineStart = true) :
    stop.leave s =
      { s.append (stop.left.elim [] (List.replicate s.level.toNat 0x20 ++ ·)) with
        atLineStart := stop.left.isNone } := by
  obtain ⟨written, level, width, atLineStart⟩ := s
  cases start
  obtain ⟨fault, none | text⟩ := stop
  · rfl
  · rw [Stop.leave, Option.elim, ← Sink.append_append]
    rfl

end

namespace Row

variable {width level : Int} {root : String} {row : Row} {s : Sink}

/-- How a row that cannot be written stops a listing: why, under which name this is reported, and
what is left of the row behind its indentation, if it is begun at all. -/
inductive Stops (root : String) : Row → ListingFault → String → Option Bytes → Prop
  /-- The number of a line has too many digits to describe the function. -/
  | overlongLine {place : Place} {n : Int} :
    n ∈ [place.function.body.firstLine, place.function.body.lastLine] → ¬ IsShort n →
      Stops root (function place) (.output (.overlong ⟨n⟩)) "ValueError" none
  /-- The function is described by a text that is not Latin-1. -/
  | untitled {place : Place} :
    HasShortLines place.function.body → ¬ Latin1.IsText (place.title root) →
      Stops root (function place) (.output (.unencodable (place.title root))) "UnicodeEncodeError"
        (some [])
  /-- The entry is a value that is not a constant. -/
  | foreign {place : Place} {index : Nat} {v : Value} :
    v.IsShort →
      Stops root (constant place index (.foreign v)) (.constant (.illegal v)) "InvalidConstantKind"
        none
  /-- The entry is an integer that is not a constant and has too many digits to be shown. -/
  | overlongForeign {place : Place} {index : Nat} {n : Int} :
    ¬ IsShort n →
      Stops root (constant place index (.foreign (.integer n))) (.constant (.illegal (.integer n)))
        "ValueError" none
  /-- The constant has too many digits for a literal. -/
  | overlongConstant {place : Place} {index : Nat} {n : Int} :
    ¬ IsShort n →
      Stops root (constant place index (.number (.whole n))) (.output (.overlong ⟨n⟩)) "ValueError"
        (some (numberColumn index))

/-- The row of an entry cannot be written if the entry is no constant or has too many digits. -/
lemma not_isWritable_constant_iff {place : Place} {index : Nat} {e : PoolEntry} :
    ¬ (constant place index e).IsWritable root ↔
      (∃ v, e = .foreign v) ∨ ∃ n, e = .number (.whole n) ∧ ¬ IsShort n := by
  rw [IsWritable]
  constructor
  · intro refused
    cases e with
    | foreign v => exact .inl ⟨v, rfl⟩
    | number v =>
      obtain ⟨n, e, long⟩ := Constant.exists_of_not_isShort fun short => refused ⟨_, rfl, short⟩
      cases e
      exact .inr ⟨n, rfl, long⟩
    | _ => exact absurd ⟨_, rfl, trivial⟩ refused
  · rintro (⟨v, rfl⟩ | ⟨n, rfl, long⟩) ⟨c, constant, short⟩
    · cases constant
    · obtain rfl := Except.ok.inj constant
      exact long short

/-- A value that is not a constant stops the listing before its row is begun. -/
lemma stops_foreign (place : Place) (index : Nat) (v : Value) :
    (constant place index (.foreign v)).Stops root (.constant (.illegal v))
      (ListingFault.constant (.illegal v)).name none := by
  by_cases short : v.IsShort
  · obtain ⟨shown, display⟩ := Value.exists_display_iff.mpr short
    have name : (ListingFault.constant (.illegal v)).name = "InvalidConstantKind" := by
      rw [ListingFault.name, ConstantFault.name, ConstantFault.message, display]
      rfl
    rw [name]
    exact .foreign short
  · cases v with
    | integer n =>
      have refused : Value.display (.integer n) = .error ⟨n⟩ := wholeText_of_not_isShort short
      have name : (ListingFault.constant (.illegal (.integer n))).name = "ValueError" := by
        rw [ListingFault.name, ConstantFault.name, ConstantFault.message, refused]
        rfl
      rw [name]
      exact .overlongForeign short
    | _ => exact absurd trivial short

/-- The line of a row that cannot be written stops as the row does. -/
lemma exists_stops (refused : ¬ row.IsWritable root) :
    ∃ fault left, row.Stops root fault fault.name left ∧
      (row.line level width root).content = .error ⟨fault, left⟩ := by
  cases row with
  | function place =>
    rw [line]
    by_cases short : HasShortLines place.function.body
    · have untitled : ¬ Latin1.IsText (place.title root) :=
        fun isText => refused ⟨short, isText⟩
      refine ⟨_, _, .untitled short untitled, ?_⟩
      rw [title_eq] at untitled ⊢
      exact content_headingLine_of_not_isText short untitled
    · obtain ⟨n, mem, long, overlong⟩ := heading_of_overlong short (place.name root) _
      exact ⟨_, _, .overlongLine mem long, content_headingLine_of_overlong overlong⟩
  | constant place index e =>
    rw [line]
    obtain ⟨v, rfl⟩ | ⟨n, rfl, long⟩ := not_isWritable_constant_iff.mp refused
    · exact ⟨_, _, stops_foreign place index v, rfl⟩
    · refine ⟨_, _, .overlongConstant long, ?_⟩
      rw [numberColumn_eq, entryLine_of_overlong rfl (Constant.literal_of_not_isShort long)]

/-- The line of a row is indented as the row. -/
lemma level_line : (row.line level width root).level = row.indentation level width := by
  cases row with
  | function => rfl
  | constant => rfl

/-- A row stops a listing as its table says, and leaves the output indented as for the row. -/
lemma write_line {fault : ListingFault} {s' : Sink} (start : s.atLineStart = true)
    (failed : (row.line level width root).write s = .error fault s') :
    ∃ left, row.Stops root fault fault.name left ∧
      s' = { s.append (left.elim []
          (List.replicate (row.indentation level width).toNat 0x20 ++ ·)) with
        level := row.indentation level width, atLineStart := left.isNone } := by
  by_cases writable : row.IsWritable root
  · cases (write_eq_ok_iff.mpr ⟨isWritable_line.mpr writable, rfl⟩).symm.trans failed
  · obtain ⟨fault', left, stops, content⟩ := @exists_stops width level root row writable
    unfold Line.write at failed
    rw [content, level_line] at failed
    obtain ⟨rfl, rfl⟩ := EStateM.Result.error.inj failed
    exact ⟨left, stops, Stop.leave_eq ⟨fault', left⟩ start⟩

end Row

end Listing

namespace Proto

open Listing

/-- A listing that begins at the start of a line is that of its rows. -/
lemma onSinkOnly_listing (p : Proto) (root : String) {s : Sink} (start : s.atLineStart = true) :
    onSinkOnly (p.listing root s) =
      writeLines ((rows p).map (Row.line s.level s.width root)) s := by
  rw [← lines_eq_map_rows]
  exact writes_function s.width p root s.level ⟨s, []⟩ start rfl rfl

/-- Some row cannot be written exactly if some function has too many digits in its lines, a title
that is not Latin-1 text, or among its constants a value that is not one or one with too many
digits. -/
lemma exists_not_isWritable_iff {p : Proto} {root : String} :
    (∃ row ∈ rows p, ¬ row.IsWritable root) ↔
      ∃ place ∈ places [] p, ¬ HasShortLines place.function.body ∨
        (∃ c ∈ (place.title root).toList, 0xFF < c.toNat) ∨
        (∃ v, .foreign v ∈ place.function.body.constants) ∨
        ∃ n, .number (.whole n) ∈ place.function.body.constants ∧ ¬ IsShort n := by
  have isText {text : String} : ¬ Latin1.IsText text ↔ ∃ c ∈ text.toList, 0xFF < c.toNat := by
    rw [Latin1.IsText, Latin1.AreCharacters]
    push Not
    rfl
  constructor
  · rintro ⟨row, mem, refused⟩
    obtain ⟨place, inside, own⟩ := List.mem_flatMap.mp mem
    refine ⟨place, inside, ?_⟩
    obtain rfl | elsewhere := List.mem_cons.mp own
    · by_cases short : HasShortLines place.function.body
      · exact .inr (.inl (isText.mp fun plain => refused ⟨short, plain⟩))
      · exact .inl short
    · obtain ⟨index, bound, rfl⟩ := List.mem_mapIdx.mp elsewhere
      have entry := List.getElem_mem bound
      obtain ⟨v, e⟩ | ⟨n, e, long⟩ := Row.not_isWritable_constant_iff.mp refused
      · exact .inr (.inr (.inl ⟨v, e ▸ entry⟩))
      · exact .inr (.inr (.inr ⟨n, e ▸ entry, long⟩))
  · rintro ⟨place, inside, flaw⟩
    have heading : Row.function place ∈ rows p :=
      List.mem_flatMap.mpr ⟨place, inside, List.mem_cons_self⟩
    have pool {e : PoolEntry} (mem : e ∈ place.function.body.constants) :
        ∃ index, Row.constant place index e ∈ rows p := by
      obtain ⟨index, bound, rfl⟩ := List.getElem_of_mem mem
      have own : Row.constant place index _ ∈
          place.function.body.constants.mapIdx (.constant place) :=
        List.mem_mapIdx.mpr ⟨index, bound, rfl⟩
      exact ⟨index, List.mem_flatMap.mpr ⟨place, inside, List.mem_cons_of_mem _ own⟩⟩
    obtain long | untitled | ⟨v, mem⟩ | ⟨n, mem, long⟩ := flaw
    · exact ⟨_, heading, fun writable => long writable.1⟩
    · exact ⟨_, heading, fun writable => isText.mpr untitled writable.2⟩
    · obtain ⟨index, own⟩ := pool mem
      exact ⟨_, own, Row.not_isWritable_constant_iff.mpr (.inl ⟨v, rfl⟩)⟩
    · obtain ⟨index, own⟩ := pool mem
      exact ⟨_, own, Row.not_isWritable_constant_iff.mpr (.inr ⟨n, rfl, long⟩)⟩

/-- A listing fails exactly if it has a row that cannot be written. -/
lemma exists_listing_eq_error_iff {p : Proto} {root : String} {s : Sink}
    (start : s.atLineStart = true) :
    (∃ fault t, p.listing root s = .error fault t) ↔ ∃ row ∈ rows p, ¬ row.IsWritable root := by
  have written := onSinkOnly_listing p root start
  have lines : (∃ l ∈ (rows p).map (Row.line s.level s.width root), ¬ l.IsWritable) ↔
      ∃ row ∈ rows p, ¬ row.IsWritable root := by
    simp only [List.mem_map, exists_exists_and_eq_and, Row.isWritable_line]
  rw [← lines, ← exists_writeLines_eq_error_iff (s := s), ← written]
  cases p.listing root s with
  | ok u t =>
    constructor
    · rintro ⟨_, _, impossible⟩
      cases impossible
    · rintro ⟨_, _, impossible⟩
      cases impossible
  | error fault t => exact iff_of_true ⟨fault, t, rfl⟩ ⟨fault, t.sink, rfl⟩

/-- A listing fails exactly if some function has a line with too many digits or a description with a
character above U+00FF, or some entry of a pool is no constant or a whole number with too many
digits.  It stops at the first such row as `Row.Stops` says: what was written are the rows in front
of it and, if it was begun, its indentation and what is left of its text. -/
theorem listing_firstFault {p : Proto} {root : String} {s : Sink} (start : s.atLineStart = true) :
    ((∃ fault t, p.listing root s = .error fault t) ↔
      ∃ place ∈ places [] p, ¬ HasShortLines place.function.body ∨
        (∃ c ∈ (place.title root).toList, 0xFF < c.toNat) ∨
        (∃ v, .foreign v ∈ place.function.body.constants) ∨
        ∃ n, .number (.whole n) ∈ place.function.body.constants ∧ ¬ IsShort n) ∧
    ∀ fault t, p.listing root s = .error fault t →
      ∃ before row after left, rows p = before ++ row :: after ∧
        (∀ row ∈ before, row.IsWritable root) ∧ row.Stops root fault fault.name left ∧
        t.sink =
          { s.append (before.flatMap (Row.bytes s.level s.width root) ++ left.elim []
              (List.replicate (row.indentation s.level s.width).toNat 0x20 ++ ·)) with
            level := row.indentation s.level s.width, atLineStart := left.isNone } := by
  refine ⟨(exists_listing_eq_error_iff start).trans exists_not_isWritable_iff, ?_⟩
  intro fault t failed
  have written := onSinkOnly_listing p root start
  rw [failed] at written
  obtain ⟨linesBefore, l, linesAfter, split, writable, stops⟩ :=
    exists_of_writeLines_eq_error written.symm
  obtain ⟨before, others, shown, rfl, e⟩ := List.map_eq_append_iff.mp split
  obtain ⟨row, after, rfl, rfl, rfl⟩ := List.map_eq_cons_iff.mp e
  rw [List.forall_mem_map] at writable
  have inFront : ∀ row ∈ before, row.IsWritable root :=
    fun row mem => Row.isWritable_line.mp (writable row mem)
  rw [written_map_line inFront] at stops
  have begun : (s.append (before.flatMap (Row.bytes s.level s.width root))).atLineStart = true :=
    start
  obtain ⟨left, stopped, sink⟩ := Row.write_line begun stops
  rw [Sink.append_append] at sink
  exact ⟨before, row, after, left, shown, inFront, stopped, sink⟩

/-- A listing can fail although all its text is Latin-1 and all entries are constants. -/
theorem not_forall_listing_fault :
    ¬ ∀ (p : Proto) (root : String) (s : Sink), s.atLineStart = true →
      (∃ fault t, p.listing root s = .error fault t) →
      ∃ place ∈ places [] p, (∃ c ∈ (place.title root).toList, 0xFF < c.toNat) ∨
        ∃ v, .foreign v ∈ place.function.body.constants := by
  intro only
  obtain ⟨n, long⟩ : ∃ n : Int, ¬ IsShort n := ⟨_, not_isShort_ten_pow⟩
  let p : Proto := ⟨{ (default : FunctionBody) with constants := [.nil, .number (.whole n)] }, []⟩
  have start : (Sink.empty Sink.defaultWidth).atLineStart = true := rfl
  have refused : ∃ row ∈ rows p, ¬ row.IsWritable mainName :=
    exists_not_isWritable_iff.mpr
      ⟨_, .head _, .inr (.inr (.inr ⟨n, .tail _ (.head _), long⟩))⟩
  obtain ⟨place, inside, flaw⟩ :=
    only p mainName _ start ((exists_listing_eq_error_iff start).mpr refused)
  -- The only function has no character above U+007F in its description, whatever the number is.
  obtain rfl := List.mem_singleton.mp inside
  obtain ⟨c, mem, high⟩ | ⟨v, mem⟩ := flaw
  · have named : Latin1.IsText mainName := by decide
    have unnamed : Latin1.IsText (default : FunctionBody).source := by decide
    have isText : Latin1.IsText ((⟨[], p⟩ : Place).title mainName) := by
      rw [title_eq]
      refine isText_fullHeading ?_ ?_ _
      · exact named
      · exact unnamed
    exact absurd (isText c mem) (Nat.not_lt.mpr high)
  · simp at mem

/-- A function the second entry of which is not a constant. -/
def refusedSample : Proto where
  body := { (default : FunctionBody) with constants := [.boolean 1, .foreign .absent] }
  nested := []

/-- The listing of a function that the sample is nested in stops at this entry and leaves the
indentation of its row. -/
theorem listing_firstFault_refusedSample :
    ∃ fault t, (Proto.mk default [refusedSample]).listing "f" ⟨#[], 1, 3, true⟩ = .error fault t ∧
      fault.name = "InvalidConstantKind" ∧ t.sink.level = 7 ∧ t.sink.atLineStart = true := by
  obtain ⟨fails, stops⟩ :=
    @listing_firstFault ⟨default, [refusedSample]⟩ "f" ⟨#[], 1, 3, true⟩ rfl
  have all : rows ⟨default, [refusedSample]⟩ =
      [.function ⟨[], ⟨default, [refusedSample]⟩⟩, .function ⟨[0], refusedSample⟩,
        .constant ⟨[0], refusedSample⟩ 0 (.boolean 1),
        .constant ⟨[0], refusedSample⟩ 1 (.foreign .absent)] := rfl
  have inside : (⟨[0], refusedSample⟩ : Place) ∈ places [] ⟨default, [refusedSample]⟩ :=
    .tail _ (.head _)
  obtain ⟨fault, t, failed⟩ :=
    fails.mpr ⟨_, inside, .inr (.inr (.inl ⟨.absent, .tail _ (.head _)⟩))⟩
  obtain ⟨before, row, after, left, split, -, stopped, sink⟩ := stops fault t failed
  have mem : row ∈ rows ⟨default, [refusedSample]⟩ := by
    rw [split]
    exact List.mem_append_right _ List.mem_cons_self
  rw [all] at mem
  simp only [List.mem_cons, List.not_mem_nil, or_false] at mem
  refine ⟨fault, t, failed, ?_⟩
  rw [sink]
  generalize fault.name = name at stopped ⊢
  have short (n : Int) (mem : n ∈ [(0 : Int), 0]) : IsShort n := by
    obtain rfl : n = 0 := by simpa using mem
    decide
  obtain rfl | rfl | rfl | rfl := mem
  · cases stopped with
    | overlongLine mem long => exact absurd (short _ mem) long
    | untitled _ refused => exact absurd (by decide +kernel) refused
  · cases stopped with
    | overlongLine mem long => exact absurd (short _ mem) long
    | untitled _ refused => exact absurd (by decide +kernel) refused
  · cases stopped
  · cases stopped with
    | foreign => exact ⟨rfl, rfl, rfl⟩

end Proto

end LuaChunk
