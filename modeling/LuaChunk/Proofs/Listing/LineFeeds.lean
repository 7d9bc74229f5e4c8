import LuaChunk.Proofs.Inverse
import LuaChunk.Proofs.Listing.Lines
import LuaChunk.Proofs.Literal.Shown

/-!
# Line feeds in a listing

No literal has a line feed in it: a string constant is escaped, and nothing else that is shown of a
constant is below the space.  The source name of a function is not escaped.  So a listing has one
line feed for each function and each constant, and those that stand in source names
(`Proto.lineFeeds_listing`).
-/

namespace LuaChunk

namespace Latin1

/-- A character is as often in a text as its byte in the bytes of the text. -/
lemma count_bytes {text : String} {c : Char} (h : IsText text) (hc : c.toNat < 256) :
    (bytes text).count c.toUInt8 = text.toList.count c := by
  rw [bytes, List.count, List.countP_map, List.count]
  apply List.countP_congr
  intro d mem
  rw [Function.comp_apply, beq_iff_eq, beq_iff_eq]
  exact toUInt8_inj (h d mem) hc

end Latin1

namespace AreShown

variable {bs : Bytes}

/-- What is shown of a constant has no byte below the space. -/
lemma shown {c : Constant} {text : Bytes} (seen : Listing.shown c = .ok text) : AreShown text := by
  obtain ⟨bytes, spelt, rfl⟩ := Listing.exists_literal_of_shown seen
  apply (literal spelt).append
  split <;> decide

/-- Nor has the number in front of it. -/
lemma numbering (n : Nat) : AreShown (Latin1.bytes (Listing.numbering n)) := by
  rw [Latin1.bytes, Listing.numbering, String.toList_ofList, List.map_append, List.map_append,
    List.map_replicate]
  exact ((of_numeric (.toDigits n)).append (.replicate (by decide) _)).append (by decide)

/-- A text without a byte below the space has no line feed. -/
lemma count_eq_zero (h : AreShown bs) : bs.count 0x0A = 0 := by
  apply List.count_eq_zero_of_not_mem
  intro mem
  exact absurd (h _ mem) (by decide)

end AreShown

/-- The line feeds that a listing writes for a function, without those nested in it. -/
def FunctionBody.lineFeeds (b : FunctionBody) : Nat :=
  1 + b.constants.length + b.source.toList.count '\n'

namespace Listing

variable {width level : Int} {name : String}

/-- No line of an entry has a byte below the space. -/
lemma areShown_entryLine (level : Int) (n : Nat) (e : PoolEntry) :
    AreShown (entryLine level n e).indented := by
  apply AreShown.append (.replicate (by decide) _)
  have nothing : AreShown [] := fun _ mem => absurd mem List.not_mem_nil
  cases constant : e.constant with
  | ok c =>
    cases seen : shown c with
    | ok text =>
      rw [entryLine_of_ok constant seen]
      exact (AreShown.numbering n).append (.shown seen)
    | error fault =>
      rw [entryLine, constant]
      dsimp only
      rw [seen]
      exact nothing
  | error fault =>
    rw [entryLine_of_error constant]
    exact nothing

/-- A numeral has no line feed. -/
lemma count_of_areNumeric {cs : List Char} (h : AreNumeric cs) : cs.count '\n' = 0 :=
  List.count_eq_zero_of_not_mem (h.not_mem (by decide))

/-- A number of things has no line feed. -/
lemma count_count (n : Nat) {noun : String} (h : noun.toList.count '\n' = 0) :
    (count n noun).toList.count '\n' = 0 := by
  have plural : (if n = 1 then "" else "s").toList.count '\n' = 0 := by split <;> decide
  rw [count, String.toList_append, String.toList_append, String.toList_append, List.count_append,
    List.count_append, List.count_append, plural, h, count_of_areNumeric (.toString_nat n)]
  decide

/-- The description of a function has the line feeds of the names on it. -/
lemma count_fullHeading (name : String) (body : FunctionBody) (nested : Nat) :
    (fullHeading name body nested).toList.count '\n' =
      name.toList.count '\n' + body.source.toList.count '\n' := by
  have source : (if body.source.isEmpty then "?" else body.source).toList.count '\n' =
      body.source.toList.count '\n' := by
    split
    case isTrue empty =>
      rw [String.isEmpty_iff.mp empty]
      decide
    case isFalse => rfl
  have constants : (count body.constants.length "constant").toList.count '\n' = 0 :=
    count_count _ (by decide)
  have functions : (count nested "function").toList.count '\n' = 0 := count_count _ (by decide)
  have first := count_of_areNumeric (.toString_int body.firstLine)
  have last := count_of_areNumeric (.toString_int body.lastLine)
  unfold fullHeading headingText
  simp only [String.toList_append, List.count_append, source, constants, functions, first, last]
  simp

/-- The name of a nested function has the line feeds of the name around it. -/
lemma count_nestedName (name : String) (i : Nat) :
    (nestedName name i).toList.count '\n' = name.toList.count '\n' := by
  rw [nestedName, String.toList_append, String.toList_append, List.count_append, List.count_append,
    count_of_areNumeric (.toString_nat i)]
  simp

/-- The line feeds in lines and at their ends. -/
def lineFeeds (ls : List Line) : Nat :=
  (written ls).count 0x0A

/-- The line feeds of lines are those of their parts. -/
lemma lineFeeds_append (ls ls' : List Line) :
    lineFeeds (ls ++ ls') = lineFeeds ls + lineFeeds ls' := by
  rw [lineFeeds, written_append, List.count_append]
  rfl

/-- A line has its own line feeds and one at its end. -/
lemma lineFeeds_cons (l : Line) (ls : List Line) :
    lineFeeds (l :: ls) = l.indented.count 0x0A + 1 + lineFeeds ls := by
  rw [lineFeeds, written_cons, List.count_append, List.count_append]
  rfl

/-- The line of a function has the line feeds of its source name. -/
lemma lineFeeds_headingLine {body : FunctionBody} {nested : Nat}
    (plain : name.toList.count '\n' = 0)
    (writable : (headingLine level name body nested).IsWritable) :
    (headingLine level name body nested).indented.count 0x0A = body.source.toList.count '\n' := by
  have spaces : (List.replicate level.toNat (0x20 : UInt8)).count 0x0A = 0 :=
    (AreShown.replicate (by decide) _).count_eq_zero
  obtain ⟨-, isText, content⟩ := content_headingLine writable
  rw [Line.indented, List.count_append, content, Except.toOption, Option.getD_some]
  have shown := Latin1.count_bytes (c := '\n') isText (by decide)
  rw [count_fullHeading, plain, Nat.zero_add] at shown
  exact (congrArg₂ (· + ·) spaces shown).trans (Nat.zero_add _)

/-- There is one line feed for each entry. -/
lemma lineFeeds_entryLines (es : List PoolEntry) (n : Nat) :
    lineFeeds (entryLines level n es) = es.length := by
  induction es generalizing n with
  | nil => rfl
  | cons e es ih =>
    rw [entryLines, lineFeeds_cons, (areShown_entryLine level n e).count_eq_zero, ih,
      List.length_cons]
    omega

/-- The line feeds of nested functions are those of all functions in them. -/
lemma lineFeeds_linesOf {ps : List Proto}
    (each : ∀ q ∈ ps, ∀ name, name.toList.count '\n' = 0 →
      (∀ l ∈ lines width level name q, l.IsWritable) →
      lineFeeds (lines width level name q) = (q.functions.map fun f => f.body.lineFeeds).sum)
    (plain : name.toList.count '\n' = 0) (i : Nat)
    (writable : ∀ l ∈ linesOf width level name i ps, l.IsWritable) :
    lineFeeds (linesOf width level name i ps) =
      ((Proto.functionsOf ps).map fun f => f.body.lineFeeds).sum := by
  induction ps generalizing i with
  | nil => rfl
  | cons p ps ih =>
    rw [linesOf, List.forall_mem_append] at writable
    rw [List.forall_mem_cons] at each
    have first := each.1 (nestedName name i) ((count_nestedName name i).trans plain) writable.1
    have others := ih each.2 (i + 1) writable.2
    rw [linesOf, lineFeeds_append, first, others, Proto.functionsOf, List.map_append,
      List.sum_append]

/-- The line feeds of a function are its own and those of the functions in it. -/
lemma lineFeeds_lines {p : Proto} (plain : name.toList.count '\n' = 0)
    (writable : ∀ l ∈ lines width level name p, l.IsWritable) :
    lineFeeds (lines width level name p) = (p.functions.map fun f => f.body.lineFeeds).sum := by
  -- A nested function has a longer name, so the induction is for all names without line feeds.
  induction p using Proto.nestedInduction generalizing name level with
  | mk body nested ih =>
    rw [lines, List.forall_mem_cons, List.forall_mem_append] at writable
    obtain ⟨heading, -, inside⟩ := writable
    have functions := lineFeeds_linesOf (fun q mem name => ih q mem) plain 0 inside
    rw [lines, lineFeeds_cons, lineFeeds_append, lineFeeds_headingLine plain heading,
      lineFeeds_entryLines, functions, Proto.functions, List.map_cons, List.sum_cons]
    dsimp only [FunctionBody.lineFeeds]
    omega

/-- The last line ends with a line feed. -/
lemma getLast?_written (l : Line) (ls : List Line) :
    (written (l :: ls)).getLast? = some 0x0A := by
  induction ls generalizing l with
  | nil => rw [written, List.flatMap_singleton, List.getLast?_concat]
  | cons l' ls ih => rw [written_cons, List.getLast?_append, ih, Option.some_or]

end Listing

/-- A chunk whose function has a line feed in its source name. -/
def brokenNameChunk : Bytes :=
  standardHeader.bytes ++ [4, 0, 0, 0, 0, 0, 0, 0, 0x61, 0x0A, 0x62, 0] ++ List.replicate 36 0

namespace Proto

/-- The line feeds of functions are counted by where they come from. -/
lemma sum_lineFeeds (fs : List Proto) :
    (fs.map fun f => f.body.lineFeeds).sum =
      fs.length + (fs.map fun f => f.body.constants.length).sum +
        (fs.map fun f => f.body.source.toList.count '\n').sum := by
  induction fs with
  | nil => rfl
  | cons f fs ih =>
    rw [List.map_cons, List.sum_cons, ih, FunctionBody.lineFeeds]
    simp only [List.map_cons, List.sum_cons, List.length_cons]
    omega

/-- The line feeds of a listing of an output of its own. -/
lemma count_written {p : Proto} {width : Int} {t : Transcript}
    (listed : p.listing mainName (.empty width) = .ok () t) :
    t.sink.written.toList.count 0x0A =
      p.functions.length + (p.functions.map fun f => f.body.constants.length).sum +
        (p.functions.map fun f => f.body.source.toList.count '\n').sum ∧
      t.sink.written.toList.getLast? = some 0x0A := by
  obtain ⟨writable, written⟩ := sink_of_listing rfl listed
  have bytes : t.sink.written.toList = Listing.written (Listing.lines width 0 mainName p) := by
    rw [written, Sink.toList_written_append]
    rfl
  rw [bytes]
  constructor
  · exact (Listing.lineFeeds_lines (by decide) writable).trans (sum_lineFeeds p.functions)
  · obtain ⟨body, nested⟩ := p
    rw [Listing.lines]
    exact Listing.getLast?_written _ _

/-- Every function that a chunk stores can be listed.  A listing has one line feed for each
function, one for each constant and those in the source names of the functions, and ends with a line
feed. -/
theorem lineFeeds_listing (p : Proto) (width : Int) :
    (∀ t, p.listing mainName (.empty width) = .ok () t →
      t.sink.written.toList.count 0x0A =
        p.functions.length + (p.functions.map fun f => f.body.constants.length).sum +
          (p.functions.map fun f => f.body.source.toList.count '\n').sum ∧
      (t.sink.written.toList.count 0x0A =
          p.functions.length + (p.functions.map fun f => f.body.constants.length).sum ↔
        ∀ f ∈ p.functions, '\n' ∉ f.body.source.toList) ∧
      t.sink.written.toList.getLast? = some 0x0A) ∧
    ∀ withSummary data c, readChunk withSummary (.start data) = .ok p c →
      ∃ t, p.listing mainName (.empty width) = .ok () t := by
  refine ⟨fun t listed => ?_, fun _ _ _ read => exists_listing_of_readChunk read _⟩
  obtain ⟨count, last⟩ := count_written listed
  refine ⟨count, ?_, last⟩
  rw [count, Nat.add_eq_left, List.sum_eq_zero_iff, List.forall_mem_map]
  exact forall₂_congr fun f _ => List.count_eq_zero

/-- The only function of the chunk, which has no constants, is listed on two lines. -/
theorem lineFeeds_listing_brokenNameChunk :
    ∃ p c t, readChunk false (.start brokenNameChunk) = .ok p c ∧
      p.listing mainName (.empty 2) = .ok () t ∧ t.sink.written.toList.count 0x0A = 2 ∧
      t.sink.written.toList.getLast? = some 0x0A := by
  have bodies : readBodies brokenNameChunk =
      [{ (default : FunctionBody) with source := "a\nb" }] := by decide +kernel
  obtain ⟨p, c, read, e⟩ := exists_of_readBodies bodies
  obtain ⟨lists, succeeds⟩ := lineFeeds_listing p 2
  obtain ⟨t, listed⟩ := succeeds false brokenNameChunk c read
  obtain ⟨count, -, last⟩ := lists t listed
  obtain ⟨f, single, named⟩ := List.map_eq_singleton_iff.mp e
  rw [single, List.map_singleton, List.map_singleton, named] at count
  exact ⟨p, c, t, read, listed, count, last⟩

/-- Not every listing of a function that was read has one line feed for each function and each
constant. -/
theorem not_forall_count_lineFeed :
    ¬ ∀ (data : Bytes) (p : Proto) (c : Cursor) (t : Transcript),
      readChunk false (.start data) = .ok p c → p.listing mainName (.empty 2) = .ok () t →
      t.sink.written.toList.count 0x0A =
        p.functions.length + (p.functions.map fun f => f.body.constants.length).sum := by
  intro always
  have bodies : readBodies brokenNameChunk =
      [{ (default : FunctionBody) with source := "a\nb" }] := by decide +kernel
  obtain ⟨p, c, read, e⟩ := exists_of_readBodies bodies
  obtain ⟨t, listed⟩ := exists_listing_of_readChunk read (.empty 2)
  have one := always brokenNameChunk p c t read listed
  obtain ⟨f, single, named⟩ := List.map_eq_singleton_iff.mp e
  rw [(count_written listed).1, Nat.add_eq_left, single, List.map_singleton, named] at one
  exact absurd one (by decide)

end Proto

end LuaChunk
