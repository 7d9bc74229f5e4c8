import LuaChunk.Proofs.Listing.Lines

/-!
# The layout of a listing

A listing has a row for each function and each constant of a tree, and `Listing.rows` lists them:
for each function, in front of those nested in it, the row that describes it and those of its
constants.  The place of a function is its path from the outermost one, which tells how far its rows
are indented and what it is called.  `Proto.written_listing` says that a listing writes its rows and
nothing else.
-/

namespace LuaChunk

namespace Listing

/-- A function with the way to it from the outermost one: at each step the number of a function
among those nested in the one before, counted from zero. -/
structure Place where
  path : List Nat
  function : Proto

mutual

/-- The functions of a tree, each in front of those inside it, where the tree itself is at the end
of a path. -/
def places (path : List Nat) : Proto → List Place
  | ⟨body, nested⟩ => ⟨path, ⟨body, nested⟩⟩ :: placesOf path 0 nested

/-- The functions of trees that are nested at the end of a path, numbered from `i` on. -/
def placesOf (path : List Nat) (i : Nat) : List Proto → List Place
  | [] => []
  | p :: rest => places (path ++ [i]) p ++ placesOf path (i + 1) rest

end

namespace Place

/-- How many functions are around a function. -/
def depth (place : Place) : Nat :=
  place.path.length

/-- The name of a function: the name of the outermost one and the numbers of the path. -/
def name (root : String) (place : Place) : String :=
  place.path.foldl (fun name i => s!"{name}.{i}") root

/-- The text that describes a function. -/
def title (root : String) (place : Place) : String :=
  let body := place.function.body
  let source := if body.source = "" then "?" else body.source
  let constants := body.constants.length
  let functions := place.function.nested.length
  let constantNoun := if constants = 1 then "constant" else "constants"
  let functionNoun := if functions = 1 then "function" else "functions"
  s!"function {place.name root} <{source}:{body.firstLine},{body.lastLine}> " ++
    s!"({constants} {constantNoun}, {functions} {functionNoun})"

end Place

/-- What a line of a listing is about: a function, or a constant with its index in the pool of a
function. -/
inductive Row
  | function (place : Place)
  | constant (place : Place) (index : Nat) (e : PoolEntry)

/-- The rows of a function without those nested in it. -/
def Place.rows (place : Place) : List Row :=
  .function place :: place.function.body.constants.mapIdx (.constant place)

/-- The rows of a tree. -/
def rows (p : Proto) : List Row :=
  (places [] p).flatMap Place.rows

namespace Row

/-- How far a row is indented: the rows of constants once more than the row of their function. -/
def indentation (level width : Int) : Row → Int
  | function place => level + place.depth * width
  | constant place _ _ => level + (place.depth + 1) * width

/-- The number in front of a constant.  It starts at one and fills seven places, and a blank follows
it. -/
def numberColumn (index : Nat) : Bytes :=
  ((toString (index + 1)).toList.rightpad 7 ' ' ++ [' ']).map Char.toUInt8

/-- The text of a row. -/
def text (root : String) : Row → Bytes
  | function place => Latin1.bytes (place.title root)
  | constant _ index e =>
    numberColumn index ++
      e.constant.toOption.elim [] fun c =>
        c.literal.toOption.getD [] ++ if c.isIdentifier then Latin1.bytes " [ident]" else []

/-- A row as it stands in a listing. -/
def bytes (level width : Int) (root : String) (row : Row) : Bytes :=
  List.replicate (row.indentation level width).toNat 0x20 ++ row.text root ++ [0x0A]

/-- A row can be written: its lines have few digits and its text is Latin-1 text, or its entry is a
constant with a literal. -/
def IsWritable (root : String) : Row → Prop
  | function place => HasShortLines place.function.body ∧ Latin1.IsText (place.title root)
  | constant _ _ e => ∃ c, e.constant = .ok c ∧ c.IsShort

/-- The line of a row. -/
def line (level width : Int) (root : String) : Row → Line
  | function place =>
    headingLine (level + place.depth * width) (place.name root) place.function.body
      place.function.nested.length
  | constant place index e => entryLine (level + (place.depth + 1) * width) (index + 1) e

end Row

section

variable {width level : Int} {root : String}

/-- The title of a function is the heading of its listing. -/
lemma title_eq (root : String) (place : Place) :
    place.title root =
      fullHeading (place.name root) place.function.body place.function.nested.length := by
  have counted (n : Nat) (noun nouns : String) (plural : nouns = noun ++ "s") :
      toString n ++ (" " ++ if n = 1 then noun else nouns) = count n noun := by
    rw [count, plural, String.append_assoc, String.append_assoc]
    split
    · rw [String.append_empty]
    · rfl
  have source : (if place.function.body.source = "" then "?" else place.function.body.source) =
      if place.function.body.source.isEmpty then "?" else place.function.body.source :=
    if_congr String.isEmpty_iff.symm rfl rfl
  have bracket : "> (" = "> " ++ "(" := by decide
  unfold Place.title fullHeading headingText
  rw [← counted _ "constant" "constants" (by decide),
    ← counted _ "function" "functions" (by decide), ← source, bracket]
  simp only [String.append_assoc]
  rfl

/-- A place has the name that a listing gives to its function. -/
lemma Place.name_eq (root : String) (place : Place) :
    place.name root = place.path.foldl nestedName root :=
  rfl

/-- The line of a function has the indentation that it is given. -/
lemma level_headingLine (level : Int) (name : String) (body : FunctionBody) (nested : Nat) :
    (headingLine level name body nested).level = level :=
  rfl

/-- The lines of constants are those of their rows. -/
lemma map_line_constants (place : Place) (k : Nat) (es : List PoolEntry) :
    (es.mapIdx fun i e => Row.constant place (i + k) e).map (Row.line level width root) =
      entryLines (level + (place.depth + 1) * width) (k + 1) es := by
  induction es generalizing k with
  | nil => rfl
  | cons e es ih =>
    have others := ih (k + 1)
    rw [List.mapIdx_cons, List.map_cons, entryLines, ← others, Nat.zero_add, Row.line]
    simp only [Nat.add_assoc, Nat.add_comm k 1]

/-- The lines of a tree are those of its rows. -/
lemma lines_eq (path : List Nat) (p : Proto) :
    lines width (level + path.length * width) (path.foldl nestedName root) p =
      ((places path p).flatMap Place.rows).map (Row.line level width root) := by
  induction p using Proto.nestedInduction generalizing path with
  | mk body nested ih =>
    have deeper : level + path.length * width + width = level + (path.length + 1) * width := by
      ring
    have inside {ps : List Proto} (part : ∀ q ∈ ps, q ∈ nested) (i : Nat) :
        linesOf width (level + (path.length + 1) * width) (path.foldl nestedName root) i ps =
          ((placesOf path i ps).flatMap Place.rows).map (Row.line level width root) := by
      induction ps generalizing i with
      | nil => rfl
      | cons p ps ihs =>
        rw [List.forall_mem_cons] at part
        have first := ih p part.1 (path ++ [i])
        rw [List.foldl_concat, List.length_append, List.length_singleton, Nat.cast_add,
          Nat.cast_one] at first
        rw [linesOf, first, ihs part.2, placesOf, List.flatMap_append, List.map_append]
    have constants : List.map (Row.line level width root) _ = _ :=
      map_line_constants ⟨path, ⟨body, nested⟩⟩ 0 body.constants
    rw [lines, deeper, inside (fun _ mem => mem), places, List.flatMap_cons, List.map_append,
      Place.rows, List.map_cons, List.cons_append, Row.line, Place.name_eq]
    exact congrArg _ (congrArg (· ++ _) constants.symm)

namespace Row

/-- A row can be written exactly if its line can. -/
lemma isWritable_line {row : Row} :
    (row.line level width root).IsWritable ↔ row.IsWritable root := by
  cases row with
  | function place =>
    rw [IsWritable, title_eq, line]
    constructor
    · intro writable
      obtain ⟨short, isText, -⟩ := content_headingLine writable
      exact ⟨short, isText⟩
    · rintro ⟨short, isText⟩
      exact ⟨_, content_headingLine_of_isText short isText⟩
  | constant place index e =>
    rw [IsWritable, line]
    exact isWritable_entryLine

/-- The number of a constant is filled with blanks on the right. -/
lemma numberColumn_eq (index : Nat) :
    numberColumn index = Latin1.bytes (numbering (index + 1)) := by
  rw [numberColumn, Nat.toString_eq_ofList_toDigits, String.toList_ofList, Latin1.bytes, numbering,
    String.toList_ofList]
  rfl

/-- The line of a row that can be written is what stands of the row in a listing. -/
lemma indented_line {row : Row} (writable : row.IsWritable root) :
    (row.line level width root).indented ++ [0x0A] = row.bytes level width root := by
  cases row with
  | function place =>
    rw [IsWritable, title_eq] at writable
    obtain ⟨short, isText⟩ := writable
    rw [line, Line.indented, level_headingLine, content_headingLine_of_isText short isText,
      Except.toOption, Option.getD_some, bytes, indentation, text, title_eq]
  | constant place index e =>
    obtain ⟨c, constant, short⟩ := writable
    obtain ⟨literal, spelt⟩ := Constant.exists_literal_iff.mpr short
    rw [line, entryLine_of_ok constant (shown_of_literal spelt), Line.indented, ← numberColumn_eq,
      bytes, text, constant]
    dsimp only [Except.toOption, Option.elim]
    rw [spelt]
    rfl

end Row

/-- Rows that can be written stand in a listing one after another. -/
lemma written_map_line {rs : List Row} (writable : ∀ row ∈ rs, row.IsWritable root) :
    written (rs.map (Row.line level width root)) = rs.flatMap (Row.bytes level width root) := by
  rw [written, List.flatMap_map]
  exact List.flatMap_congr fun row mem => Row.indented_line (writable row mem)

end

end Listing

namespace Proto

open Listing

/-- The lines of a function are those of its rows. -/
lemma lines_eq_map_rows (p : Proto) (root : String) (level width : Int) :
    lines width level root p = (rows p).map (Row.line level width root) := by
  have e : lines width (level + ([] : List Nat).length * width) root p = _ := lines_eq [] p
  rw [List.length_nil, Nat.cast_zero, zero_mul, add_zero] at e
  exact e

/-- Where the name and all functions can be listed, a listing that begins at the start of a line
writes its rows and nothing else, and leaves the output at the start of a line with the same
indentation. -/
theorem written_listing {p : Proto} {root : String} {s : Sink} (start : s.atLineStart = true)
    (named : Latin1.IsText root) (listable : ∀ f ∈ p.functions, f.body.IsListable) :
    ∃ t, p.listing root s = .ok () t ∧
      t.sink.written.toList =
        s.written.toList ++ (rows p).flatMap (Row.bytes s.level s.width root) ∧
      t.sink.level = s.level ∧ t.sink.width = s.width ∧ t.sink.atLineStart = true := by
  obtain ⟨t, listed⟩ := succeeds_function listable named ⟨s, []⟩
  obtain ⟨writable, written⟩ := sink_of_listing start listed
  rw [lines_eq_map_rows] at writable written
  rw [List.forall_mem_map] at writable
  rw [written_map_line fun row mem => Row.isWritable_line.mp (writable row mem)] at written
  refine ⟨t, listed, ?_⟩
  rw [written]
  exact ⟨Sink.toList_written_append _ _, rfl, rfl, start⟩

/-- Names of Latin-1 text and constants in the pools do not make a listing: the number of a line or
a constant may have too many digits. -/
theorem not_forall_exists_listing :
    ¬ ∀ (p : Proto) (root : String) (s : Sink), s.atLineStart = true → Latin1.IsText root →
      (∀ f ∈ p.functions, Latin1.IsText f.body.source ∧
        ∀ e ∈ f.body.constants, ∃ c, e.constant = .ok c) →
      ∃ t, p.listing root s = .ok () t := by
  intro listed
  obtain ⟨n, long⟩ : ∃ n : Int, ¬ IsShort n := ⟨_, not_isShort_ten_pow⟩
  let p : Proto := ⟨{ (default : FunctionBody) with constants := [.number (.whole n)] }, []⟩
  have unnamed : Latin1.IsText (default : FunctionBody).source := by decide
  have pool : ∀ e ∈ p.body.constants, ∃ c, e.constant = .ok c := by
    intro e mem
    obtain rfl := List.mem_singleton.mp mem
    exact ⟨_, rfl⟩
  obtain ⟨t, done⟩ := listed p mainName (.empty Sink.defaultWidth) rfl (by decide)
    (forall_functions_iff.mpr ⟨⟨unnamed, pool⟩, fun _ mem => absurd mem List.not_mem_nil⟩)
  obtain ⟨writable, -⟩ := sink_of_listing rfl done
  -- The second line is that of the constant.
  obtain ⟨c, constant, short⟩ := isWritable_entryLine.mp (writable _ (.tail _ (.head _)))
  obtain rfl := Except.ok.inj constant
  exact long short

/-- A function with an identifier among its constants and one that is nested in it. -/
def layoutSample : Proto where
  body :=
    { (default : FunctionBody) with
      lastLine := -1, constants := [.string [0x5F, 0xE9], .number (.whole 12)] }
  nested := [{ (default : Proto) with body := { (default : FunctionBody) with source := "é" } }]

/-- The listing of the sample behind other text, where a nesting takes two blanks away. -/
theorem written_listing_layoutSample :
    ∃ t, layoutSample.listing "f" ⟨#[0x0A], 3, -2, true⟩ = .ok () t ∧
      t.sink.written.toList = 0x0A ::
        (Latin1.bytes "   function f <?:0,-1> (2 constants, 1 function)\n" ++
          Latin1.bytes " 1       \"_\\E9\" [ident]\n" ++
          Latin1.bytes " 2       12\n" ++
          Latin1.bytes " function f.0 <é:0,0> (0 constants, 0 functions)\n") := by
  obtain ⟨t, listed, written, -⟩ :=
    @written_listing layoutSample "f" ⟨#[0x0A], 3, -2, true⟩ rfl (by decide) (by decide +kernel)
  refine ⟨t, listed, ?_⟩
  rw [written]
  decide +kernel

end Proto

end LuaChunk
