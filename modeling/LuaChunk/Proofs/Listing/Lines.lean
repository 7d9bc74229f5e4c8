import LuaChunk.Proofs.Listing.Success
import LuaChunk.Proofs.Sink

/-!
# The lines of a listing

A listing is a list of lines that is known in advance: `Listing.lines` gives for each function the
line that describes it, the lines of its constants and those of the functions nested in it, each
with its indentation.  `Listing.writes_function` says that a listing writes these lines one after
another and stops at the first one that cannot be written.
-/

namespace LuaChunk

namespace Listing

/-- Why a line cannot be written to its end, and what is written of it: nothing, or its indentation
and a text behind it. -/
structure Stop where
  fault : ListingFault
  left : Option Bytes

/-- The output when it is left in a line that was at its start. -/
def Stop.leave (stop : Stop) (s : Sink) : Sink :=
  match stop.left with
  | some text => s.put text
  | none => s

/-- A line: how far it is indented and the text behind the indentation, or where the text stops. -/
structure Line where
  level : Int
  content : Except Stop Bytes

namespace Line

/-- The text of a line can be written. -/
def IsWritable (l : Line) : Prop :=
  ∃ text, l.content = .ok text

/-- A line with its indentation and without its line feed. -/
def indented (l : Line) : Bytes :=
  List.replicate l.level.toNat 0x20 ++ l.content.toOption.getD []

/-- Writes a line from its start. -/
def write (l : Line) : EStateM ListingFault Sink Unit := fun s =>
  match l.content with
  | .ok _ => .ok () (s.append (l.indented ++ [0x0A]))
  | .error stop => .error stop.fault (stop.leave { s with level := l.level })

end Line

/-- Lines, each with its line feed. -/
def written (ls : List Line) : Bytes :=
  ls.flatMap fun l => l.indented ++ [0x0A]

/-- Writes lines one after another. -/
def writeLines (ls : List Line) : EStateM ListingFault Sink Unit :=
  forM ls Line.write

/-- What follows the number of a constant, if it has a literal. -/
def shown (c : Constant) : Except Overlong Bytes :=
  c.literal.map (· ++ if c.isIdentifier then Latin1.bytes identifierMark else [])

/-- The line that describes a function.  It is begun before a text that cannot be encoded is found
out, but not before its text is put together. -/
def headingLine (level : Int) (name : String) (body : FunctionBody) (nested : Nat) : Line where
  level
  content :=
    match heading name body nested with
    | .ok line =>
      match Latin1.encode? line with
      | some text => .ok text
      | none => .error ⟨.output (.unencodable line), some []⟩
    | .error fault => .error ⟨.output (.overlong fault), none⟩

/-- The line of an entry, numbered `n`.  A value that is no constant is found out in front of the
number, and a constant without a literal behind it. -/
def entryLine (level : Int) (n : Nat) (e : PoolEntry) : Line where
  level
  content :=
    match e.constant with
    | .ok c =>
      match shown c with
      | .ok text => .ok (Latin1.bytes (numbering n) ++ text)
      | .error fault => .error ⟨.output (.overlong fault), some (Latin1.bytes (numbering n))⟩
    | .error fault => .error ⟨.constant fault, none⟩

/-- The lines of entries, numbered from `n` on. -/
def entryLines (level : Int) : Nat → List PoolEntry → List Line
  | _, [] => []
  | n, e :: rest => entryLine level n e :: entryLines level (n + 1) rest

mutual

/-- The lines of a function, where each nesting adds `width` to the indentation. -/
def lines (width level : Int) (name : String) : Proto → List Line
  | ⟨body, nested⟩ =>
    headingLine level name body nested.length ::
      (entryLines (level + width) 1 body.constants ++ linesOf width (level + width) name 0 nested)

/-- The lines of nested functions, numbered from `i` on. -/
def linesOf (width level : Int) (name : String) (i : Nat) : List Proto → List Line
  | [] => []
  | p :: rest => lines width level (nestedName name i) p ++ linesOf width level name (i + 1) rest

end

/-- An outcome with the output changed if it is a success. -/
def onSuccess (change : Sink → Sink) :
    EStateM.Result ListingFault Sink Unit → EStateM.Result ListingFault Sink Unit
  | .ok _ s => .ok () (change s)
  | .error fault s => .error fault s

/-- An outcome without the log. -/
def onSinkOnly : EStateM.Result ListingFault Transcript Unit → EStateM.Result ListingFault Sink Unit
  | .ok _ t => .ok () t.sink
  | .error fault t => .error fault t.sink

/-- From the start of a line at the given indentation, a step writes the given lines and leaves the
indentation as it is. -/
def Writes (width level : Int) (x : ListingM Unit) (ls : List Line) : Prop :=
  ∀ t : Transcript, t.sink.atLineStart = true → t.sink.level = level → t.sink.width = width →
    onSinkOnly (x t) = writeLines ls t.sink

section

variable {width level : Int} {x y : ListingM Unit} {ls ls' : List Line} {l : Line} {s s' : Sink}

/-- Lines are written in parts. -/
lemma writeLines_append (ls ls' : List Line) :
    writeLines (ls ++ ls') = writeLines ls >>= fun _ => writeLines ls' :=
  List.forM_append

/-- A line is written if it can be, and then it stands in the output with its line feed. -/
lemma write_eq_ok_iff : l.write s = .ok () s' ↔
    l.IsWritable ∧ s' = s.append (l.indented ++ [0x0A]) := by
  unfold Line.write Line.IsWritable
  cases content : l.content with
  | ok text =>
    constructor
    · rintro ⟨⟩
      exact ⟨⟨text, rfl⟩, rfl⟩
    · rintro ⟨-, rfl⟩
      rfl
  | error stop =>
    refine iff_of_false nofun ?_
    rintro ⟨⟨_, impossible⟩, -⟩
    cases impossible

/-- The text of lines is that of its parts. -/
lemma written_append (ls ls' : List Line) : written (ls ++ ls') = written ls ++ written ls' :=
  List.flatMap_append

/-- The text of lines begins with the first of them. -/
lemma written_cons (l : Line) (ls : List Line) :
    written (l :: ls) = l.indented ++ [0x0A] ++ written ls :=
  List.flatMap_cons

/-- Lines are written if each of them can be, and then they stand in the output. -/
lemma writeLines_eq_ok_iff : writeLines ls s = .ok () s' ↔
    (∀ l ∈ ls, l.IsWritable) ∧ s' = s.append (written ls) := by
  induction ls generalizing s with
  | nil =>
    have none : (∀ l ∈ ([] : List Line), l.IsWritable) := fun _ mem => absurd mem List.not_mem_nil
    constructor
    · intro h
      cases h
      exact ⟨none, rfl⟩
    · rintro ⟨-, rfl⟩
      rfl
  | cons l ls ih =>
    rw [List.forall_mem_cons, written_cons, ← Sink.append_append]
    refine bind_eq_ok_iff.trans ⟨?_, ?_⟩
    · rintro ⟨_, s₁, first, others⟩
      obtain ⟨writable, rfl⟩ := write_eq_ok_iff.mp first
      obtain ⟨all, rfl⟩ := ih.mp others
      exact ⟨⟨writable, all⟩, rfl⟩
    · rintro ⟨⟨writable, all⟩, rfl⟩
      exact ⟨(), _, write_eq_ok_iff.mpr ⟨writable, rfl⟩, ih.mpr ⟨all, rfl⟩⟩

/-- A line has its own indentation, and that of the output does not matter to it. -/
lemma write_level (l : Line) (s : Sink) (level : Int) :
    l.write { s with level } = onSuccess (fun s => { s with level }) (l.write s) := by
  unfold Line.write
  cases l.content with
  | ok text => rfl
  | error stop => rfl

/-- So with lines: a listing that stops leaves the indentation of its last line behind. -/
lemma writeLines_level (ls : List Line) (s : Sink) (level : Int) :
    writeLines ls { s with level } = onSuccess (fun s => { s with level }) (writeLines ls s) := by
  induction ls generalizing s with
  | nil => rfl
  | cons l ls ih =>
    have first := write_level l s level
    simp only [writeLines, List.forM_cons, Bind.bind, EStateM.bind, first] at ih ⊢
    cases l.write s with
    | ok u s' => exact ih s'
    | error fault s' => rfl

/-- A change of the output after a step shows in its success alone. -/
lemma onSinkOnly_output (x : ListingM Unit) (change : Sink → Sink) (t : Transcript) :
    onSinkOnly ((x >>= fun _ => output change) t) = onSuccess change (onSinkOnly (x t)) := by
  simp only [Bind.bind, EStateM.bind]
  cases x t with
  | ok => rfl
  | error => rfl

namespace Writes

/-- Two steps write the lines of the first and those of the second. -/
lemma bind (hx : Writes width level x ls) (hy : Writes width level y ls') :
    Writes width level (x >>= fun _ => y) (ls ++ ls') := by
  intro t start hl hw
  have first := hx t start hl hw
  rw [writeLines_append]
  simp only [Bind.bind, EStateM.bind]
  cases outcome : x t with
  | ok u t₁ =>
    rw [outcome] at first
    rw [← first]
    obtain ⟨-, after⟩ := writeLines_eq_ok_iff.mp first.symm
    refine hy t₁ ?_ ?_ ?_
    · rw [after]
      exact start
    · rw [after]
      exact hl
    · rw [after]
      exact hw
  | error fault t₁ =>
    rw [outcome] at first
    rw [← first]
    rfl

/-- A step between two changes of the indentation writes its lines with the indentation changed. -/
lemma indented (hx : Writes width (level + width) x ls) :
    Writes width level
      (output Sink.indent >>= fun _ => x >>= fun _ => output Sink.dedent) ls := by
  intro t start hl hw
  subst hl hw
  have inside := hx { t with sink := t.sink.indent } start rfl rfl
  -- The lines come out as from the outer indentation, and only a success has to be set back to it.
  have deeper := writeLines_level ls t.sink (t.sink.level + t.sink.width)
  refine (onSinkOnly_output x Sink.dedent _).trans ?_
  rw [inside]
  refine (congrArg (onSuccess Sink.dedent) deeper).trans ?_
  cases outcome : writeLines ls t.sink with
  | ok u s' =>
    obtain ⟨-, rfl⟩ := writeLines_eq_ok_iff.mp outcome
    exact congrArg (EStateM.Result.ok ()) (Sink.dedent_indent _)
  | error => rfl

/-- Lines of the log are none of the output. -/
lemma logged (entries : Log) (hx : Writes width level x ls) :
    Writes width level ((modify fun t => { t with log := t.log ++ entries }) >>= fun _ => x) ls :=
  fun t => hx { t with log := t.log ++ entries }

end Writes

/-- A step that writes one line at its start writes this line. -/
lemma Writes.of_write (hl : l.level = level)
    (h : ∀ t : Transcript, t.sink.atLineStart = true → t.sink.level = l.level →
      onSinkOnly (x t) = l.write t.sink) : Writes width level x [l] := by
  intro t start at_level _
  have single : writeLines [l] = l.write := by simp [writeLines]
  rw [h t start (at_level.trans hl.symm), single]

/-- A line that can be written is begun, printed and ended. -/
lemma write_of_ok {text : Bytes} (h : l.content = .ok text) (start : s.atLineStart = true)
    (hl : s.level = l.level) : l.write s = .ok () (s.put text).newline := by
  rw [write_eq_ok_iff.mpr ⟨⟨text, h⟩, rfl⟩, Sink.newline_put start, hl, Line.indented, h]
  rfl

/-- A line that cannot be written leaves behind what is written of it. -/
lemma write_of_error {stop : Stop} (h : l.content = .error stop) (hl : s.level = l.level) :
    l.write s = .error stop.fault (stop.leave s) := by
  unfold Line.write
  rw [h, ← hl]

section Heading

variable {name : String} {body : FunctionBody} {nested : Nat}

/-- A function is described by some text. -/
lemma headingText_ne_empty (first last : String) :
    headingText name body nested first last ≠ "" := by
  unfold headingText
  simp only [ne_eq, String.append_eq_empty_iff]
  simp

/-- The line of a function is its description, if this is text of Latin-1. -/
lemma content_headingLine_of_isText (short : HasShortLines body)
    (isText : Latin1.IsText (fullHeading name body nested)) :
    (headingLine level name body nested).content =
      .ok (Latin1.bytes (fullHeading name body nested)) := by
  rw [headingLine, heading_of_short short]
  generalize fullHeading name body nested = line at isText
  dsimp only
  rw [isText.encode?_eq]

/-- A description that is no text of Latin-1 is found out on the line. -/
lemma content_headingLine_of_not_isText (short : HasShortLines body)
    (refused : ¬ Latin1.IsText (fullHeading name body nested)) :
    (headingLine level name body nested).content =
      .error ⟨.output (.unencodable (fullHeading name body nested)), some []⟩ := by
  rw [headingLine, heading_of_short short]
  generalize fullHeading name body nested = line at refused
  dsimp only
  rw [Latin1.IsText.encode?_eq_none refused]

/-- Without a description nothing of the line is written. -/
lemma content_headingLine_of_overlong {fault : Overlong}
    (refused : heading name body nested = .error fault) :
    (headingLine level name body nested).content = .error ⟨.output (.overlong fault), none⟩ := by
  rw [headingLine, refused]

/-- The line of a function that can be written is its description with all digits. -/
lemma content_headingLine (writable : (headingLine level name body nested).IsWritable) :
    HasShortLines body ∧ Latin1.IsText (fullHeading name body nested) ∧
      (headingLine level name body nested).content =
        .ok (Latin1.bytes (fullHeading name body nested)) := by
  obtain ⟨text, content⟩ := writable
  by_cases short : HasShortLines body
  · by_cases isText : Latin1.IsText (fullHeading name body nested)
    · exact ⟨short, isText, content_headingLine_of_isText short isText⟩
    · cases (content_headingLine_of_not_isText short isText).symm.trans content
  · obtain ⟨_, -, -, refused⟩ := heading_of_overlong short name nested
    cases (content_headingLine_of_overlong refused).symm.trans content

/-- The description of a function is written as its line. -/
lemma writes_describe (name : String) (body : FunctionBody) (nested : Nat) :
    Writes width level (describe name body nested) [headingLine level name body nested] := by
  refine Writes.of_write rfl fun t start hl => ?_
  by_cases short : HasShortLines body
  · have nonempty : fullHeading name body nested ≠ "" := headingText_ne_empty _ _
    rw [describe, heading_of_short short]
    dsimp only
    rw [onSink, Sink.println_of_ne nonempty]
    by_cases isText : Latin1.IsText (fullHeading name body nested)
    · rw [write_of_ok (content_headingLine_of_isText short isText) start hl, isText.encode?_eq]
      rfl
    · rw [write_of_error (content_headingLine_of_not_isText short isText) hl,
        Latin1.IsText.encode?_eq_none isText]
      rfl
  · obtain ⟨_, -, -, refused⟩ := heading_of_overlong short name nested
    rw [write_of_error (content_headingLine_of_overlong refused) hl, describe, refused]
    rfl

end Heading

section Entry

variable {n : Nat} {e : PoolEntry} {c : Constant}

/-- The line of a constant is its number and what is shown of it. -/
lemma entryLine_of_ok {text : Bytes} (constant : e.constant = .ok c) (seen : shown c = .ok text) :
    entryLine level n e = ⟨level, .ok (Latin1.bytes (numbering n) ++ text)⟩ := by
  rw [entryLine, constant]
  dsimp only
  rw [seen]

/-- The line of a constant without a literal stops behind its number. -/
lemma entryLine_of_overlong {fault : Overlong} (constant : e.constant = .ok c)
    (refused : c.literal = .error fault) :
    entryLine level n e =
      ⟨level, .error ⟨.output (.overlong fault), some (Latin1.bytes (numbering n))⟩⟩ := by
  rw [entryLine, constant]
  dsimp only
  rw [shown, refused]
  rfl

/-- An entry that is no constant has no line. -/
lemma entryLine_of_error {fault : ConstantFault} (refused : e.constant = .error fault) :
    entryLine level n e = ⟨level, .error ⟨.constant fault, none⟩⟩ := by
  rw [entryLine, refused]

/-- What is shown of a constant is its literal and, behind an identifier, a mark. -/
lemma shown_of_literal {text : Bytes} (literal : c.literal = .ok text) :
    shown c = .ok (text ++ if c.isIdentifier then Latin1.bytes identifierMark else []) := by
  rw [shown, literal]
  rfl

/-- What is shown of a constant begins with its literal. -/
lemma exists_literal_of_shown {text : Bytes} (seen : shown c = .ok text) :
    ∃ literal, c.literal = .ok literal ∧
      text = literal ++ if c.isIdentifier then Latin1.bytes identifierMark else [] := by
  cases literal : c.literal with
  | ok bytes =>
    rw [shown_of_literal literal] at seen
    exact ⟨bytes, rfl, (Except.ok.inj seen).symm⟩
  | error fault =>
    rw [shown, literal] at seen
    cases seen

/-- The line of an entry can be written if the entry is a constant with few digits. -/
lemma isWritable_entryLine :
    (entryLine level n e).IsWritable ↔ ∃ c, e.constant = .ok c ∧ c.IsShort := by
  cases constant : e.constant with
  | ok c =>
    have only : (∃ c', Except.ok (ε := ConstantFault) c = .ok c' ∧ c'.IsShort) ↔ c.IsShort := by
      simp
    rw [only, ← Constant.exists_literal_iff]
    cases literal : c.literal with
    | ok text =>
      rw [entryLine_of_ok constant (shown_of_literal literal)]
      exact iff_of_true ⟨_, rfl⟩ ⟨text, rfl⟩
    | error fault =>
      rw [entryLine_of_overlong constant literal]
      exact iff_of_false nofun nofun
  | error fault =>
    rw [entryLine_of_error constant]
    exact iff_of_false nofun nofun

/-- The number of an entry, its constant and the mark are printed one after another as if at once,
from any state of the output. -/
lemma entry_of_ok {text : Bytes} (n : Nat) (constant : e.constant = .ok c)
    (literal : c.literal = .ok text) (t : Transcript) : entry n e t =
      .ok () { t with
        sink := (t.sink.put (Latin1.bytes (numbering n) ++ (text ++
          if c.isIdentifier then Latin1.bytes identifierMark else []))).newline } := by
  have printed := Constant.print_of_literal literal (t.sink.put (Latin1.bytes (numbering n)))
  rw [Sink.put_put] at printed
  have mark (s : Sink) :
      Sink.print identifierMark s = .ok () (s.put (Latin1.bytes identifierMark)) :=
    Sink.print_eq (by decide) s
  unfold entry
  rw [constant, ← List.append_assoc]
  dsimp only
  cases c.isIdentifier with
  | true =>
    rw [if_pos rfl, if_pos rfl, ← Sink.put_put]
    simp only [Bind.bind, EStateM.bind, onSink, Sink.print_eq (isText_numbering n), printed, mark]
    rfl
  | false =>
    rw [if_neg Bool.false_ne_true, if_neg Bool.false_ne_true, List.append_nil]
    simp only [Bind.bind, EStateM.bind, onSink, Sink.print_eq (isText_numbering n), printed]
    rfl

/-- The number of an entry is printed before its constant turns out to have no literal. -/
lemma entry_of_overlong {fault : Overlong} (n : Nat) (constant : e.constant = .ok c)
    (refused : c.literal = .error fault) (t : Transcript) : entry n e t =
      .error (.output (.overlong fault))
        { t with sink := t.sink.put (Latin1.bytes (numbering n)) } := by
  have printed := Constant.print_of_overlong refused (t.sink.put (Latin1.bytes (numbering n)))
  unfold entry
  rw [constant]
  simp only [Bind.bind, EStateM.bind, onSink, Sink.print_eq (isText_numbering n), printed]

/-- An entry is written as its line. -/
lemma writes_entry (n : Nat) (e : PoolEntry) :
    Writes width level (entry n e) [entryLine level n e] := by
  refine Writes.of_write rfl fun t start hl => ?_
  cases constant : e.constant with
  | ok c =>
    cases literal : c.literal with
    | ok text =>
      have line : entryLine level n e = _ := entryLine_of_ok constant (shown_of_literal literal)
      rw [entry_of_ok n constant literal]
      exact (write_of_ok (congrArg Line.content line) start hl).symm
    | error fault =>
      have line : entryLine level n e = _ := entryLine_of_overlong constant literal
      rw [entry_of_overlong n constant literal]
      exact (write_of_error (congrArg Line.content line) hl).symm
  | error fault =>
    have line : entryLine level n e = _ := entryLine_of_error constant
    unfold entry
    rw [constant]
    exact (write_of_error (congrArg Line.content line) hl).symm

end Entry

/-- Entries are written as their lines. -/
lemma writes_entries (es : List PoolEntry) (n : Nat) :
    Writes width level (entries n es) (entryLines level n es) := by
  induction es generalizing n with
  | nil => exact fun _ _ _ _ => rfl
  | cons e es ih => exact (writes_entry n e).bind (ih (n + 1))

/-- Nested functions are written as their lines. -/
lemma writes_functions {ps : List Proto}
    (each : ∀ q ∈ ps, ∀ name, Writes width level (function name q) (lines width level name q))
    (name : String) (i : Nat) :
    Writes width level (functions name i ps) (linesOf width level name i ps) := by
  induction ps generalizing i with
  | nil => exact fun _ _ _ _ => rfl
  | cons p ps ih =>
    rw [List.forall_mem_cons] at each
    exact .logged _ ((each.1 _).bind (ih each.2 (i + 1)))

/-- A listing writes its lines. -/
theorem writes_function (width : Int) (p : Proto) (name : String) (level : Int) :
    Writes width level (function name p) (lines width level name p) := by
  induction p using Proto.nestedInduction generalizing name level with
  | mk body nested ih =>
    have inside := (writes_entries body.constants 1).bind
      (writes_functions (fun q mem name => ih q mem name (level + width)) name 0)
    have whole := (writes_describe name body nested.length).bind inside.indented
    rw [bind_assoc] at whole
    exact whole

/-- What holds of the line of each entry holds of all their lines. -/
lemma forall_entryLines {holds : Line → Prop} {es : List PoolEntry}
    (each : ∀ e ∈ es, ∀ n, holds (entryLine level n e)) (n : Nat) :
    ∀ l ∈ entryLines level n es, holds l := by
  induction es generalizing n with
  | nil => exact fun _ mem => absurd mem List.not_mem_nil
  | cons e es ih =>
    rw [List.forall_mem_cons] at each
    exact List.forall_mem_cons.mpr ⟨each.1 n, ih each.2 (n + 1)⟩

/-- What holds of the lines of each nested function holds of all their lines. -/
lemma forall_linesOf {holds : Line → Prop} {ps : List Proto} {name : String}
    (each : ∀ q ∈ ps, ∀ i, ∀ l ∈ lines width level (nestedName name i) q, holds l) (i : Nat) :
    ∀ l ∈ linesOf width level name i ps, holds l := by
  induction ps generalizing i with
  | nil => exact fun _ mem => absurd mem List.not_mem_nil
  | cons p ps ih =>
    rw [List.forall_mem_cons] at each
    exact List.forall_mem_append.mpr ⟨each.1 i, ih each.2 (i + 1)⟩

/-- What holds of the line of each function and of those of its constants holds of all lines.  The
names of the functions may be restricted. -/
lemma forall_lines (holds : Line → Prop) (named : String → Prop) {p : Proto}
    (headings : ∀ f ∈ p.functions, ∀ level name, named name →
      holds (headingLine level name f.body f.nested.length))
    (entries : ∀ f ∈ p.functions, ∀ e ∈ f.body.constants, ∀ level n, holds (entryLine level n e))
    (longer : ∀ name i, named name → named (nestedName name i)) {name : String} (h : named name) :
    ∀ l ∈ lines width level name p, holds l := by
  induction p using Proto.nestedInduction generalizing name level with
  | mk body nested ih =>
    obtain ⟨described, inside⟩ := Proto.forall_functions_iff.mp headings
    obtain ⟨own, pools⟩ := Proto.forall_functions_iff.mp entries
    rw [lines, List.forall_mem_cons, List.forall_mem_append]
    refine ⟨described level name h, forall_entryLines (fun e mem => own e mem _) 1, ?_⟩
    exact forall_linesOf (fun q mem i => ih q mem (inside q mem) (pools q mem) (longer name i h)) 0

end

end Listing

/-- What a listing that succeeds has written are its lines. -/
lemma Proto.sink_of_listing {p : Proto} {name : String} {s : Sink} {t : Transcript}
    (start : s.atLineStart = true) (listed : p.listing name s = .ok () t) :
    (∀ l ∈ Listing.lines s.width s.level name p, l.IsWritable) ∧
      t.sink = s.append (Listing.written (Listing.lines s.width s.level name p)) := by
  have written := Listing.writes_function s.width p name s.level ⟨s, []⟩ start rfl rfl
  rw [listing] at listed
  rw [listed] at written
  exact Listing.writeLines_eq_ok_iff.mp written.symm

end LuaChunk
