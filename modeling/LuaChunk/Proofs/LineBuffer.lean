import LuaChunk.Proofs.Printing

/-!
# An output is a buffer of lines

An output keeps no lines: it has the bytes so far, a level and a flag.  Here the calls on an output
are cut into lines, each closed by a call that ends it, and `lineBytes` says what stands on a line
in terms of the calls made on it.  `Sink.Holds` relates an output to the lines of its calls; each
call keeps it (`Sink.Holds.extend`, `Sink.Holds.close`), and so does every sequence of calls.
-/

namespace LuaChunk.Sink

namespace Call

/-- The call prints, so that the line is begun even if its text is refused. -/
def Prints : Call → Prop
  | print _ => True
  | printByte _ => True
  | println text => text ≠ ""
  | indent => False
  | dedent => False

/-- The text of the call, if it has one, is Latin-1 text. -/
def HasText : Call → Prop
  | print text => Latin1.IsText text
  | println text => Latin1.IsText text
  | _ => True

/-- The call ends its line. -/
def Closes : Call → Prop
  | println text => Latin1.IsText text
  | _ => False

/-- What the call puts on its line, which is nothing if its text is refused. -/
def bytes : Call → Bytes
  | print text => (Latin1.encode? text).getD []
  | printByte n => [UInt8.ofNat (n % 256).toNat]
  | println text => (Latin1.encode? text).getD []
  | indent => []
  | dedent => []

/-- By how many widths the call changes the level. -/
def turn : Call → Int
  | indent => 1
  | dedent => -1
  | _ => 0

instance : DecidablePred Prints := fun call => by
  cases call <;> unfold Prints <;> infer_instance

instance : DecidablePred HasText := fun call => by
  cases call <;> unfold HasText <;> infer_instance

instance : DecidablePred Closes := fun call => by
  cases call <;> unfold Closes <;> infer_instance

variable {call : Call}

/-- A call that prints does not change the level. -/
lemma turn_of_prints (prints : call.Prints) : call.turn = 0 := by
  cases call with
  | indent => exact prints.elim
  | dedent => exact prints.elim
  | _ => rfl

/-- A call that ends its line does not change the level. -/
lemma turn_of_closes (closes : call.Closes) : call.turn = 0 := by
  cases call with
  | println => rfl
  | _ => exact closes.elim

/-- A call that does not print puts nothing on its line. -/
lemma bytes_of_silent (silent : ¬ call.Prints) : call.bytes = [] := by
  cases call with
  | print => exact absurd trivial silent
  | printByte => exact absurd trivial silent
  | println text =>
    rw [not_not.mp silent]
    rfl
  | indent => rfl
  | dedent => rfl

end Call

variable {width : Int} {before line : List Call} {closed : List (List Call)} {call : Call}
  {s : Sink}

/-- The level after calls: a width for each indentation that is not undone. -/
def levelAfter (width : Int) (calls : List Call) : Int :=
  width * (calls.count .indent - calls.count .dedent)

/-- The line on which calls are made, after those `before`: nothing unless one of them prints, and
otherwise the indentation of the moment when the first of them does, and what they put on it. -/
def lineBytes (width : Int) (before : List Call) : List Call → Bytes
  | [] => []
  | call :: rest =>
    if call.Prints then
      List.replicate (levelAfter width before).toNat 0x20 ++ (call :: rest).flatMap Call.bytes
    else lineBytes width (before ++ [call]) rest

/-- Lines one after another, each with its line feed. -/
def linesBytes (width : Int) (before : List Call) : List (List Call) → Bytes
  | [] => []
  | line :: rest =>
    lineBytes width before line ++ [0x0A] ++ linesBytes width (before ++ line) rest

/-- Calls that do not print leave their line empty. -/
lemma lineBytes_of_silent (silent : ∀ call ∈ line, ¬ call.Prints) :
    lineBytes width before line = [] := by
  induction line generalizing before with
  | nil => rfl
  | cons call line ih =>
    rw [List.forall_mem_cons] at silent
    rw [lineBytes, if_neg silent.1, ih silent.2]

/-- A call that does not print adds nothing to its line. -/
lemma lineBytes_concat_of_silent (silent : ¬ call.Prints) :
    lineBytes width before (line ++ [call]) = lineBytes width before line := by
  induction line generalizing before with
  | nil => exact lineBytes_of_silent (List.forall_mem_singleton.mpr silent)
  | cons first line ih =>
    rw [List.cons_append, lineBytes, lineBytes, ih]
    have own : (first :: (line ++ [call])).flatMap Call.bytes =
        (first :: line).flatMap Call.bytes := by
      rw [← List.cons_append, List.flatMap_append, List.flatMap_singleton,
        Call.bytes_of_silent silent, List.append_nil]
    rw [own]

/-- A call that prints adds what it puts on the line, with the indentation in front of it if it is
the first one to print. -/
lemma lineBytes_concat_of_prints (prints : call.Prints) :
    lineBytes width before (line ++ [call]) = lineBytes width before line ++
      ((if ∀ call ∈ line, ¬ call.Prints then
        List.replicate (levelAfter width (before ++ line)).toNat 0x20 else []) ++ call.bytes) := by
  induction line generalizing before with
  | nil =>
    rw [List.nil_append, lineBytes, lineBytes, if_pos prints, if_pos (List.forall_mem_nil _),
      List.flatMap_singleton, List.append_nil, List.nil_append]
  | cons first line ih =>
    rw [List.cons_append, lineBytes, lineBytes, ih]
    by_cases begun : first.Prints
    · have some : ¬ ∀ call ∈ first :: line, ¬ call.Prints :=
        fun silent => silent first List.mem_cons_self begun
      rw [if_pos begun, if_pos begun, if_neg some, ← List.cons_append, List.flatMap_append,
        List.flatMap_singleton, List.append_assoc, List.nil_append]
    · simp only [List.forall_mem_cons, begun, if_false, not_false_iff, true_and,
        List.append_assoc, List.singleton_append]

/-- A further line stands behind the others, with its line feed. -/
lemma linesBytes_concat :
    linesBytes width before (closed ++ [line]) = linesBytes width before closed ++
      (lineBytes width (before ++ closed.flatten) line ++ [0x0A]) := by
  induction closed generalizing before with
  | nil => simp [linesBytes]
  | cons first closed ih =>
    rw [List.cons_append, linesBytes, linesBytes, ih, List.flatten_cons]
    simp only [List.append_assoc]

/-- A call changes the level by its turn. -/
lemma levelAfter_concat :
    levelAfter width (before ++ [call]) = levelAfter width before + width * call.turn := by
  have own : ([call].count .indent : Int) - [call].count .dedent = call.turn := by
    cases call <;> rfl
  rw [levelAfter, levelAfter, List.count_append, List.count_append, ← own]
  push_cast
  ring

/-- An output has the lines `closed` and the open line `line`, which are given by the calls made on
them. -/
structure Holds (width : Int) (closed : List (List Call)) (line : List Call) (s : Sink) : Prop where
  level : s.level = levelAfter width (closed.flatten ++ line)
  width_eq : s.width = width
  written : s.written.toList =
    linesBytes width [] closed ++ lineBytes width closed.flatten line
  atLineStart : s.atLineStart = true ↔ ∀ call ∈ line, ¬ call.Prints

namespace Holds

/-- At first there is no line but the open one, on which no call is made. -/
lemma empty (width : Int) : Holds width [] [] (.empty width) where
  level := (Int.mul_zero width).symm
  width_eq := rfl
  written := rfl
  atLineStart := ⟨fun _ => List.forall_mem_nil _, fun _ => rfl⟩

/-- A call that does not print may only change the level. -/
lemma silent (h : Holds width closed line s) (silent : ¬ call.Prints) :
    Holds width closed (line ++ [call]) { s with level := s.level + s.width * call.turn } where
  level := by rw [← List.append_assoc, levelAfter_concat, ← h.level, h.width_eq]
  width_eq := h.width_eq
  written := by rw [lineBytes_concat_of_silent silent, ← h.written]
  atLineStart := by
    rw [List.forall_mem_append, List.forall_mem_singleton, ← h.atLineStart]
    exact (and_iff_left silent).symm

/-- What a call prints stands behind the indentation if it is the first on its line to print. -/
lemma put (h : Holds width closed line s) (prints : call.Prints) :
    Holds width closed (line ++ [call]) (s.put call.bytes) := by
  constructor
  · rw [← List.append_assoc, levelAfter_concat, Call.turn_of_prints prints, Int.mul_zero,
      Int.add_zero, ← h.level, put_eq]
    rfl
  · rw [put_eq]
    exact h.width_eq
  · rw [written_put, lineBytes_concat_of_prints prints, h.written, List.append_assoc, ← h.level,
      added]
    simp only [← h.atLineStart]
  · rw [put_eq]
    constructor
    · intro start
      cases start
    · intro none
      exact absurd prints (none call (List.mem_append_right line List.mem_cons_self))

/-- A line feed closes the open line and opens an empty one. -/
lemma newline (h : Holds width closed line s) : Holds width (closed ++ [line]) [] s.newline where
  level := by
    rw [List.flatten_append, List.flatten_singleton, List.append_nil, ← h.level]
    rfl
  width_eq := h.width_eq
  written := by
    rw [linesBytes_concat, lineBytes, List.append_nil, List.nil_append, ← List.append_assoc,
      ← h.written]
    exact toList_written_append _ _
  atLineStart := ⟨fun _ => List.forall_mem_nil _, fun _ => rfl⟩

end Holds

/-- A text is printed on the line that it begins, and nothing of it if it is refused. -/
lemma perform_print (s : Sink) (text : String) :
    s.perform (.print text) =
      (if Latin1.IsText text then .ok () else .error (.unencodable text),
        s.put (Call.print text).bytes) := by
  rw [perform, Call.run, print, Call.bytes]
  by_cases h : Latin1.IsText text
  · rw [if_pos h, h.encode?_eq]
    rfl
  · rw [if_neg h, Latin1.IsText.encode?_eq_none h]
    rfl

/-- The line ends behind a text only if the text is not refused. -/
lemma perform_println {text : String} (nonempty : text ≠ "") (s : Sink) :
    s.perform (.println text) =
      if Latin1.IsText text then (.ok (), (s.put (Call.println text).bytes).newline)
      else (.error (.unencodable text), s.put (Call.println text).bytes) := by
  rw [perform, Call.run, println_of_ne nonempty, Call.bytes]
  by_cases h : Latin1.IsText text
  · rw [if_pos h, h.encode?_eq]
    rfl
  · rw [if_neg h, Latin1.IsText.encode?_eq_none h]
    rfl

/-- A call that prints and does not end its line prints what it has to, and nothing else. -/
lemma perform_of_prints (prints : call.Prints) (stays : ¬ call.Closes) (s : Sink) :
    (s.perform call).2 = s.put call.bytes := by
  cases call with
  | print text => rw [perform_print]
  | printByte => rfl
  | println text =>
    have refused : ¬ Latin1.IsText text := stays
    rw [perform_println prints, if_neg refused]
  | indent => exact prints.elim
  | dedent => exact prints.elim

/-- A call that neither prints nor ends its line changes the level, and nothing else. -/
lemma perform_of_silent (silent : ¬ call.Prints) (stays : ¬ call.Closes) (s : Sink) :
    (s.perform call).2 = { s with level := s.level + s.width * call.turn } := by
  cases call with
  | indent =>
    rw [Call.turn, Int.mul_one]
    rfl
  | dedent =>
    rw [Call.turn, Int.mul_neg_one]
    rfl
  | print => exact absurd trivial silent
  | printByte => exact absurd trivial silent
  | println text =>
    rw [not_not.mp silent] at stays
    exact absurd (by decide) stays

/-- A call that ends its line does so after it has printed what it has to, if anything. -/
lemma perform_of_closes (closes : call.Closes) (s : Sink) :
    (s.perform call).2 = (if call.Prints then s.put call.bytes else s).newline := by
  cases call with
  | println text =>
    have h : Latin1.IsText text := closes
    by_cases prints : (Call.println text).Prints
    · rw [perform_println prints, if_pos h, if_pos prints]
    · rw [if_neg prints, not_not.mp prints]
      rfl
  | _ => exact closes.elim

/-- Whether a call is refused depends on its text alone. -/
lemma perform_eq_ok_iff (s : Sink) (call : Call) :
    (s.perform call).1 = .ok () ↔ call.HasText := by
  have decides (holds : Prop) [Decidable holds] (e : SinkFault) :
      (if holds then .ok () else .error e : Except SinkFault Unit) = .ok () ↔ holds := by
    split
    case isTrue yes => exact iff_of_true rfl yes
    case isFalse no => exact iff_of_false nofun no
  cases call with
  | print text =>
    rw [perform_print]
    exact decides _ _
  | println text =>
    by_cases prints : (Call.println text).Prints
    · rw [perform_println prints, apply_ite Prod.fst]
      exact decides _ _
    · rw [not_not.mp prints]
      exact iff_of_true rfl (by decide : Latin1.IsText "")
  | printByte => exact iff_of_true rfl trivial
  | indent => exact iff_of_true rfl trivial
  | dedent => exact iff_of_true rfl trivial

namespace Holds

/-- A call that does not end its line is one more call on it. -/
lemma extend (h : Holds width closed line s) (stays : ¬ call.Closes) :
    Holds width closed (line ++ [call]) (s.perform call).2 := by
  by_cases prints : call.Prints
  · rw [perform_of_prints prints stays]
    exact h.put prints
  · rw [perform_of_silent prints stays]
    exact h.silent prints

/-- A call that ends its line is the last one on it. -/
lemma close (h : Holds width closed line s) (closes : call.Closes) :
    Holds width (closed ++ [line ++ [call]]) [] (s.perform call).2 := by
  rw [perform_of_closes closes]
  apply newline
  split
  case isTrue prints => exact h.put prints
  case isFalse silent =>
    have kept := h.silent silent
    rw [Call.turn_of_closes closes, Int.mul_zero, Int.add_zero] at kept
    exact kept

end Holds

/-- Calls in order are those on closed lines, each ended by its last call, and those on the line
that is still open. -/
structure AreLines (calls : List Call) (closed : List (List Call)) (line : List Call) : Prop where
  flatten : closed.flatten ++ line = calls
  closed : ∀ l ∈ closed, ∃ front last, l = front ++ [last] ∧ last.Closes ∧
    ∀ call ∈ front, ¬ call.Closes
  line : ∀ call ∈ line, ¬ call.Closes

namespace AreLines

variable {calls : List Call}

/-- A call that does not end its line is made on the open line. -/
lemma extend (h : AreLines calls closed line) (stays : ¬ call.Closes) :
    AreLines (calls ++ [call]) closed (line ++ [call]) where
  flatten := by rw [← List.append_assoc, h.flatten]
  closed := h.closed
  line := List.forall_mem_append.mpr ⟨h.line, List.forall_mem_singleton.mpr stays⟩

/-- A call that ends its line closes it. -/
lemma close (h : AreLines calls closed line) (closes : call.Closes) :
    AreLines (calls ++ [call]) (closed ++ [line ++ [call]]) [] where
  flatten := by
    rw [List.flatten_append, List.flatten_singleton, List.append_nil, ← List.append_assoc,
      h.flatten]
  closed := List.forall_mem_append.mpr
    ⟨h.closed, List.forall_mem_singleton.mpr ⟨line, call, rfl, closes, h.line⟩⟩
  line := List.forall_mem_nil _

end AreLines

/-- After any calls the output has the lines that the calls divide into. -/
lemma exists_holds (width : Int) (calls : List Call) :
    ∃ closed line, AreLines calls closed line ∧
      Holds width closed line ((empty width).performAll calls) := by
  -- A call goes to the line that the calls before it left open, so the last call comes off first.
  induction calls using List.reverseRecOn with
  | nil => exact ⟨[], [], ⟨rfl, List.forall_mem_nil _, List.forall_mem_nil _⟩, .empty width⟩
  | append_singleton calls call ih =>
    obtain ⟨closed, line, lines, holds⟩ := ih
    rw [performAll, List.foldl_append]
    by_cases closes : call.Closes
    · exact ⟨_, _, lines.close closes, holds.close closes⟩
    · exact ⟨_, _, lines.extend closes, holds.extend closes⟩

/-- After any calls on a fresh output, refused ones among them, the level is as many widths as there
are indentations that were not undone.  What is written are the closed lines, each with its line
feed, and the open line, where a line without a printing call is empty and any other one has the
indentation of its first printing call in front of what its calls put on it.  The output stands at
the start of a line exactly if no call on the open line prints.  A call is refused only for its
text. -/
theorem performAll_lines (width : Int) (calls : List Call) :
    ((empty width).performAll calls).level =
      width * (calls.count .indent - calls.count .dedent) ∧
    (∃ closed line, AreLines calls closed line ∧
      ((empty width).performAll calls).written.toList =
        linesBytes width [] closed ++ lineBytes width closed.flatten line ∧
      (((empty width).performAll calls).atLineStart = true ↔ ∀ call ∈ line, ¬ call.Prints)) ∧
    ∀ call, (((empty width).performAll calls).perform call).1 = .ok () ↔ call.HasText := by
  obtain ⟨closed, line, lines, holds⟩ := exists_holds width calls
  refine ⟨?_, ⟨closed, line, lines, holds.written, holds.atLineStart⟩, perform_eq_ok_iff _⟩
  rw [holds.level, lines.flatten]
  rfl

-- The refused text begins its line, so the line keeps the level of that moment.
example :
    ((empty 2).performAll [.indent, .println "", .print "€", .dedent, .print "a",
      .printByte 0x182, .println ""]).written.toList =
      [0x0A, 0x20, 0x20, 0x61, 0x82, 0x0A] := by decide

end LuaChunk.Sink
