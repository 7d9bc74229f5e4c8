import LuaChunk.Proofs.Listing.Success
import LuaChunk.Proofs.Sink

/-!
# What printing does to an output

A literal is printed in as many parts as its constant has pieces and multi-byte bytes, and each part
would begin the line.  `Sink.added` says what a single text adds to an output, and
`Constant.printIn_eq` that a constant adds what its literal would add as a single text, whatever was
printed before and however deep the line is indented.  A whole number with too many digits has no
literal and adds nothing.
-/

namespace LuaChunk

namespace Sink

/-- The bytes that a text adds to an output: at the start of a line the indentation comes first. -/
def added (s : Sink) (bs : Bytes) : Bytes :=
  (if s.atLineStart then List.replicate s.level.toNat 0x20 else []) ++ bs

/-- Nothing but the bytes and the start of the line is changed by a text. -/
lemma put_eq (s : Sink) (bs : Bytes) :
    s.put bs = { s.append (s.added bs) with atLineStart := false } := by
  obtain ⟨written, level, width, atLineStart⟩ := s
  cases atLineStart with
  | false => rfl
  | true =>
    apply append_append ⟨written, level, width, false⟩

/-- What is written after a text ends with what the text adds. -/
lemma written_put (s : Sink) (bs : Bytes) :
    (s.put bs).written.toList = s.written.toList ++ s.added bs := by
  rw [put_eq]
  exact s.toList_written_append _

end Sink

namespace Constant

/-- Prints a constant within the braces of a table or outside of them, which makes no difference. -/
def printIn (_braced : Bool) (c : Constant) : SinkM Unit :=
  c.printChecked

/-- What is printed of a constant on an output of its own, unless it is refused. -/
def rendered (braced : Bool) (c : Constant) : Except SinkFault Bytes :=
  match c.printIn braced (.empty Sink.defaultWidth) with
  | .ok _ s => .ok s.written.toList
  | .error e _ => .error e

/-- Unless it is a whole number with too many digits, a constant is printed without a failure on
every output, and as if its literal were printed at once: the literal is added, at the start of a
line with the indentation in front of it; the level stays and the line is begun.  The literal is
what is printed on an output of its own.  With too many digits there is no literal, and printing
fails for the same reason and leaves the output as it was. -/
theorem printIn_eq (c : Constant) (braced : Bool) (s : Sink) :
    (c.IsShort ∧ ∃ literal, c.literal = .ok literal ∧ c.rendered braced = .ok literal ∧
      c.printIn braced s = Sink.print (Latin1.decode literal) s ∧
      ∃ s', c.printIn braced s = .ok () s' ∧
        s'.written.toList = s.written.toList ++
          ((if s.atLineStart then List.replicate s.level.toNat 0x20 else []) ++ literal) ∧
        s'.level = s.level ∧ s'.width = s.width ∧ s'.atLineStart = false) ∨
    ∃ n : Int, c = number (.whole n) ∧ ¬ LuaChunk.IsShort n ∧ c.literal = .error ⟨n⟩ ∧
      c.rendered braced = .error (.overlong ⟨n⟩) ∧
      c.printIn braced s = .error (.overlong ⟨n⟩) s ∧
      (SinkFault.overlong ⟨n⟩).name = "ValueError" := by
  by_cases short : c.IsShort
  · obtain ⟨literal, spelt⟩ := exists_literal_iff.mpr short
    have printed (s : Sink) : c.printIn braced s = .ok () (s.put literal) := by
      rw [printIn, printChecked_eq, print_of_literal spelt]
    refine .inl ⟨short, literal, spelt, ?_, ?_, s.put literal, printed s, s.written_put _, ?_⟩
    · rw [rendered, printed]
      exact congrArg Except.ok (Sink.written_put _ _)
    · rw [printed, Sink.print_decode]
    · rw [Sink.put_eq]
      exact ⟨rfl, rfl, rfl⟩
  · obtain ⟨n, rfl, long⟩ := exists_of_not_isShort short
    have refused := literal_of_not_isShort long
    have fails (s : Sink) : (number (.whole n)).printIn braced s = .error (.overlong ⟨n⟩) s := by
      rw [printIn, printChecked_eq, print_of_overlong refused]
    refine .inr ⟨n, rfl, long, refused, ?_, fails s, rfl⟩
    rw [rendered, fails]

/-- Not every constant can be printed. -/
theorem not_forall_printIn :
    ¬ ∀ (c : Constant) (s : Sink), ∃ s', c.printIn false s = .ok () s' := by
  intro always
  obtain ⟨n, long⟩ : ∃ n : Int, ¬ LuaChunk.IsShort n := ⟨_, not_isShort_ten_pow⟩
  obtain ⟨s', printed⟩ := always (number (.whole n)) (.empty Sink.defaultWidth)
  rw [printIn, printChecked_eq, print_of_overlong (literal_of_not_isShort long)] at printed
  cases printed

end Constant

end LuaChunk
