import Mathlib
import LuaChunk.Sink

/-!
# Printing in parts

What is printed on a line in several parts is printed as one text: only the first part begins the
line.  So a constant, which is printed piece by piece and its multi-byte runs byte by byte, is
printed as its literal at once (`Constant.print_of_literal`), and a line that is begun and ended
adds its indentation, its text and a line feed (`Sink.newline_put`).
-/

namespace LuaChunk

namespace Sink

/-- Bytes are written behind those written before. -/
lemma toList_written_append (s : Sink) (bs : Bytes) :
    (s.append bs).written.toList = s.written.toList ++ bs :=
  Array.toList_appendList

/-- Bytes are written one after another. -/
lemma append_append (s : Sink) (bs bs' : Bytes) :
    (s.append bs).append bs' = s.append (bs ++ bs') := by
  have same : (s.append bs).written.appendList bs' = s.written.appendList (bs ++ bs') := by
    apply Array.toList_inj.mp
    calc ((s.append bs).written.appendList bs').toList
        = (s.append bs).written.toList ++ bs' := Array.toList_appendList
      _ = s.written.toList ++ (bs ++ bs') := by rw [toList_written_append, List.append_assoc]
      _ = (s.written.appendList (bs ++ bs')).toList := Array.toList_appendList.symm
  exact congrArg (fun written => { s with written }) same

/-- Undoing an indentation gives the output before it. -/
lemma dedent_indent (s : Sink) : s.indent.dedent = s := by
  have level : s.level + s.width - s.width = s.level := Int.add_sub_cancel _ _
  exact congrArg (fun level => { s with level }) level

/-- A line is begun once. -/
lemma begin_put (s : Sink) (bs : Bytes) : (s.put bs).begin = s.put bs := by
  have begun : (s.put bs).atLineStart = false := by
    unfold put begin
    split
    case isTrue => rfl
    case isFalse started => exact Bool.eq_false_of_not_eq_true started
  rw [begin, begun]
  rfl

/-- Two texts are printed as one. -/
lemma put_put (s : Sink) (bs bs' : Bytes) : (s.put bs).put bs' = s.put (bs ++ bs') := by
  have begun := s.begin_put bs
  unfold put at begun ⊢
  rw [begun, append_append]

/-- A multi-byte run is printed byte by byte as if at once. -/
lemma foldl_put (s : Sink) (bs run : Bytes) :
    run.foldl (fun s b => s.put [b]) (s.put bs) = s.put (bs ++ run) := by
  induction run generalizing bs with
  | nil => rw [List.foldl_nil, List.append_nil]
  | cons b run ih => rw [List.foldl_cons, put_put, ih, List.append_assoc, List.singleton_append]

/-- A line that is printed from its start is its indentation and its text. -/
lemma newline_put {s : Sink} (start : s.atLineStart = true) (bs : Bytes) :
    (s.put bs).newline = s.append (List.replicate s.level.toNat 0x20 ++ bs ++ [0x0A]) := by
  obtain ⟨written, level, width, atLineStart⟩ := s
  cases start
  rw [← append_append, ← append_append]
  rfl

end Sink

/-- A piece is printed as what it puts into the literal. -/
lemma Piece.print_put (piece : Piece) (s : Sink) (bs : Bytes) :
    piece.print (s.put bs) = s.put (bs ++ piece.written) := by
  cases piece with
  | raw run => exact s.foldl_put bs run
  | literal => exact s.put_put bs _
  | escape => exact s.put_put bs _
  | hex => exact s.put_put bs _

/-- Pieces are put on the line in order. -/
lemma foldl_print_put (ps : List Piece) (s : Sink) (bs : Bytes) :
    ps.foldl (fun s piece => piece.print s) (s.put bs) =
      s.put (bs ++ ps.flatMap Piece.written) := by
  induction ps generalizing bs with
  | nil => rw [List.foldl_nil, List.flatMap_nil, List.append_nil]
  | cons piece ps ih =>
    rw [List.foldl_cons, piece.print_put, ih, List.flatMap_cons, List.append_assoc]

/-- A string is printed as its literal. -/
lemma Sink.putQuoted_eq (data : Bytes) (s : Sink) : s.putQuoted data = s.put (quoted data) := by
  rw [putQuoted, foldl_print_put, put_put]
  rfl

/-- A constant that has a literal is printed as it. -/
theorem Constant.print_of_literal {c : Constant} {text : Bytes} (literal : c.literal = .ok text)
    (s : Sink) : c.print s = .ok () (s.put text) := by
  cases c with
  | string data =>
    obtain rfl := Except.ok.inj literal
    exact congrArg (EStateM.Result.ok ()) (s.putQuoted_eq data)
  | _ =>
    unfold print
    dsimp only
    rw [literal]

/-- Nothing is printed of a constant that has none. -/
theorem Constant.print_of_overlong {c : Constant} {fault : Overlong}
    (refused : c.literal = .error fault) (s : Sink) : c.print s = .error (.overlong fault) s := by
  cases c with
  | string data => cases refused
  | _ =>
    unfold print
    dsimp only
    rw [refused]

end LuaChunk
