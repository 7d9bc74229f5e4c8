import LuaChunk.Constant
import LuaChunk.Proofs.Literal.Cut
import LuaChunk.Proofs.Text

/-!
# What is shown of constants

No literal holds a control character of ASCII: those of a string are escaped, and the other
constants are words and numbers.
-/

namespace LuaChunk

/-- Every byte can stand on a line: none is a control character of ASCII. -/
def AreShown (bs : Bytes) : Prop :=
  ∀ b ∈ bs, 0x20 ≤ b

instance (bs : Bytes) : Decidable (AreShown bs) :=
  List.decidableBAll _ bs

namespace AreShown

variable {b : UInt8} {bs bs' : Bytes} {cs : List Char}

/-- A shown byte in front of shown bytes makes shown bytes. -/
lemma cons (first : 0x20 ≤ b) (others : AreShown bs) : AreShown (b :: bs) :=
  List.forall_mem_cons.mpr ⟨first, others⟩

/-- Shown bytes one behind the other are shown bytes. -/
lemma append (front : AreShown bs) (back : AreShown bs') : AreShown (bs ++ bs') :=
  List.forall_mem_append.mpr ⟨front, back⟩

/-- A shown byte may be repeated. -/
lemma replicate (h : 0x20 ≤ b) (n : Nat) : AreShown (List.replicate n b) := by
  intro b' mem
  rw [List.eq_of_mem_replicate mem]
  exact h

/-- The characters of numbers are shown bytes. -/
lemma of_numeric (h : AreNumeric cs) : AreShown (cs.map Char.toUInt8) := by
  intro b mem
  have plus : (0x20 : UInt8) ≤ 0x2B := by decide
  exact UInt8.le_trans plus (h.bounds_of_mem mem).1

/-- What is written of a piece has shown bytes only. -/
lemma written {p : Piece} (cut : p.IsCut) : AreShown p.written := by
  cases cut with
  | literal _ printable =>
    rw [isPrintable, Bool.and_eq_true, decide_eq_true_eq] at printable
    exact .cons printable.1 (by decide)
  | escape c => cases c <;> decide
  | raw long =>
    intro b mem
    have ascii : (0x20 : UInt8) ≤ 0x80 := by decide
    exact UInt8.le_trans ascii (le_of_mem_run long b mem)
  | @hex b =>
    have digit : ∀ n < 16, 0x20 ≤ (hexDigit n).toUInt8 := by decide
    have lt := b.toNat_lt
    exact .cons (by decide) (.cons (digit _ (by omega)) (.cons (digit _ (by omega)) (by decide)))

/-- The literal of a string has shown bytes only. -/
lemma quoted (data : Bytes) : AreShown (LuaChunk.quoted data) := by
  refine .append (.cons (by decide) ?_) (by decide)
  intro b mem
  obtain ⟨p, inside, mem⟩ := List.mem_flatMap.mp mem
  exact written (isCut_of_mem_pieces data p inside) b mem

/-- A literal has shown bytes only, whatever the constant. -/
lemma literal {c : Constant} {text : Bytes} (shown : c.literal = .ok text) : AreShown text := by
  cases c with
  | nil =>
    obtain rfl := Except.ok.inj shown
    decide
  | boolean b =>
    obtain rfl := Except.ok.inj shown
    cases b <;> decide
  | string data =>
    obtain rfl := Except.ok.inj shown
    exact quoted data
  | number v =>
    obtain ⟨_, spelled, rfl⟩ := Constant.literal_number_eq_ok_iff.mp shown
    exact .of_numeric (Number.areNumeric_text spelled)

end AreShown

end LuaChunk
