import LuaChunk.Proofs.Double.Overflow
import LuaChunk.Proofs.Encode.Written
import LuaChunk.Proofs.Text

/-!
# The first fault of a function

If its lists and strings are not too long, the writing of a function can only stop at an `Item`: a
name, a field of one or four bytes, a whole number or a bare value among its constants.
`Emission.stopsAt_proto` says that it stops at the first item that cannot be written, in the order
in which `Proto.items` lists them: the functions nested in a function come behind its constants and
in front of its lines.
-/

namespace LuaChunk

/-- A number that fits four bytes. -/
def IsWord (n : Int) : Prop :=
  0 ≤ n ∧ n < 2 ^ 32

/-- A number that fits a byte without a sign. -/
def IsByte (n : Int) : Prop :=
  0 ≤ n ∧ n < 256

instance : DecidablePred IsWord :=
  fun n => inferInstanceAs (Decidable (0 ≤ n ∧ n < 2 ^ 32))

instance : DecidablePred IsByte :=
  fun n => inferInstanceAs (Decidable (0 ≤ n ∧ n < 256))

/-- Something in a function that may be impossible to write. -/
inductive Item
  | name (text : String)
  /-- An integer or an instruction. -/
  | word (n : Int)
  /-- A field of one byte or the number of a truth value. -/
  | byte (n : Int)
  /-- A whole number, which is written as a double. -/
  | whole (n : Int)
  /-- A value that is not a constant. -/
  | foreign (v : Value)

namespace Item

/-- An item is in the range of what it is written as. -/
def IsWritable : Item → Prop
  | name text => Latin1.IsText text
  | word n => IsWord n
  | byte n => IsByte n
  | whole n => n.natAbs < Double.overflowBound
  | foreign _ => False

instance : DecidablePred IsWritable
  | name text => inferInstanceAs (Decidable (Latin1.IsText text))
  | word n => inferInstanceAs (Decidable (IsWord n))
  | byte n => inferInstanceAs (Decidable (IsByte n))
  | whole n => inferInstanceAs (Decidable (n.natAbs < Double.overflowBound))
  | foreign _ => inferInstanceAs (Decidable False)

/-- The fault of an item that cannot be written. -/
def fault : Item → WriteFault
  | name text => .unencodable text
  | word n => .fieldRange 4 n
  | byte n => .byteRange n
  | whole n => .overflow n
  | foreign v => .foreign v

/-- The name under which the fault of an item is reported.  An integer with too many digits cannot
be shown in the message about it. -/
def errorName : Item → String
  | name _ => "UnicodeEncodeError"
  | word _ => "struct.error"
  | byte _ => "ValueError"
  | whole _ => "struct.error"
  | foreign v => if v.IsShort then "TypeError" else "ValueError"

/-- The fault of an item, if it cannot be written. -/
def fault? (item : Item) : Option WriteFault :=
  if item.IsWritable then none else some item.fault

/-- The fault of an item is reported under the name given for the item. -/
lemma name_fault (item : Item) : item.fault.name = item.errorName := by
  cases item with
  | foreign v =>
    rw [fault, WriteFault.name, errorName]
    by_cases short : v.IsShort
    · obtain ⟨text, shown⟩ := Value.exists_display_iff.mpr short
      rw [shown, if_pos short]
    · obtain ⟨fault, refused⟩ := Value.exists_display_eq_error short
      rw [refused, if_neg short]
      rfl
  | _ => rfl

/-- An item has no fault exactly if it can be written. -/
lemma fault?_eq_none_iff {item : Item} : item.fault? = none ↔ item.IsWritable := by
  unfold fault?
  split
  case isTrue writable => exact iff_of_true rfl writable
  case isFalse refused => exact iff_of_false nofun refused

/-- An item has a fault exactly if it cannot be written, and then it is its own. -/
lemma fault?_eq_some_iff {item : Item} {fault : WriteFault} :
    item.fault? = some fault ↔ ¬ item.IsWritable ∧ fault = item.fault := by
  unfold fault?
  split
  case isTrue writable => exact ⟨nofun, fun h => absurd writable h.1⟩
  case isFalse refused =>
    rw [Option.some.injEq, eq_comm]
    exact (and_iff_right refused).symm

end Item

/-- The items of a constant: strings and doubles can always be written. -/
def PoolEntry.items : PoolEntry → List Item
  | .nil => []
  | .boolean v => [.byte v]
  | .number (.whole n) => [.whole n]
  | .number (.double _) => []
  | .string _ => []
  | .foreign v => [.foreign v]

/-- The items of a local variable: its name and its range. -/
def LocalVariable.items (l : LocalVariable) : List Item :=
  [.name l.name, .word l.first, .word l.last]

/-- The items of a function in front of the functions nested in it. -/
def FunctionBody.itemsBefore (b : FunctionBody) : List Item :=
  .name b.source :: .word b.firstLine :: .word b.lastLine :: .byte b.upvalueCount ::
    .byte b.parameterCount :: .byte b.varargFlag :: .byte b.stackSize ::
    (b.code.map Item.word ++ b.constants.flatMap PoolEntry.items)

/-- The items of a function behind the functions nested in it. -/
def FunctionBody.itemsAfter (b : FunctionBody) : List Item :=
  b.lines.map Item.word ++ b.locals.flatMap LocalVariable.items ++ b.upvalues.map Item.name

mutual

/-- The items of a function in the order in which they are written. -/
def Proto.items : Proto → List Item
  | ⟨body, nested⟩ => body.itemsBefore ++ Proto.itemsOf nested ++ body.itemsAfter

/-- The items of functions, one after another. -/
def Proto.itemsOf : List Proto → List Item
  | [] => []
  | p :: rest => p.items ++ Proto.itemsOf rest

end

/-- The items of a list of functions are those of its members in order. -/
lemma Proto.itemsOf_eq_flatMap (ps : List Proto) : itemsOf ps = ps.flatMap items := by
  induction ps with
  | nil => rfl
  | cons p ps ih => rw [itemsOf, ih, List.flatMap_cons]

/-- A constant is in the range of what it is written as. -/
def PoolEntry.IsWritable : PoolEntry → Prop
  | .nil => True
  | .boolean v => IsByte v
  | .number (.whole n) => n.natAbs < Double.overflowBound
  | .number (.double _) => True
  | .string _ => True
  | .foreign _ => False

/-- Each field of a function is in the range of what it is written as. -/
structure FunctionBody.IsWritable (b : FunctionBody) : Prop where
  source : Latin1.IsText b.source
  firstLine : IsWord b.firstLine
  lastLine : IsWord b.lastLine
  upvalueCount : IsByte b.upvalueCount
  parameterCount : IsByte b.parameterCount
  varargFlag : IsByte b.varargFlag
  stackSize : IsByte b.stackSize
  code : ∀ n ∈ b.code, IsWord n
  constants : ∀ v ∈ b.constants, v.IsWritable
  lines : ∀ n ∈ b.lines, IsWord n
  locals : ∀ l ∈ b.locals, Latin1.IsText l.name ∧ IsWord l.first ∧ IsWord l.last
  upvalues : ∀ text ∈ b.upvalues, Latin1.IsText text

/-- A constant can be written exactly if its items can. -/
lemma PoolEntry.isWritable_iff {v : PoolEntry} :
    v.IsWritable ↔ ∀ item ∈ v.items, item.IsWritable := by
  cases v with
  | number n => cases n <;> simp [IsWritable, items, Item.IsWritable]
  | _ => simp [IsWritable, items, Item.IsWritable]

/-- A function can be written by itself exactly if its items, in front and behind, can. -/
lemma FunctionBody.isWritable_iff {b : FunctionBody} :
    b.IsWritable ↔ (∀ item ∈ b.itemsBefore, item.IsWritable) ∧
      ∀ item ∈ b.itemsAfter, item.IsWritable := by
  have constant (v : PoolEntry) : (∀ item ∈ v.items, item.IsWritable) ↔ v.IsWritable :=
    PoolEntry.isWritable_iff.symm
  simp only [itemsBefore, itemsAfter, LocalVariable.items, List.forall_mem_append,
    List.forall_mem_cons, List.not_mem_nil, false_imp_iff, implies_true, and_true,
    List.forall_mem_map, List.forall_mem_flatMap, constant]
  constructor
  · intro ⟨source, first, last, upvalueCount, parameters, vararg, stack, code, constants, lines,
      locals, upvalues⟩
    exact ⟨⟨source, first, last, upvalueCount, parameters, vararg, stack, code, constants⟩,
      ⟨lines, locals⟩, upvalues⟩
  · intro ⟨⟨source, first, last, upvalueCount, parameters, vararg, stack, code, constants⟩,
      ⟨lines, locals⟩, upvalues⟩
    exact ⟨source, first, last, upvalueCount, parameters, vararg, stack, code, constants, lines,
      locals, upvalues⟩

/-- The items in a tree can be written if the fields of each function in it can be written. -/
lemma Proto.forall_items_iff {p : Proto} :
    (∀ item ∈ p.items, item.IsWritable) ↔ ∀ f ∈ p.functions, f.body.IsWritable := by
  induction p using Proto.nestedInduction with
  | mk body nested ih =>
    rw [items, itemsOf_eq_flatMap, List.forall_mem_append, List.forall_mem_append,
      List.forall_mem_flatMap, forall_functions_iff, FunctionBody.isWritable_iff]
    have inner : (∀ q ∈ nested, ∀ item ∈ q.items, item.IsWritable) ↔
        ∀ q ∈ nested, ∀ f ∈ q.functions, f.body.IsWritable := forall₂_congr ih
    rw [inner]
    exact and_right_comm

/-- The length of a constant that is a string. -/
def PoolEntry.stringLength : PoolEntry → Nat
  | .string data => data.length
  | _ => 0

/-- The lengths of the lists and strings of a function fit the fields that they are written to. -/
structure Proto.IsCountable (p : Proto) : Prop where
  code : p.body.code.length < 2 ^ 32
  constants : p.body.constants.length < 2 ^ 32
  nested : p.nested.length < 2 ^ 32
  lines : p.body.lines.length < 2 ^ 32
  locals : p.body.locals.length < 2 ^ 32
  upvalues : p.body.upvalues.length < 2 ^ 32
  source : p.body.source.length < 2 ^ 64 - 1
  strings : ∀ v ∈ p.body.constants, v.stringLength < 2 ^ 64 - 1
  localNames : ∀ l ∈ p.body.locals, l.name.length < 2 ^ 64 - 1
  upvalueNames : ∀ text ∈ p.body.upvalues, text.length < 2 ^ 64 - 1

instance (p : Proto) : Decidable p.IsCountable :=
  decidable_of_iff
    (p.body.code.length < 2 ^ 32 ∧ p.body.constants.length < 2 ^ 32 ∧ p.nested.length < 2 ^ 32 ∧
      p.body.lines.length < 2 ^ 32 ∧ p.body.locals.length < 2 ^ 32 ∧
      p.body.upvalues.length < 2 ^ 32 ∧ p.body.source.length < 2 ^ 64 - 1 ∧
      (∀ v ∈ p.body.constants, v.stringLength < 2 ^ 64 - 1) ∧
      (∀ l ∈ p.body.locals, l.name.length < 2 ^ 64 - 1) ∧
      ∀ text ∈ p.body.upvalues, text.length < 2 ^ 64 - 1)
    ⟨fun ⟨code, constants, nested, lines, locals, upvalues, source, strings, names, others⟩ =>
        ⟨code, constants, nested, lines, locals, upvalues, source, strings, names, others⟩,
      fun ⟨code, constants, nested, lines, locals, upvalues, source, strings, names, others⟩ =>
        ⟨code, constants, nested, lines, locals, upvalues, source, strings, names, others⟩⟩

namespace Emission

/-- An emission is stopped by the first of the given items that cannot be written. -/
def StopsAt (e : Emission) (items : List Item) : Prop :=
  e.stop = items.findSome? Item.fault?

namespace StopsAt

/-- A complete emission is not stopped, as no items stop one. -/
lemma nil {e : Emission} (complete : e.stop = none) : e.StopsAt [] :=
  complete

/-- An emission of one item that is refused with the fault of the item is stopped by it. -/
lemma single {e : Emission} {item : Item} (complete : item.IsWritable → e.stop = none)
    (refused : ¬ item.IsWritable → e.stop = some item.fault) : e.StopsAt [item] := by
  unfold StopsAt
  rw [List.findSome?_singleton]
  by_cases writable : item.IsWritable
  · rw [complete writable, Item.fault?_eq_none_iff.mpr writable]
  · rw [refused writable, Item.fault?_eq_some_iff.mpr ⟨writable, rfl⟩]

/-- Of two emissions in order, the first one is stopped first. -/
lemma append {a b : Emission} {front back : List Item} (ha : a.StopsAt front)
    (hb : b.StopsAt back) : (a ++ b).StopsAt (front ++ back) := by
  unfold StopsAt at ha hb ⊢
  rw [stop_append, List.findSome?_append, ha, hb]

/-- Emissions one after another are stopped by the first item of the first one that is stopped. -/
lemma concat {α : Type} {item : α → Emission} {items : α → List Item} {xs : List α}
    (h : ∀ x ∈ xs, (item x).StopsAt (items x)) :
    (concat (xs.map item)).StopsAt (xs.flatMap items) := by
  induction xs with
  | nil => exact nil rfl
  | cons x xs ih =>
    rw [List.forall_mem_cons] at h
    exact h.1.append (ih h.2)

end StopsAt

/-- An integer is stopped by its range. -/
lemma stopsAt_int (n : Int) : (int n).StopsAt [.word n] := by
  apply StopsAt.single
  · intro ⟨nonneg, lt⟩
    obtain ⟨m, rfl⟩ := Int.eq_ofNat_of_zero_le nonneg
    exact stop_field (by omega)
  · intro refused
    have e : int n = stopped (.fieldRange 4 n) := if_neg refused
    rw [e]
    rfl

/-- A byte is stopped by its range. -/
lemma stopsAt_byte (n : Int) : (byte n).StopsAt [.byte n] := by
  apply StopsAt.single
  · intro ⟨nonneg, lt⟩
    rw [byte, if_pos ⟨nonneg, lt⟩]
    rfl
  · intro refused
    have e : byte n = stopped (.byteRange n) := if_neg refused
    rw [e]
    rfl

/-- A name is stopped by its characters only, if its length fits the size field. -/
lemma stopsAt_name {text : String} (short : text.length < 2 ^ 64 - 1) :
    (name text).StopsAt [.name text] := by
  apply StopsAt.single
  · intro (isText : Latin1.IsText text)
    rw [name, isText.encode?_eq]
    apply stop_string
    rw [Latin1.bytes, List.length_map, String.length_toList]
    omega
  · intro (refused : ¬ Latin1.IsText text)
    unfold name
    split
    case h_1 encoded => exact absurd (Latin1.IsText.of_encode? encoded).1 refused
    case h_2 => rfl

/-- A whole number is written as the double nearest to it, or stopped by its size. -/
lemma number_whole_eq (n : Int) :
    number (.whole n) = (Double.ofInt? n).elim (stopped (.overflow n)) fun d =>
      ofBytes (toLittleEndian 8 d.word) := by
  obtain ⟨round, e⟩ : ∃ round : Int → Option Double, round = Double.ofInt? := ⟨_, rfl⟩
  rw [number.eq_def, ← e]
  dsimp only
  cases round n with
  | none => rfl
  | some d => rfl

/-- A whole number is stopped by its size. -/
lemma stopsAt_whole (n : Int) : (number (.whole n)).StopsAt [.whole n] := by
  rw [number_whole_eq]
  apply StopsAt.single
  · intro small
    obtain ⟨d, rounded⟩ := Double.exists_ofInt?_iff.mpr small
    rw [rounded]
    rfl
  · intro large
    rw [Option.eq_none_iff_forall_ne_some.mpr fun d rounded =>
      large (Double.exists_ofInt?_iff.mp ⟨d, rounded⟩)]
    rfl

/-- A constant is stopped by its items. -/
lemma stopsAt_constant {v : PoolEntry} (short : v.stringLength < 2 ^ 64 - 1) :
    (constant v).StopsAt v.items := by
  cases v with
  | nil => exact .nil rfl
  | boolean v => exact (StopsAt.nil rfl).append (stopsAt_byte v)
  | number n =>
    cases n with
    | whole n => exact (StopsAt.nil rfl).append (stopsAt_whole n)
    | double d => exact .nil rfl
  | string data =>
    have short : data.length < 2 ^ 64 - 1 := short
    exact (StopsAt.nil rfl).append (.nil (stop_terminated (by omega)))
  | foreign v => exact .single False.elim fun _ => rfl

/-- A local variable is stopped by its items. -/
lemma stopsAt_localVariable {l : LocalVariable} (short : l.name.length < 2 ^ 64 - 1) :
    (localVariable l).StopsAt l.items :=
  ((stopsAt_name short).append (stopsAt_int l.first)).append (stopsAt_int l.last)

/-- A list that is not too long is stopped at the first member that is stopped. -/
lemma stopsAt_list {α : Type} {item : α → Emission} {items : α → List Item} {xs : List α}
    (short : xs.length < 2 ^ 32) (h : ∀ x ∈ xs, (item x).StopsAt (items x)) :
    (list item xs).StopsAt (xs.flatMap items) :=
  (StopsAt.nil (stop_field (by omega))).append (.concat h)

/-- A list whose members are one item each. -/
lemma stopsAt_list_map {α : Type} {item : α → Emission} {f : α → Item} {xs : List α}
    (short : xs.length < 2 ^ 32) (h : ∀ x ∈ xs, (item x).StopsAt [f x]) :
    (list item xs).StopsAt (xs.map f) := by
  rw [List.map_eq_flatMap]
  exact stopsAt_list short h

/-- The fields in front of the nested functions are stopped by their items. -/
lemma stopsAt_bodyBefore {p : Proto} (countable : p.IsCountable) :
    (bodyBefore p.body).StopsAt p.body.itemsBefore :=
  stopsAt_name countable.source
    |>.append (stopsAt_int p.body.firstLine)
    |>.append (stopsAt_int p.body.lastLine)
    |>.append (stopsAt_byte p.body.upvalueCount)
    |>.append (stopsAt_byte p.body.parameterCount)
    |>.append (stopsAt_byte p.body.varargFlag)
    |>.append (stopsAt_byte p.body.stackSize)
    |>.append (stopsAt_list_map countable.code fun n _ => stopsAt_int n)
    |>.append (stopsAt_list countable.constants fun v mem =>
      stopsAt_constant (countable.strings v mem))

/-- The fields behind the nested functions are stopped by their items. -/
lemma stopsAt_bodyAfter {p : Proto} (countable : p.IsCountable) :
    (bodyAfter p.body).StopsAt p.body.itemsAfter :=
  stopsAt_list_map countable.lines (fun n _ => stopsAt_int n)
    |>.append (stopsAt_list countable.locals fun l mem =>
      stopsAt_localVariable (countable.localNames l mem))
    |>.append (stopsAt_list_map countable.upvalues fun text mem =>
      stopsAt_name (countable.upvalueNames text mem))

/-- The writing of a function stops at the first of its items that cannot be written. -/
lemma stopsAt_proto {p : Proto} (countable : ∀ f ∈ p.functions, f.IsCountable) :
    (proto p).StopsAt p.items := by
  induction p using Proto.nestedInduction with
  | mk body nested ih =>
    rw [Proto.forall_functions_iff] at countable
    obtain ⟨own, others⟩ := countable
    have before := stopsAt_bodyBefore own
    have inner := stopsAt_list own.nested fun q mem => ih q mem (others q mem)
    have after := stopsAt_bodyAfter own
    rw [proto_eq, Proto.items, Proto.itemsOf_eq_flatMap]
    exact (before.append inner).append after

end Emission

namespace Proto

/-- The writing of a function whose lists and strings are not too long is stopped by the first item
that cannot be written. -/
lemma stop_encode {p : Proto} (countable : ∀ f ∈ p.functions, f.IsCountable) :
    (Emission.header ++ Emission.proto p).stop = p.items.findSome? Item.fault? :=
  (Emission.StopsAt.nil rfl).append (Emission.stopsAt_proto countable)

/-- The fault of a function is that of the first item that cannot be written. -/
lemma encode_eq_error_iff {p : Proto} (countable : ∀ f ∈ p.functions, f.IsCountable)
    {fault : WriteFault} :
    p.encode = .error fault ↔ ∃ (before : List Item) (item : Item) (after : List Item),
      p.items = before ++ item :: after ∧ (∀ earlier ∈ before, earlier.IsWritable) ∧
      ¬ item.IsWritable ∧ fault = item.fault := by
  rw [encode, Emission.toExcept_eq_error_iff, stop_encode countable, List.findSome?_eq_some_iff]
  simp only [Item.fault?_eq_some_iff, Item.fault?_eq_none_iff]
  constructor
  · intro ⟨before, item, after, e, refused, earlier⟩
    exact ⟨before, item, after, e, earlier, refused⟩
  · intro ⟨before, item, after, e, earlier, refused⟩
    exact ⟨before, item, after, e, refused, earlier⟩

/-- A function whose lists and strings are not too long is written exactly if all fields in its tree
can be written; otherwise the fault is that of the first item that cannot. -/
theorem encode_firstFault {p : Proto} (countable : ∀ f ∈ p.functions, f.IsCountable) :
    ((∃ bytes, p.encode = .ok bytes) ↔ ∀ f ∈ p.functions, f.body.IsWritable) ∧
    ∀ fault, p.encode = .error fault ↔
      ∃ (before : List Item) (item : Item) (after : List Item),
        p.items = before ++ item :: after ∧
        (∀ earlier ∈ before, earlier.IsWritable) ∧ ¬ item.IsWritable ∧
        fault = item.fault ∧ fault.name = item.errorName := by
  constructor
  · rw [encode, Emission.exists_toExcept_iff, stop_encode countable, List.findSome?_eq_none_iff,
      ← forall_items_iff]
    exact forall₂_congr fun item _ => Item.fault?_eq_none_iff
  · intro fault
    rw [encode_eq_error_iff countable]
    constructor
    · rintro ⟨before, item, after, e, earlier, refused, rfl⟩
      exact ⟨before, item, after, e, earlier, refused, rfl, item.name_fault⟩
    · rintro ⟨before, item, after, e, earlier, refused, eq, -⟩
      exact ⟨before, item, after, e, earlier, refused, eq⟩

/-- A function that can be written, apart from its line before line zero and from the functions
nested in it: the second one has too many parameters for one byte. -/
def faultySample : Proto where
  body :=
    { (default : FunctionBody) with
      source := "é", constants := [.boolean 255, .number (.whole (2 ^ 53 + 1))], lines := [-1] }
  nested :=
    [⟨{ (default : FunctionBody) with upvalues := ["a"] }, []⟩,
      ⟨{ (default : FunctionBody) with
        parameterCount := 256, constants := [.foreign .absent] }, []⟩]

/-- The parameters of the nested function are in front of everything else that cannot be written,
and what is in front of them can be written. -/
theorem encode_firstFault_faultySample :
    (∀ f ∈ faultySample.functions, f.IsCountable) ∧
      faultySample.encode = .error (.byteRange 256) ∧
      ∃ bytes, encode ⟨{ faultySample.body with lines := [] }, []⟩ = .ok bytes := by
  have countable : ∀ f ∈ faultySample.functions, f.IsCountable := by decide +kernel
  refine ⟨countable, ((encode_firstFault countable).2 _).mpr ?_, ?_⟩
  · refine ⟨faultySample.items.take 21, .byte 256, faultySample.items.drop 22, rfl, ?_, ?_, rfl,
      rfl⟩
    · decide +kernel
    · decide
  · apply (encode_firstFault (by decide +kernel)).1.mpr
    exact forall_items_iff.mp (by decide +kernel)

/-- A function whose only constant is a whole number too large for a double. -/
def largeSample : Proto where
  body := { (default : FunctionBody) with constants := [.number (.whole (2 ^ 1024))] }
  nested := []

/-- A function whose only constant is a bare value. -/
def foreignSample (v : Value) : Proto where
  body := { (default : FunctionBody) with constants := [.foreign v] }
  nested := []

/-- A whole number that is too large for a double is not reported as an overflow, and an integer
with too many digits among the constants not by its type. -/
theorem not_forall_name_overflow :
    (¬ ∀ p : Proto, (∀ f ∈ p.functions, f.IsCountable) →
      ∀ (before : List Item) (n : Int) (after : List Item),
        p.items = before ++ Item.whole n :: after →
        (∀ earlier ∈ before, earlier.IsWritable) → ¬ (Item.whole n).IsWritable →
          ∃ fault, p.encode = .error fault ∧ fault.name = "OverflowError") ∧
    ¬ ∀ p : Proto, (∀ f ∈ p.functions, f.IsCountable) →
      ∀ (before : List Item) (v : Value) (after : List Item),
        p.items = before ++ Item.foreign v :: after →
        (∀ earlier ∈ before, earlier.IsWritable) →
          ∃ fault, p.encode = .error fault ∧ fault.name = "TypeError" := by
  constructor
  · intro always
    have failed : largeSample.encode = .error (.overflow (2 ^ 1024)) :=
      Emission.toExcept_eq_error_iff.mpr (by decide +kernel)
    obtain ⟨fault, failed', named⟩ := always largeSample (by decide +kernel)
      (largeSample.items.take 7) (2 ^ 1024) [] rfl (by decide +kernel) (by decide +kernel)
    rw [failed] at failed'
    cases failed'
    exact absurd named (by decide)
  · intro always
    obtain ⟨n, digits⟩ : ∃ n, ¬ IsShort n := ⟨_, not_isShort_ten_pow⟩
    obtain ⟨v, long⟩ : ∃ v : Value, ¬ v.IsShort := ⟨.integer n, digits⟩
    -- The value is the only item of the sample that is not the same for all values.
    have writable : ∀ earlier ∈ (foreignSample .absent).items.take 7, earlier.IsWritable := by
      decide +kernel
    have plain : (foreignSample .absent).IsCountable := by decide +kernel
    have countable : ∀ f ∈ (foreignSample v).functions, f.IsCountable :=
      List.forall_mem_singleton.mpr
        { plain with strings := List.forall_mem_singleton.mpr (by decide : 0 < 2 ^ 64 - 1) }
    have failed : (foreignSample v).encode = .error (.foreign v) :=
      (encode_eq_error_iff countable).mpr
        ⟨_, .foreign v, [], rfl, writable, not_false, rfl⟩
    obtain ⟨fault, failed', named⟩ := always (foreignSample v) countable _ v [] rfl writable
    rw [failed] at failed'
    obtain rfl := Except.error.inj failed'
    have reported := Item.name_fault (.foreign v)
    rw [Item.errorName, if_neg long] at reported
    exact absurd (named.symm.trans reported) (by decide)

end Proto

end LuaChunk
