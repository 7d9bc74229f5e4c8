import LuaChunk.Listing
import LuaChunk.Proofs.Decode.Acceptance
import LuaChunk.Proofs.Literal.Cut
import LuaChunk.Proofs.Sink
import LuaChunk.Proofs.Text
import LuaChunk.Proofs.Tree

/-!
# Listings that succeed

A listing succeeds if the name of each function is Latin-1 text, each entry of each pool is a
constant and no number in it has too many digits.  All of this holds of every function that is read
from a chunk, so `exists_listing_of_readChunk` says that its listing cannot fail.

No text in the literal of a constant is refused: `Constant.printChecked` prints it text by text,
with each text checked, and does the same (`Constant.printChecked_eq`).
-/

namespace LuaChunk

namespace Sink

/-- Text in Latin-1 is put on the line. -/
lemma print_eq {text : String} (h : Latin1.IsText text) (s : Sink) :
    print text s = .ok () (s.put (Latin1.bytes text)) := by
  rw [print, h.encode?_eq]

/-- Decoded bytes are put on the line as they are. -/
lemma print_decode (bytes : Bytes) (s : Sink) :
    print (Latin1.decode bytes) s = .ok () (s.put bytes) := by
  rw [print, Latin1.encode?_decode]

/-- A line that is not empty is ended only if its text is not refused. -/
lemma println_of_ne {text : String} (nonempty : text ≠ "") (s : Sink) :
    println text s = match Latin1.encode? text with
      | some bytes => .ok () (s.put bytes).newline
      | none => .error (.unencodable text) s.begin := by
  have some : (!text.isEmpty) = true := by
    rw [String.isEmpty_eq_false_iff.mpr nonempty]
    rfl
  unfold println
  rw [if_pos some]
  simp only [Bind.bind, EStateM.bind, print]
  cases Latin1.encode? text with
  | some bytes => rfl
  | none => rfl

/-- Whether all bytes are ASCII. -/
def isAscii (bytes : Bytes) : Bool :=
  bytes.all (· < 0x80)

/-- Prints bytes as ASCII text; a byte that is not ASCII is a fault. -/
def printAscii (bytes : Bytes) : SinkM Unit := fun s =>
  if isAscii bytes then print (Latin1.decode bytes) s
  else .error (.unencodable (Latin1.decode bytes)) s

/-- ASCII bytes are put on the line as they are. -/
lemma printAscii_eq {bytes : Bytes} (ascii : isAscii bytes = true) (s : Sink) :
    printAscii bytes s = .ok () (s.put bytes) := by
  rw [printAscii, if_pos ascii, print_decode]

/-- A byte is put on the line as it is. -/
lemma printByte_eq (b : UInt8) (s : Sink) : s.printByte b.toNat = s.put [b] := by
  have low : lowByte (b.toNat : Int) = b := by
    apply UInt8.toNat_inj.mp
    have lt := b.toNat_lt
    rw [lowByte, UInt8.toNat_ofNat']
    omega
  rw [printByte, low]

/-- A loop over steps that succeed makes their changes in order. -/
lemma forM_eq {α : Type} {step : α → SinkM Unit} {change : Sink → α → Sink} {as : List α}
    (each : ∀ a ∈ as, ∀ s, step a s = .ok () (change s a)) (s : Sink) :
    forM as step s = .ok () (as.foldl change s) := by
  induction as generalizing s with
  | nil => rfl
  | cons a as ih =>
    rw [List.forall_mem_cons] at each
    rw [List.forM_cons, List.foldl_cons]
    simp only [Bind.bind, EStateM.bind, each.1]
    exact ih each.2 (change s a)

end Sink

namespace Piece

/-- What is written of a piece is ASCII, unless it is a multi-byte run. -/
def IsAscii : Piece → Prop
  | raw _ => True
  | piece => Sink.isAscii piece.written = true

/-- A printable byte is ASCII. -/
lemma isAscii_literal {b : UInt8} (printable : isPrintable b = true) : (literal b).IsAscii := by
  rw [isPrintable, Bool.and_eq_true, decide_eq_true_eq, decide_eq_true_eq] at printable
  refine List.all_eq_true.mpr fun c mem => decide_eq_true ?_
  rw [List.mem_singleton.mp mem]
  exact UInt8.lt_of_le_of_lt printable.2 (by decide)

/-- An escape of a control character is ASCII. -/
lemma isAscii_escape (c : Control) : (escape c).IsAscii := by
  cases c <;> rfl

/-- An escape in hexadecimal digits is ASCII. -/
lemma isAscii_hex (b : UInt8) : (hex b).IsAscii := by
  have digit : ∀ n < 16, (hexDigit n).toUInt8 < 0x80 := by decide
  have lt := b.toNat_lt
  refine List.all_eq_true.mpr fun c mem => decide_eq_true ?_
  simp only [written, List.map_cons, List.map_nil, List.mem_cons, List.not_mem_nil, or_false]
    at mem
  obtain rfl | rfl | rfl := mem
  · decide
  · exact digit _ (by omega)
  · exact digit _ (by omega)

/-- Prints a piece as ASCII text, or byte by byte if it is a multi-byte run. -/
def printChecked : Piece → SinkM Unit
  | raw run => forM run fun b => modify (Sink.printByte b.toNat)
  | piece => Sink.printAscii piece.written

/-- A piece of ASCII text is printed without a check. -/
lemma printChecked_eq {piece : Piece} (ascii : piece.IsAscii) (s : Sink) :
    piece.printChecked s = .ok () (piece.print s) := by
  cases piece with
  | literal => exact Sink.printAscii_eq ascii s
  | escape => exact Sink.printAscii_eq ascii s
  | hex => exact Sink.printAscii_eq ascii s
  | raw run =>
    refine Sink.forM_eq (fun b _ s => ?_) s
    exact congrArg (EStateM.Result.ok ()) (Sink.printByte_eq b s)

end Piece

/-- Every piece of a string is ASCII, or a multi-byte run. -/
lemma isAscii_of_mem_pieces (data : Bytes) : ∀ piece ∈ pieces data, piece.IsAscii := by
  intro piece mem
  cases isCut_of_mem_pieces data piece mem with
  | literal _ printable => exact Piece.isAscii_literal printable
  | escape c => exact Piece.isAscii_escape c
  | raw => trivial
  | hex => exact Piece.isAscii_hex _

/-- Prints a constant as a literal text by text; each text has to be one of Latin-1. -/
def Constant.printChecked : Constant → SinkM Unit
  | nil => Sink.print "nil"
  | boolean b => Sink.print (if b then "true" else "false")
  | number v =>
    match v.text with
    | .ok text => Sink.print text
    | .error fault => throw (.overlong fault)
  | string data => do
    Sink.print "\""
    forM (pieces data) Piece.printChecked
    Sink.print "\""

/-- No text in the literal of a constant is refused. -/
theorem Constant.printChecked_eq (c : Constant) : c.printChecked = c.print := by
  have texts : Latin1.IsText "nil" ∧ Latin1.IsText "false" ∧ Latin1.IsText "true" ∧
    Latin1.IsText "\"" := by decide
  funext s
  cases c with
  | nil => exact Sink.print_eq texts.1 s
  | boolean b =>
    cases b with
    | false => exact Sink.print_eq texts.2.1 s
    | true => exact Sink.print_eq texts.2.2.1 s
  | number v =>
    rw [printChecked]
    cases shown : v.text with
    | ok text =>
      rw [print_of_literal (literal_number_eq_ok_iff.mpr ⟨text, shown, rfl⟩)]
      exact Sink.print_eq (Number.isText_text shown) s
    | error fault =>
      have refused : (number v).literal = .error fault := by
        rw [literal, shown]
        rfl
      rw [print_of_overlong refused]
      rfl
  | string data =>
    have quote (s : Sink) : Sink.print "\"" s = .ok () (s.put [quoteByte]) :=
      Sink.print_eq texts.2.2.2 s
    have body (s : Sink) := Sink.forM_eq (fun piece mem s =>
      Piece.printChecked_eq (isAscii_of_mem_pieces data piece mem) s) s
    simp only [printChecked, Bind.bind, EStateM.bind, quote, body]
    rfl

/-- The constant that an entry stands for, with its payload checked. -/
def PoolEntry.constantChecked : PoolEntry → Except ConstantFault Constant
  | nil => Constant.ofPayload .nil (.bare .absent)
  | boolean v => Constant.ofPayload .boolean (.bare (.boolean (v != 0)))
  | number n => Constant.ofPayload .number (.number n)
  | string data => Constant.ofPayload .string (.bare (.bytes data))
  | foreign v => .error (.illegal v)

/-- An entry of the pool passes the check of its kind. -/
lemma PoolEntry.constantChecked_eq (e : PoolEntry) : e.constantChecked = e.constant := by
  cases e <;> rfl

namespace Listing

open Latin1 (IsText)

/-- A step of a listing that succeeds wherever the listing stands. -/
def Succeeds (x : ListingM Unit) : Prop :=
  ∀ t, ∃ t', x t = .ok () t'

namespace Succeeds

variable {x y : ListingM Unit} {text : String}

/-- A change of the transcript succeeds. -/
lemma modify (change : Transcript → Transcript) : Succeeds (modify change) :=
  fun t => ⟨change t, rfl⟩

/-- Two steps that succeed do so one after the other. -/
lemma bind (hx : Succeeds x) (hy : Succeeds y) : Succeeds (x >>= fun _ => y) := by
  intro t
  obtain ⟨t₁, first⟩ := hx t
  obtain ⟨t₂, second⟩ := hy t₁
  refine ⟨t₂, ?_⟩
  simp only [Bind.bind, EStateM.bind, first, second]

/-- A step of the output that succeeds is a step of the listing that does. -/
lemma onSink {step : SinkM Unit} (succeeds : ∀ s, ∃ s', step s = .ok () s') :
    Succeeds (onSink step) := by
  intro t
  obtain ⟨s, done⟩ := succeeds t.sink
  refine ⟨{ t with sink := s }, ?_⟩
  rw [Listing.onSink, done]

/-- Text in Latin-1 is printed. -/
lemma print (h : IsText text) : Succeeds (Listing.onSink (Sink.print text)) :=
  onSink fun s => ⟨_, Sink.print_eq h s⟩

/-- Text in Latin-1 is printed with a line feed behind it. -/
lemma println (h : IsText text) : Succeeds (Listing.onSink (Sink.println text)) := by
  refine onSink fun s => ?_
  unfold Sink.println
  split
  case isTrue =>
    refine ⟨(s.put (Latin1.bytes text)).newline, ?_⟩
    simp only [Bind.bind, EStateM.bind, Sink.print_eq h]
    rfl
  case isFalse => exact ⟨s.newline, rfl⟩

end Succeeds

/-- A count of things is Latin-1 text. -/
lemma isText_count (n : Nat) {noun : String} (h : IsText noun) : IsText (count n noun) := by
  have plural : IsText (if n = 1 then "" else "s") := .ite (by decide) (by decide)
  simp only [count, Latin1.isText_append, IsText.toString_nat, h, plural, true_and, and_true]
  decide

/-- The line that describes a function, with all digits of the numbers in it. -/
def fullHeading (name : String) (body : FunctionBody) (nested : Nat) : String :=
  headingText name body nested (toString body.firstLine) (toString body.lastLine)

/-- The numbers on the line that describes a function have few digits. -/
def HasShortLines (body : FunctionBody) : Prop :=
  IsShort body.firstLine ∧ IsShort body.lastLine

instance (body : FunctionBody) : Decidable (HasShortLines body) :=
  inferInstanceAs (Decidable (IsShort body.firstLine ∧ IsShort body.lastLine))

/-- A function with few digits in its lines is described with all of them. -/
lemma heading_of_short {body : FunctionBody} (short : HasShortLines body) (name : String)
    (nested : Nat) : heading name body nested = .ok (fullHeading name body nested) := by
  rw [heading, wholeText_of_isShort short.1, wholeText_of_isShort short.2]
  rfl

/-- A function with too many digits in one of its lines is not described. -/
lemma heading_of_overlong {body : FunctionBody} (long : ¬ HasShortLines body) (name : String)
    (nested : Nat) : ∃ n ∈ [body.firstLine, body.lastLine], ¬ IsShort n ∧
      heading name body nested = .error ⟨n⟩ := by
  unfold heading
  by_cases first : IsShort body.firstLine
  · have last : ¬ IsShort body.lastLine := fun last => long ⟨first, last⟩
    refine ⟨body.lastLine, .tail _ (.head _), last, ?_⟩
    rw [wholeText_of_isShort first, wholeText_of_not_isShort last]
    rfl
  · refine ⟨body.firstLine, .head _, first, ?_⟩
    rw [wholeText_of_not_isShort first]
    rfl

/-- The line that describes a function is text of Latin-1 if the names on it are. -/
lemma isText_fullHeading {name : String} {body : FunctionBody} (hName : IsText name)
    (hSource : IsText body.source) (nested : Nat) : IsText (fullHeading name body nested) := by
  have source : IsText (if body.source.isEmpty then "?" else body.source) :=
    .ite (by decide) hSource
  have constants : IsText (count body.constants.length "constant") := isText_count _ (by decide)
  have functions : IsText (count nested "function") := isText_count _ (by decide)
  -- What is left are the fixed texts between the parts.
  unfold fullHeading headingText
  simp only [Latin1.isText_append, IsText.toString_int, hName, source, constants, functions,
    and_true]
  decide

/-- The number in front of a constant is Latin-1 text. -/
lemma isText_numbering (n : Nat) : IsText (numbering n) :=
  .ofList (((Latin1.AreCharacters.of_numeric (.toDigits n)).append
    (.replicate (by decide) _)).append (by decide))

/-- The name of a nested function is Latin-1 text. -/
lemma isText_nestedName {name : String} (h : IsText name) (i : Nat) :
    IsText (nestedName name i) := by
  simp only [nestedName, Latin1.isText_append, IsText.toString_nat, h, true_and, and_true]
  decide

/-- A function is described if its lines have few digits and its names are text of Latin-1. -/
lemma succeeds_describe {name : String} {body : FunctionBody} {nested : Nat}
    (short : HasShortLines body) (isText : IsText (fullHeading name body nested)) :
    Succeeds (describe name body nested) := by
  rw [describe, heading_of_short short]
  exact .println isText

/-- A constant with a literal is listed. -/
lemma succeeds_entry (n : Nat) {e : PoolEntry} {c : Constant} (h : e.constant = .ok c)
    (short : c.IsShort) : Succeeds (entry n e) := by
  obtain ⟨text, literal⟩ := Constant.exists_literal_iff.mpr short
  unfold entry
  rw [h]
  have newline : Succeeds (onSink (Sink.println "")) := .println (by decide)
  have constant : Succeeds (onSink c.print) :=
    .onSink fun s => ⟨_, Constant.print_of_literal literal s⟩
  refine (Succeeds.print (isText_numbering n)).bind (constant.bind ?_)
  dsimp only
  split
  · exact (Succeeds.print (by decide)).bind newline
  · exact newline

/-- Constants with literals are listed one after another. -/
lemma succeeds_entries {es : List PoolEntry} (h : ∀ e ∈ es, ∃ c, e.constant = .ok c ∧ c.IsShort)
    (n : Nat) : Succeeds (entries n es) := by
  induction es generalizing n with
  | nil => exact fun t => ⟨t, rfl⟩
  | cons e es ih =>
    rw [List.forall_mem_cons] at h
    obtain ⟨⟨c, constant, short⟩, others⟩ := h
    exact (succeeds_entry n constant short).bind (ih others (n + 1))

/-- Functions that are listed under any name are listed one after another. -/
lemma succeeds_functions {ps : List Proto}
    (each : ∀ q ∈ ps, ∀ name, IsText name → Succeeds (function name q)) {name : String}
    (h : IsText name) (i : Nat) : Succeeds (functions name i ps) := by
  induction ps generalizing i with
  | nil => exact fun t => ⟨t, rfl⟩
  | cons p ps ih =>
    rw [List.forall_mem_cons] at each
    exact (Succeeds.modify _).bind
      ((each.1 _ (isText_nestedName h i)).bind (ih each.2 (i + 1)))

end Listing

/-- The entry is not a whole number with too many digits. -/
def PoolEntry.IsShort : PoolEntry → Prop
  | number (.whole n) => LuaChunk.IsShort n
  | _ => True

instance : DecidablePred PoolEntry.IsShort
  | .nil => .isTrue trivial
  | .boolean _ => .isTrue trivial
  | .number (.whole n) => inferInstanceAs (Decidable (LuaChunk.IsShort n))
  | .number (.double _) => .isTrue trivial
  | .string _ => .isTrue trivial
  | .foreign _ => .isTrue trivial

/-- An entry has as many digits as the constant that it is. -/
lemma PoolEntry.isShort_iff {e : PoolEntry} {c : Constant} (constant : e.constant = .ok c) :
    e.IsShort ↔ c.IsShort := by
  cases e with
  | foreign v => cases constant
  | number v =>
    obtain rfl := Except.ok.inj constant
    cases v <;> exact Iff.rfl
  | _ =>
    obtain rfl := Except.ok.inj constant
    exact Iff.rfl

/-- What the listing of a function needs: a source name of Latin-1 text, constants in the pool, and
few digits in each of its numbers. -/
structure FunctionBody.IsListable (b : FunctionBody) : Prop where
  source : Latin1.IsText b.source
  lines : Listing.HasShortLines b
  constants : ∀ e ∈ b.constants, ∃ c, e.constant = .ok c
  wholes : ∀ e ∈ b.constants, e.IsShort

instance (b : FunctionBody) : Decidable b.IsListable :=
  decidable_of_iff
    (Latin1.IsText b.source ∧ Listing.HasShortLines b ∧
      (∀ e ∈ b.constants, e.constant.toOption.isSome = true) ∧ ∀ e ∈ b.constants, e.IsShort) <| by
    have valid (e : PoolEntry) : e.constant.toOption.isSome = true ↔ ∃ c, e.constant = .ok c := by
      cases e.constant with
      | ok c => exact ⟨fun _ => ⟨c, rfl⟩, fun _ => rfl⟩
      | error fault => exact ⟨nofun, nofun⟩
    simp only [valid]
    exact ⟨fun ⟨source, lines, constants, wholes⟩ => ⟨source, lines, constants, wholes⟩,
      fun ⟨source, lines, constants, wholes⟩ => ⟨source, lines, constants, wholes⟩⟩

/-- Each entry of a pool that can be listed is a constant with few digits. -/
lemma FunctionBody.IsListable.exists_constant {b : FunctionBody} (listable : b.IsListable)
    {e : PoolEntry} (mem : e ∈ b.constants) : ∃ c, e.constant = .ok c ∧ c.IsShort := by
  obtain ⟨c, constant⟩ := listable.constants e mem
  exact ⟨c, constant, (PoolEntry.isShort_iff constant).mp (listable.wholes e mem)⟩

/-- A listing succeeds, whatever was listed before, if all functions of the tree can be listed. -/
theorem Proto.succeeds_function {p : Proto} (listable : ∀ f ∈ p.functions, f.body.IsListable)
    {name : String} (h : Latin1.IsText name) : Listing.Succeeds (Listing.function name p) := by
  induction p using Proto.nestedInduction generalizing name with
  | mk body nested ih =>
    obtain ⟨own, inside⟩ := forall_functions_iff.mp listable
    -- The name of a nested function is longer, so the induction is for all names.
    have each (q : Proto) (mem : q ∈ nested) (name : String) (h : Latin1.IsText name) :=
      ih q mem (inside q mem) h
    have entries := Listing.succeeds_entries (fun e mem => own.exists_constant mem) 1
    have title := Listing.isText_fullHeading h own.source nested.length
    exact (Listing.succeeds_describe own.lines title).bind
      ((Listing.Succeeds.modify _).bind (entries.bind
        ((Listing.succeeds_functions each h 0).bind (Listing.Succeeds.modify _))))

namespace Header

variable {h : Header}

/-- A name that was read is Latin-1 text. -/
lemma isText_of_storesName {name : String} {bs : Bytes} (stores : h.StoresName name bs) :
    Latin1.IsText name := by
  cases stores with
  | none => decide
  | some spells =>
    rw [Latin1.spells_iff.mp spells]
    exact .decode _

/-- A number with a sign that a chunk stores has few digits, whatever its width. -/
lemma isShort_of_storesSigned {width : UInt8} {n : Int} {bs : Bytes}
    (stores : h.StoresSigned width.toNat n bs) : IsShort n := by
  obtain ⟨-, low, high, -⟩ := stores
  have fits : n.natAbs < 2 ^ (8 * width.toNat) := by
    have power : (256 : Int) ^ width.toNat = ((2 ^ (8 * width.toNat) : Nat) : Int) := by
      rw [pow_mul]
      push_cast
      norm_num
    have positive : 0 < 2 ^ (8 * width.toNat) := Nat.two_pow_pos _
    rw [power] at low high
    omega
  have bound := width.toNat_lt
  exact isShort_of_lt_two_pow fits (by unfold digitLimit; omega)

/-- What a chunk stores as a constant is a constant with few digits. -/
lemma exists_constant_of_storesConstant {e : PoolEntry} {bs : Bytes}
    (stores : h.StoresConstant e bs) : (∃ c, e.constant = .ok c) ∧ e.IsShort := by
  cases stores with
  | nil => exact ⟨⟨_, rfl⟩, trivial⟩
  | false => exact ⟨⟨_, rfl⟩, trivial⟩
  | true => exact ⟨⟨_, rfl⟩, trivial⟩
  | empty => exact ⟨⟨_, rfl⟩, trivial⟩
  | string => exact ⟨⟨_, rfl⟩, trivial⟩
  | number stored =>
    refine ⟨⟨_, rfl⟩, ?_⟩
    cases stored with
    | integer _ signed => exact isShort_of_storesSigned signed
    | double => trivial
    | single => trivial

/-- The fields of a function in front of the functions nested in it can be listed. -/
lemma isListable_of_storesBefore {outer : String} {b : FunctionBody} {bs : Bytes}
    (hOuter : Latin1.IsText outer) (stores : h.StoresBefore outer b bs) : b.IsListable := by
  cases stores with
  | mk hName hSource hFirst hLast _ _ _ _ _ hConstants =>
    have pool (e : PoolEntry) (mem : e ∈ b.constants) :
        (∃ c, e.constant = .ok c) ∧ e.IsShort := by
      cases hConstants with
      | mk _ _ each =>
        obtain ⟨_, stored⟩ := each.exists_of_mem mem
        exact exists_constant_of_storesConstant stored
    refine ⟨?_, ⟨isShort_of_storesSigned hFirst, isShort_of_storesSigned hLast⟩,
      fun e mem => (pool e mem).1, fun e mem => (pool e mem).2⟩
    rw [hSource]
    exact .ite hOuter (isText_of_storesName hName)

/-- Every function that a chunk stores can be listed. -/
lemma isListable_of_storesProto {outer : String} {p : Proto} {bs : Bytes}
    (hOuter : Latin1.IsText outer) (stores : h.StoresProto outer p bs) :
    ∀ f ∈ p.functions, f.body.IsListable := by
  induction p using Proto.nestedInduction generalizing outer bs with
  | mk body nested ih =>
    obtain ⟨_, _, _, hBefore, hNested, -, -⟩ := storesProto_iff.mp stores
    have own := isListable_of_storesBefore hOuter hBefore
    refine Proto.forall_functions_iff.mpr ⟨own, fun q mem => ?_⟩
    -- A nested function may have the source name of this one, which is Latin-1 text by now.
    cases hNested with
    | mk _ _ each =>
      obtain ⟨_, stored⟩ := each.exists_of_mem mem
      exact ih q mem own.source stored

end Header

/-- What is read from a chunk can be listed. -/
lemma isListable_of_readChunk {withSummary : Bool} {data : Bytes} {p : Proto} {c : Cursor}
    (read : readChunk withSummary (.start data) = .ok p c) :
    ∀ f ∈ p.functions, f.body.IsListable := by
  obtain ⟨_, ⟨h, stored, -, stores, -⟩, -⟩ :=
    (recognises_readChunk withSummary).sound (Nat.lt_succ_self _) read
  exact Header.isListable_of_storesProto (by decide) stores

/-- A function that was read is listed, wherever the output stands. -/
lemma exists_listing_of_readChunk {withSummary : Bool} {data : Bytes} {p : Proto} {c : Cursor}
    (read : readChunk withSummary (.start data) = .ok p c) (sink : Sink) :
    ∃ t, p.listing mainName sink = .ok () t :=
  Proto.succeeds_function (isListable_of_readChunk read) (by decide) ⟨sink, []⟩

end LuaChunk
