import LuaChunk.Latin1
import LuaChunk.Proofs.Double.Widening
import LuaChunk.Proofs.Numeral
import LuaChunk.Proto

/-!
# The format of chunks

What a chunk is, said without reading or writing one.  A header fixes the byte order, the widths and
the kind of numbers; under it each kind of field has a format, a relation between values and the
bytes that store them.  `Header.StoresProto` is the format of a whole function with the functions
nested in it.
-/

namespace LuaChunk

/-- The values of a list one after another. -/
inductive Each {α : Type} (F : Format α) : Format (List α) where
  | nil :
    Each F [] []
  | cons {x xs front back} :
    F x front →
    Each F xs back →
    Each F (x :: xs) (front ++ back)

/-- Each value of a stored list is itself stored. -/
lemma Each.exists_of_mem {α : Type} {F : Format α} {xs : List α} {bs : Bytes} (each : Each F xs bs)
    {x : α} (mem : x ∈ xs) : ∃ stored, F x stored := by
  induction each with
  | nil => cases mem
  | cons first _ ih =>
    obtain rfl | mem := List.mem_cons.mp mem
    · exact ⟨_, first⟩
    · exact ih mem

/-- The characters of a text have the numbers of the given bytes. -/
def Latin1.Spells (text : String) (data : Bytes) : Prop :=
  text.toList.map Char.toNat = data.map UInt8.toNat

/-- A number that is one byte. -/
inductive StoresByte : Format Int where
  | mk (b : UInt8) :
    StoresByte b.toNat [b]

namespace Header

/-- Numbers that are not integers have four or eight bytes. -/
def IsValid (h : Header) : Prop :=
  h.numberSize = 4 ∨ h.numberSize = 8 ∨ h.integral ≠ 0

/-- Sizes. -/
def StoresSize (h : Header) : Format Nat :=
  h.StoresUnsigned h.sizeSize.toNat

/-- Integers. -/
def StoresInt (h : Header) : Format Int :=
  h.StoresSigned h.intSize.toNat

/-- Instruction words. -/
inductive StoresInstruction (h : Header) : Format Int where
  | mk {n : Nat} {bs} :
    h.StoresUnsigned h.instructionSize.toNat n bs →
    StoresInstruction h n bs

/-- Strings: the size zero for none at all, or the size of the bytes and of one more that is
dropped. -/
inductive StoresString (h : Header) : Format (Option Bytes) where
  | none {size} :
    h.StoresSize 0 size →
    StoresString h none size
  | some {size data} {last : UInt8} :
    h.StoresSize (data.length + 1) size →
    StoresString h (some data) (size ++ data ++ [last])

/-- Names: strings whose bytes are characters, and no string for the empty name. -/
inductive StoresName (h : Header) : Format String where
  | none {bs} :
    h.StoresString none bs →
    StoresName h "" bs
  | some {name data bs} :
    Latin1.Spells name data →
    h.StoresString (some data) bs →
    StoresName h name bs

/-- Numbers: integers if the header says so, and otherwise patterns of double or of single
precision. -/
inductive StoresNumber (h : Header) : Format Number where
  | integer {n bs} :
    h.integral ≠ 0 →
    h.StoresSigned h.numberSize.toNat n bs →
    StoresNumber h (.whole n) bs
  | double {d bs} :
    h.integral = 0 →
    h.numberSize = 8 →
    h.StoresUnsigned 8 d.word bs →
    StoresNumber h (.double d) bs
  | single {word d bs} :
    h.integral = 0 →
    h.numberSize = 4 →
    h.StoresUnsigned 4 word bs →
    Double.IsWidened word d →
    StoresNumber h (.double d) bs

/-- Constants, each with a tag in front. -/
inductive StoresConstant (h : Header) : Format PoolEntry where
  | nil :
    StoresConstant h .nil [0]
  | false :
    StoresConstant h (.boolean 0) [1, 0]
  | true {b : UInt8} :
    b ≠ 0 →
    StoresConstant h (.boolean 1) [1, b]
  | number {n bs} :
    h.StoresNumber n bs →
    StoresConstant h (.number n) (3 :: bs)
  | empty {bs} :
    h.StoresString none bs →
    StoresConstant h (.string []) (4 :: bs)
  | string {data bs} :
    h.StoresString (some data) bs →
    StoresConstant h (.string data) (4 :: bs)

/-- Local variables. -/
inductive StoresLocal (h : Header) : Format LocalVariable where
  | mk {l bName bFirst bLast} :
    h.StoresName l.name bName →
    h.StoresInt l.first bFirst →
    h.StoresInt l.last bLast →
    StoresLocal h l (bName ++ bFirst ++ bLast)

/-- Lists with their length in front; a length below zero counts as none. -/
inductive StoresList {α : Type} (h : Header) (F : Format α) : Format (List α) where
  | mk {xs count bCount bItems} :
    h.StoresInt count bCount →
    xs.length = count.toNat →
    Each F xs bItems →
    StoresList h F xs (bCount ++ bItems)

/-- The fields of a function in front of the list of functions nested in it, where the source name
is the name that is stored or, if this is empty, the source name of the function around. -/
inductive StoresBefore (h : Header) (outer : String) : Format FunctionBody where
  | mk {b : FunctionBody} {name bName bFirst bLast bUpvalues bParameters bVararg bStack bCode
      bConstants} :
    h.StoresName name bName →
    b.source = (if name = "" then outer else name) →
    h.StoresInt b.firstLine bFirst →
    h.StoresInt b.lastLine bLast →
    StoresByte b.upvalueCount bUpvalues →
    StoresByte b.parameterCount bParameters →
    StoresByte b.varargFlag bVararg →
    StoresByte b.stackSize bStack →
    h.StoresList h.StoresInstruction b.code bCode →
    h.StoresList h.StoresConstant b.constants bConstants →
    StoresBefore h outer b (bName ++ bFirst ++ bLast ++ bUpvalues ++ bParameters ++ bVararg ++
      bStack ++ bCode ++ bConstants)

/-- The fields of a function behind the list of functions nested in it. -/
inductive StoresAfter (h : Header) : Format FunctionBody where
  | mk {b : FunctionBody} {bLines bLocals bUpvalues} :
    h.StoresList h.StoresInt b.lines bLines →
    h.StoresList h.StoresLocal b.locals bLocals →
    h.StoresList h.StoresName b.upvalues bUpvalues →
    StoresAfter h b (bLines ++ bLocals ++ bUpvalues)

mutual

/-- Functions inside one of a given source name. -/
inductive StoresProto (h : Header) : String → Format Proto where
  | mk {outer body nested count before bCount bNested after} :
    h.StoresBefore outer body before →
    h.StoresInt count bCount →
    nested.length = count.toNat →
    StoresProtos h body.source nested bNested →
    h.StoresAfter body after →
    StoresProto h outer ⟨body, nested⟩ (before ++ (bCount ++ bNested) ++ after)

/-- Functions one after another, inside one of a given source name. -/
inductive StoresProtos (h : Header) : String → Format (List Proto) where
  | nil {outer} :
    StoresProtos h outer [] []
  | cons {outer p ps front back} :
    StoresProto h outer p front →
    StoresProtos h outer ps back →
    StoresProtos h outer (p :: ps) (front ++ back)

end

/-- Functions one after another are stored each on its own. -/
lemma storesProtos_iff {h : Header} {outer : String} {ps : List Proto} {bs : Bytes} :
    StoresProtos h outer ps bs ↔ Each (h.StoresProto outer) ps bs := by
  constructor
  · intro stores
    induction ps generalizing bs with
    | nil =>
      cases stores with
      | nil => exact .nil
    | cons p ps ih =>
      cases stores with
      | cons first others => exact .cons first (ih others)
  · intro each
    induction each with
    | nil => exact .nil
    | cons first _ ih => exact .cons first ih

/-- A function is stored as its fields with the list of functions nested in it in the middle. -/
lemma storesProto_iff {h : Header} {outer : String} {p : Proto} {bs : Bytes} :
    h.StoresProto outer p bs ↔ ∃ before middle after, h.StoresBefore outer p.body before ∧
      h.StoresList (h.StoresProto p.body.source) p.nested middle ∧ h.StoresAfter p.body after ∧
      bs = before ++ middle ++ after := by
  constructor
  · intro stores
    cases stores with
    | mk hb hc len hn ha => exact ⟨_, _, _, hb, .mk hc len (storesProtos_iff.mp hn), ha, rfl⟩
  · rintro ⟨before, middle, after, hb, hm, ha, rfl⟩
    cases p
    cases hm with
    | mk hc len hn => exact .mk hb hc len (storesProtos_iff.mpr hn) ha

end Header

namespace Latin1

/-- Decoded bytes spell the bytes. -/
lemma spells_decode (data : Bytes) : Spells (decode data) data := by
  unfold Spells decode
  rw [String.toList_ofList, List.map_map]
  apply List.map_congr_left
  intro b _
  exact toNat_ofNat_byte b

/-- Characters are determined by their numbers. -/
lemma map_toNat_inj {cs ds : List Char} (e : cs.map Char.toNat = ds.map Char.toNat) : cs = ds :=
  List.map_injective_iff.mpr (fun _ _ h => Char.toNat_inj.mp h) e

/-- A text that spells bytes is the one that they are decoded to. -/
lemma spells_iff {text : String} {data : Bytes} : Spells text data ↔ text = decode data := by
  constructor
  · intro spells
    apply String.toList_inj.mp
    exact map_toNat_inj (spells.trans (spells_decode data).symm)
  · rintro rfl
    exact spells_decode data

end Latin1

end LuaChunk
