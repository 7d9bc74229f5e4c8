import LuaChunk.Proofs.Format
import LuaChunk.Proofs.Tree

/-!
# What functions cost in a chunk

Whatever bytes store a value, the value needs a number of them that the header fixes.
`PoolEntry.cost`, `FunctionBody.cost` and `Proto.cost` give these numbers, with the bytes of names
left out, and `Header.StoresProto.cost_le_length` says that no chunk stores a tree of functions in
less.
-/

namespace LuaChunk

/-- The bytes that a constant needs. -/
def PoolEntry.cost (h : Header) : PoolEntry → Nat
  | .nil => 1
  | .boolean _ => 2
  | .number _ => 1 + h.numberSize.toNat
  | .string data => 1 + h.sizeSize.toNat + if data = [] then 0 else data.length + 1
  | .foreign _ => 1

/-- The bytes that the fields of a function need: the flags, the size of its name, the two lines of
its definition and the lengths of its six lists, and the members of five of these lists. -/
def FunctionBody.cost (h : Header) (b : FunctionBody) : Nat :=
  4 + h.sizeSize.toNat + 8 * h.intSize.toNat + h.instructionSize.toNat * b.code.length +
    (b.constants.map (PoolEntry.cost h)).sum + h.intSize.toNat * b.lines.length +
    (h.sizeSize.toNat + 2 * h.intSize.toNat) * b.locals.length +
    h.sizeSize.toNat * b.upvalues.length

/-- The bytes that a function and the functions nested in it at any depth need. -/
def Proto.cost (h : Header) (p : Proto) : Nat :=
  (p.functions.map fun f => f.body.cost h).sum

/-- Every constant needs its tag. -/
lemma PoolEntry.one_le_cost (h : Header) (v : PoolEntry) : 1 ≤ v.cost h := by
  cases v <;> simp only [cost] <;> omega

/-- A sum over the functions of a tree is a sum over its subtrees. -/
lemma Proto.sum_functions (need : Proto → Nat) (body : FunctionBody) (nested : List Proto) :
    ((functions ⟨body, nested⟩).map need).sum =
      need ⟨body, nested⟩ + (nested.map fun q => (q.functions.map need).sum).sum := by
  rw [functions, functionsOf_eq_flatMap, List.map_cons, List.sum_cons, List.map_flatMap,
    List.flatMap, List.sum_flatten, List.map_map]
  rfl

/-- The cost of a function is that of its fields and those of the functions nested in it. -/
lemma Proto.cost_mk (h : Header) (body : FunctionBody) (nested : List Proto) :
    cost h ⟨body, nested⟩ = body.cost h + (nested.map (cost h)).sum :=
  sum_functions (fun f => f.body.cost h) body nested

/-- Stored values need together what each of them needs. -/
lemma Each.sum_le_length {α : Type} {F : Format α} {need : α → Nat} {xs : List α} {bs : Bytes}
    (le : ∀ x ∈ xs, ∀ bs, F x bs → need x ≤ bs.length) (each : Each F xs bs) :
    (xs.map need).sum ≤ bs.length := by
  induction each with
  | nil => exact le_refl 0
  | cons first _ ih =>
    rw [List.forall_mem_cons] at le
    rw [List.map_cons, List.sum_cons, List.length_append]
    exact Nat.add_le_add (le.1 _ first) (ih le.2)

/-- A flag takes one byte. -/
lemma StoresByte.length_eq {n : Int} {bs : Bytes} (stores : StoresByte n bs) : bs.length = 1 := by
  cases stores
  rfl

namespace Header

variable {h : Header} {bs : Bytes}

/-- A string takes its size field and, if it is stored at all, its bytes and one more. -/
lemma StoresString.le_length {s : Option Bytes} (stores : h.StoresString s bs) :
    h.sizeSize.toNat + s.elim 0 (·.length + 1) ≤ bs.length := by
  cases stores with
  | none size => exact size.1.ge
  | some size =>
    rw [List.length_append, List.length_append, size.1, List.length_singleton, Option.elim_some]
    exact (Nat.add_assoc _ _ _).ge

/-- A name takes at least its size field. -/
lemma StoresName.le_length {name : String} (stores : h.StoresName name bs) :
    h.sizeSize.toNat ≤ bs.length := by
  cases stores with
  | none stored => exact stored.le_length
  | some _ stored => exact (Nat.le_add_right _ _).trans stored.le_length

/-- An integer takes the width of integers. -/
lemma StoresInt.length_eq {n : Int} (stores : h.StoresInt n bs) : bs.length = h.intSize.toNat :=
  stores.1

/-- An instruction takes the width of instructions. -/
lemma StoresInstruction.length_eq {n : Int} (stores : h.StoresInstruction n bs) :
    bs.length = h.instructionSize.toNat := by
  cases stores with
  | mk stored => exact stored.1

/-- A number takes the width of numbers. -/
lemma StoresNumber.length_eq {v : Number} (stores : h.StoresNumber v bs) :
    bs.length = h.numberSize.toNat := by
  cases stores with
  | integer _ stored => exact stored.1
  | double _ eight stored =>
    rw [eight]
    exact stored.1
  | single _ four stored =>
    rw [four]
    exact stored.1

/-- A constant takes at least its cost. -/
lemma StoresConstant.cost_le_length {v : PoolEntry} (stores : h.StoresConstant v bs) :
    v.cost h ≤ bs.length := by
  cases stores with
  | nil => exact le_refl 1
  | false => exact le_refl 2
  | true => exact le_refl 2
  | number stored =>
    rw [List.length_cons, stored.length_eq, Nat.add_comm]
    exact le_refl _
  | empty stored =>
    have := stored.le_length
    rw [Option.elim_none] at this
    rw [PoolEntry.cost, if_pos rfl, List.length_cons]
    omega
  | string stored =>
    have := stored.le_length
    rw [Option.elim_some] at this
    rw [PoolEntry.cost, List.length_cons]
    split <;> omega

/-- A local variable takes at least a size field and two integers. -/
lemma StoresLocal.le_length {l : LocalVariable} (stores : h.StoresLocal l bs) :
    h.sizeSize.toNat + 2 * h.intSize.toNat ≤ bs.length := by
  cases stores with
  | mk name first last =>
    have := name.le_length
    rw [List.length_append, List.length_append, first.length_eq, last.length_eq]
    omega

/-- A list needs its length and what its members need. -/
lemma StoresList.sum_le_length {α : Type} {F : Format α} {need : α → Nat} {xs : List α}
    (stores : h.StoresList F xs bs) (le : ∀ x ∈ xs, ∀ bs, F x bs → need x ≤ bs.length) :
    h.intSize.toNat + (xs.map need).sum ≤ bs.length := by
  cases stores with
  | mk count _ each =>
    rw [List.length_append, count.length_eq]
    exact Nat.add_le_add_left (each.sum_le_length le) _

/-- A list takes its length field and, for each member, at least what any member takes. -/
lemma StoresList.mul_le_length {α : Type} {F : Format α} {width : Nat} {xs : List α}
    (stores : h.StoresList F xs bs) (le : ∀ x bs, F x bs → width ≤ bs.length) :
    h.intSize.toNat + width * xs.length ≤ bs.length := by
  have needed := stores.sum_le_length fun x _ => le x
  rw [List.map_const', List.sum_replicate, smul_eq_mul, Nat.mul_comm] at needed
  exact needed

/-- The fields in front of the nested functions take at least their part of the cost. -/
lemma StoresBefore.sum_le_length {outer : String} {b : FunctionBody}
    (stores : h.StoresBefore outer b bs) :
    4 + h.sizeSize.toNat + 4 * h.intSize.toNat + h.instructionSize.toNat * b.code.length +
      (b.constants.map (PoolEntry.cost h)).sum ≤ bs.length := by
  cases stores with
  | mk name _ first last upvalueCount parameterCount varargFlag stackSize code constants =>
    have := name.le_length
    have := code.mul_le_length fun _ _ stored => stored.length_eq.ge
    have := constants.sum_le_length fun _ _ _ => StoresConstant.cost_le_length
    simp only [List.length_append, first.length_eq, last.length_eq, upvalueCount.length_eq,
      parameterCount.length_eq, varargFlag.length_eq, stackSize.length_eq]
    omega

/-- The fields behind the nested functions take at least their part of the cost. -/
lemma StoresAfter.sum_le_length {b : FunctionBody} (stores : h.StoresAfter b bs) :
    3 * h.intSize.toNat + h.intSize.toNat * b.lines.length +
      (h.sizeSize.toNat + 2 * h.intSize.toNat) * b.locals.length +
      h.sizeSize.toNat * b.upvalues.length ≤ bs.length := by
  cases stores with
  | mk lines locals upvalues =>
    have := lines.mul_le_length fun _ _ stored => stored.length_eq.ge
    have := locals.mul_le_length fun _ _ => StoresLocal.le_length
    have := upvalues.mul_le_length fun _ _ => StoresName.le_length
    simp only [List.length_append]
    omega

/-- What stores a function with the functions nested in it is as long as they need at least. -/
lemma StoresProto.cost_le_length {outer : String} {p : Proto} (stores : h.StoresProto outer p bs) :
    p.cost h ≤ bs.length := by
  induction p using Proto.nestedInduction generalizing outer bs with
  | mk body nested ih =>
    obtain ⟨_, _, _, before, middle, after, rfl⟩ := storesProto_iff.mp stores
    have front := before.sum_le_length
    have inner := middle.sum_le_length fun q mem _ => ih q mem
    have back := after.sum_le_length
    dsimp only at front inner back
    rw [Proto.cost_mk, FunctionBody.cost, List.length_append, List.length_append]
    omega

end Header

end LuaChunk
