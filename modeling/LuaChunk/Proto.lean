import LuaChunk.Constant

/-!
# Function prototypes

A compiled chunk is a tree of functions.  Each node holds what the chunk stores about one function,
its `FunctionBody`, and the functions that are nested in it.  The constants of a function form its
pool, which may also hold bare values that no chunk can store.
-/

namespace LuaChunk

/-- An entry in the constant pool of a function.  A truth value is kept as a whole number, zero for
false. -/
inductive PoolEntry
  | nil
  | boolean (v : Int)
  | number (n : Number)
  | string (data : Bytes)
  | foreign (v : Value)
deriving DecidableEq, Repr

/-- The constant that an entry stands for. -/
def PoolEntry.constant : PoolEntry → Except ConstantFault Constant
  | nil => .ok .nil
  | boolean v => .ok (.boolean (v != 0))
  | number n => .ok (.number n)
  | string data => .ok (.string data)
  | foreign v => .error (.illegal v)

/-- A local variable and the instructions between which it is alive. -/
structure LocalVariable where
  name : String
  first : Int
  last : Int
deriving DecidableEq, Repr

/-- What a chunk stores about one function besides the functions nested in it. -/
structure FunctionBody where
  /-- The name of the source that the function comes from. -/
  source : String
  /-- The line on which the definition begins. -/
  firstLine : Int
  /-- The line on which the definition ends. -/
  lastLine : Int
  upvalueCount : Int
  parameterCount : Int
  varargFlag : Int
  stackSize : Int
  /-- The instruction words. -/
  code : List Int
  constants : List PoolEntry
  /-- The source line of each instruction. -/
  lines : List Int
  locals : List LocalVariable
  /-- The names of the upvalues. -/
  upvalues : List String
deriving DecidableEq, Repr, Inhabited

/-- A function with the functions nested in it. -/
structure Proto where
  body : FunctionBody
  nested : List Proto
deriving Inhabited

namespace Proto

/-- A number of things, as part of a description. -/
def countText {α : Type} (items : List α) : String :=
  toString items.length

/-- A function as the log shows it when it is read.  The numbers of such a function have few digits
(`Header.isListable_of_storesProto`). -/
def display (p : Proto) : String :=
  "<Prototype " ++ (if p.body.source.isEmpty then "<anonymous>" else p.body.source) ++
    " lines " ++ toString p.body.firstLine ++ "-" ++ toString p.body.lastLine ++
    ", upvalues=" ++ toString p.body.upvalueCount ++
    ", params=" ++ toString p.body.parameterCount ++
    ", vararg=" ++ toString p.body.varargFlag ++
    ", max_stack=" ++ toString p.body.stackSize ++
    ", instructions=" ++ countText p.body.code ++
    ", constants=" ++ countText p.body.constants ++
    ", locals=" ++ countText p.body.locals ++
    ", prototypes=" ++ countText p.nested ++ ">"

end Proto

end LuaChunk
