import LuaChunk.Proofs.Double.Nearest
import LuaChunk.Proofs.Tree

/-!
# Normal forms

Writing a function and reading it again yields the normal form of the function.  It differs from the
function in what a chunk cannot tell apart: integers are taken in two's complement, truth values are
zero or one, whole numbers are doubles, and a nested function without a source name has the name of
the function around it.
-/

namespace LuaChunk

/-- The number with a sign that has the same four bytes as a number without one. -/
def wrap (n : Int) : Int :=
  if n < 2 ^ 31 then n else n - 2 ^ 32

/-- A number as a double, where a whole number too great for one stays as it is. -/
def Number.normalize : Number → Number
  | .whole n => (Double.ofInt? n).elim (.whole n) .double
  | .double d => .double d

/-- A whole number is normalized to a double exactly if it rounds to it. -/
lemma Number.normalize_whole_eq_double_iff {n : Int} {d : Double} :
    (whole n).normalize = double d ↔ Double.ofInt? n = some d := by
  have unfolded : (whole n).normalize = (Double.ofInt? n).elim (whole n) double := rfl
  rw [unfolded]
  cases Double.ofInt? n with
  | none => exact ⟨nofun, nofun⟩
  | some e => rw [Option.elim_some, double.injEq, Option.some.injEq]

/-- A constant with its truth value as zero or one, or with its number as a double. -/
def PoolEntry.normalize : PoolEntry → PoolEntry
  | .nil => .nil
  | .boolean v => .boolean (if v = 0 then 0 else 1)
  | .number n => .number n.normalize
  | .string data => .string data
  | .foreign v => .foreign v

/-- A local variable with its integers in two's complement. -/
def LocalVariable.normalize (l : LocalVariable) : LocalVariable :=
  ⟨l.name, wrap l.first, wrap l.last⟩

/-- The fields of a function inside one of a given source name. -/
def FunctionBody.normalize (outer : String) (b : FunctionBody) : FunctionBody :=
  { b with
    source := if b.source = "" then outer else b.source
    firstLine := wrap b.firstLine
    lastLine := wrap b.lastLine
    constants := b.constants.map PoolEntry.normalize
    lines := b.lines.map wrap
    locals := b.locals.map LocalVariable.normalize }

namespace Proto

/-- No list of a function has so many members that their number would be read as a negative
one. -/
structure HasShortLists (p : Proto) : Prop where
  code : p.body.code.length < 2 ^ 31
  constants : p.body.constants.length < 2 ^ 31
  nested : p.nested.length < 2 ^ 31
  lines : p.body.lines.length < 2 ^ 31
  locals : p.body.locals.length < 2 ^ 31
  upvalues : p.body.upvalues.length < 2 ^ 31

instance (p : Proto) : Decidable p.HasShortLists :=
  decidable_of_iff
    (p.body.code.length < 2 ^ 31 ∧ p.body.constants.length < 2 ^ 31 ∧ p.nested.length < 2 ^ 31 ∧
      p.body.lines.length < 2 ^ 31 ∧ p.body.locals.length < 2 ^ 31 ∧
      p.body.upvalues.length < 2 ^ 31)
    ⟨fun ⟨code, constants, nested, lines, locals, upvalues⟩ =>
        ⟨code, constants, nested, lines, locals, upvalues⟩,
      fun ⟨code, constants, nested, lines, locals, upvalues⟩ =>
        ⟨code, constants, nested, lines, locals, upvalues⟩⟩

mutual

/-- A function inside one of a given source name, with the functions nested in it. -/
def normalizeIn (outer : String) : Proto → Proto
  | ⟨body, nested⟩ =>
    ⟨body.normalize outer, normalizeAllIn (body.normalize outer).source nested⟩

/-- The functions of a list inside one of a given source name. -/
def normalizeAllIn (outer : String) : List Proto → List Proto
  | [] => []
  | p :: rest => normalizeIn outer p :: normalizeAllIn outer rest

end

/-- The normal form of a function that is not nested in another one. -/
def normalize (p : Proto) : Proto :=
  p.normalizeIn ""

/-- The functions of a list are brought into normal form one by one. -/
lemma normalizeAllIn_eq_map (outer : String) (ps : List Proto) :
    normalizeAllIn outer ps = ps.map (normalizeIn outer) := by
  induction ps with
  | nil => rfl
  | cons p ps ih => rw [normalizeAllIn, ih, List.map_cons]

end Proto

end LuaChunk
