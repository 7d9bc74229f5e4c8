import Mathlib
import LuaChunk.Proto

/-!
# Trees of functions

A function is a tree whose subtrees are the functions nested in it.  `Proto.nestedInduction` is the
induction over such a tree, and `Proto.functions` lists the tree, so that a statement about a
function at any depth is one about the members of this list.
-/

namespace LuaChunk.Proto

/-- Induction over a function and the functions nested in it. -/
@[elab_as_elim]
theorem nestedInduction {motive : Proto → Prop}
    (mk : ∀ body nested, (∀ q ∈ nested, motive q) → motive ⟨body, nested⟩) (p : Proto) :
    motive p :=
  @Proto.rec motive (fun ps => ∀ q ∈ ps, motive q) mk
    (fun _ mem => absurd mem List.not_mem_nil)
    (fun _ _ first others q mem => by
      obtain rfl | mem := List.mem_cons.mp mem
      · exact first
      · exact others q mem) p

mutual

/-- A function and the functions nested in it at any depth, each in front of those inside it. -/
def functions : Proto → List Proto
  | ⟨body, nested⟩ => ⟨body, nested⟩ :: functionsOf nested

/-- The functions at any depth of the members of a list. -/
def functionsOf : List Proto → List Proto
  | [] => []
  | p :: rest => functions p ++ functionsOf rest

end

/-- The functions of a list of trees are those of each tree in order. -/
lemma functionsOf_eq_flatMap (ps : List Proto) : functionsOf ps = ps.flatMap functions := by
  induction ps with
  | nil => rfl
  | cons p ps ih => rw [functionsOf, ih, List.flatMap_cons]

/-- What holds of all functions of a tree holds of its root and of all functions of its
subtrees. -/
lemma forall_functions_iff {holds : Proto → Prop} {body : FunctionBody} {nested : List Proto} :
    (∀ f ∈ functions ⟨body, nested⟩, holds f) ↔
      holds ⟨body, nested⟩ ∧ ∀ q ∈ nested, ∀ f ∈ q.functions, holds f := by
  rw [functions, functionsOf_eq_flatMap, List.forall_mem_cons]
  refine and_congr_right fun _ => ⟨fun h q mem f inside => ?_, fun h f inside => ?_⟩
  · exact h f (List.mem_flatMap.mpr ⟨q, mem, inside⟩)
  · obtain ⟨q, mem, inside⟩ := List.mem_flatMap.mp inside
    exact h q mem f inside

/-- What is inside of a nested function is inside of the function around it. -/
lemma mem_functions_of_mem {body : FunctionBody} {nested : List Proto} {f q : Proto}
    (mem : q ∈ nested) (inside : f ∈ q.functions) : f ∈ functions ⟨body, nested⟩ := by
  rw [functions, functionsOf_eq_flatMap]
  exact List.mem_cons_of_mem _ (List.mem_flatMap.mpr ⟨q, mem, inside⟩)

end LuaChunk.Proto
