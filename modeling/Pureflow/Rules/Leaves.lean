import Pureflow.Rules.Eval

/-!
The leaves of a condition tree, from left to right, and what a condition owes to them: two
evaluations that give every leaf the same value give the tree the same value.
-/

namespace Pureflow.Rules

open Pureflow.Types Pureflow.Core Pureflow.Lib

namespace Condition

mutual

/-- The leaves of a condition tree, as an evaluation would meet them. -/
def leaves : Condition → List Condition
  | .and conditions => leavesAll conditions
  | .or conditions => leavesAll conditions
  | .not inner => leaves inner
  | condition => [condition]

def leavesAll : List Condition → List Condition
  | [] => []
  | c :: rest => leaves c ++ leavesAll rest

end

lemma leavesAll_eq (cs : List Condition) : leavesAll cs = cs.flatMap leaves := by
  induction cs with
  | nil => rfl
  | cons c cs ih => rw [leavesAll, ih, List.flatMap_cons]

lemma leaves_of_isLeaf {c : Condition} (h : c.isLeaf = true) : c.leaves = [c] := by
  cases c <;> first | rfl | cases h

@[simp] lemma leaves_and (cs : List Condition) : (Condition.and cs).leaves = cs.flatMap leaves :=
  leavesAll_eq cs

@[simp] lemma leaves_or (cs : List Condition) : (Condition.or cs).leaves = cs.flatMap leaves :=
  leavesAll_eq cs

@[simp] lemma leaves_not (c : Condition) : (Condition.not c).leaves = c.leaves := rfl

lemma isLeaf_of_mem_leaves {c leaf : Condition} (h : leaf ∈ c.leaves) : leaf.isLeaf = true := by
  induction c using Condition.induction with
  | leaf c hc =>
    rw [leaves_of_isLeaf hc, List.mem_singleton] at h
    exact h ▸ hc
  | and cs ih =>
    rw [leaves_and, List.mem_flatMap] at h
    obtain ⟨c, hc, h⟩ := h
    exact ih c hc h
  | or cs ih =>
    rw [leaves_or, List.mem_flatMap] at h
    obtain ⟨c, hc, h⟩ := h
    exact ih c hc h
  | not c ih => exact ih h

lemma surface_of_isLeaf {c : Condition} (h : c.isLeaf = true) : c.surface ≠ .combinator := by
  cases c with
  | and cs | or cs | not c => cases h
  | _ => exact ConditionSurface.noConfusion

end Condition

/-- **A condition owes its value to its leaves**: two evaluations that agree on the leaves agree on
the tree. -/
lemma evalCondition_congr {payload payload' : PacketPayload} {context context' : EvalContext}
    {c : Condition}
    (h : ∀ leaf ∈ c.leaves,
      evalCondition payload context leaf = evalCondition payload' context' leaf) :
    evalCondition payload context c = evalCondition payload' context' c := by
  induction c using Condition.induction with
  | leaf c hc => exact h c (by rw [Condition.leaves_of_isLeaf hc]; exact List.mem_singleton_self c)
  | and cs ih =>
    have hcs : ∀ c ∈ cs, evalCondition payload context c = evalCondition payload' context' c :=
      fun c hc => ih c hc fun leaf hleaf =>
        h leaf (Condition.leaves_and cs ▸ List.mem_flatMap_of_mem hc hleaf)
    simp only [evalCondition, evalAll_eq]
    rw [Bool.eq_iff_iff, List.all_eq_true, List.all_eq_true]
    exact forall₂_congr fun c hc => by rw [hcs c hc]
  | or cs ih =>
    have hcs : ∀ c ∈ cs, evalCondition payload context c = evalCondition payload' context' c :=
      fun c hc => ih c hc fun leaf hleaf =>
        h leaf (Condition.leaves_or cs ▸ List.mem_flatMap_of_mem hc hleaf)
    simp only [evalCondition, evalAny_eq]
    rw [Bool.eq_iff_iff, List.any_eq_true, List.any_eq_true]
    exact exists_congr fun c => and_congr_right fun hc => by rw [hcs c hc]
  | not c ih =>
    simp only [evalCondition]
    rw [ih h]

end Pureflow.Rules
