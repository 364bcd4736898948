import Mathlib

/-!
Topological orders of a finite set of nodes, and the greedy one among them.

A topological order lists every node after its predecessors. It is greedy if each node is the least
of those whose predecessors are all listed. There is at most one greedy order; it is the first of
all topological orders in the dictionary, and it does not depend on how the nodes are given.
-/

namespace Pureflow.Lib.Digraph

variable {α : Type*}

/-- A node that may come next: it is not listed, and its predecessors all are. -/
structure Available (r : α → α → Prop) (nodes listed : List α) (v : α) : Prop where
  mem : v ∈ nodes
  new : v ∉ listed
  preds : ∀ u, r u v → u ∈ listed

/-- All nodes, each after its predecessors. -/
structure Topological (r : α → α → Prop) (nodes order : List α) : Prop where
  perm : order.Perm nodes
  forward : ∀ before v after, order = before ++ v :: after → ∀ u, r u v → u ∈ before

/-- A topological order in which each node is the least of those that may come next. -/
structure Greedy (r le : α → α → Prop) (nodes order : List α) : Prop extends
    Topological r nodes order where
  least : ∀ before v after, order = before ++ v :: after →
    ∀ w, Available r nodes before w → le v w

/-- The first list comes before the second one in the dictionary: where they part, it goes on with
a smaller element. -/
def DictionaryLess (le : α → α → Prop) (order order' : List α) : Prop :=
  ∃ common v w rest rest', order = common ++ v :: rest ∧ order' = common ++ w :: rest' ∧
    le v w ∧ v ≠ w

section Orders

variable {r le : α → α → Prop} {nodes nodes' order order' : List α}

lemma Topological.available (h : Topological r nodes order) (hnodes : nodes.Nodup)
    {before after : List α} {v : α} (horder : order = before ++ v :: after) :
    Available r nodes before v := by
  have hnodup : (before ++ v :: after).Nodup := horder ▸ h.perm.nodup_iff.mpr hnodes
  refine ⟨h.perm.mem_iff.mp ?_, fun hv => ?_, h.forward before v after horder⟩
  · rw [horder]
    exact List.mem_append_right before List.mem_cons_self
  · exact List.disjoint_of_nodup_append hnodup hv List.mem_cons_self

/-- Two topological orders with a common part either go on alike or part somewhere. -/
lemma Topological.part (h : Topological r nodes order) (h' : Topological r nodes order')
    (common rest rest' : List α) (horder : order = common ++ rest)
    (horder' : order' = common ++ rest') :
    rest = rest' ∨ ∃ more v w tail tail', order = common ++ more ++ v :: tail ∧
      order' = common ++ more ++ w :: tail' ∧ v ≠ w := by
  have hlength : rest.length = rest'.length := by
    have hsame := h.perm.length_eq.trans h'.perm.length_eq.symm
    rw [horder, horder', List.length_append, List.length_append] at hsame
    omega
  induction rest generalizing common rest' with
  | nil => exact .inl (List.length_eq_zero_iff.mp hlength.symm).symm
  | cons v rest ih =>
    cases rest' with
    | nil => cases hlength
    | cons w rest' =>
      by_cases hvw : v = w
      · subst hvw
        have hrest : rest.length = rest'.length := Nat.succ_inj.mp hlength
        rcases ih (common ++ [v]) rest' (by simp [horder]) (by simp [horder']) hrest with
          hsame | ⟨more, x, y, tail, tail', hx, hy, hxy⟩
        · exact .inl (congrArg (v :: ·) hsame)
        · refine .inr ⟨v :: more, x, y, tail, tail', ?_, ?_, hxy⟩
          · simpa using hx
          · simpa using hy
      · refine .inr ⟨[], v, w, rest, rest', ?_, ?_, hvw⟩
        · simpa using horder
        · simpa using horder'

/-- **The greedy order comes first**: before every other topological order in the dictionary. -/
theorem Greedy.eq_or_less (h : Greedy r le nodes order) (hnodes : nodes.Nodup)
    (h' : Topological r nodes order') : order = order' ∨ DictionaryLess le order order' := by
  rcases h.toTopological.part h' [] order order' rfl rfl with
    hsame | ⟨common, v, w, rest, rest', hv, hw, hvw⟩
  · exact .inl hsame
  · rw [List.nil_append] at hv hw
    have havailable := h'.available hnodes hw
    exact .inr ⟨common, v, w, rest, rest', hv, hw, h.least common v rest hv w havailable, hvw⟩

/-- **There is one greedy order.** -/
theorem Greedy.unique (hantisymm : ∀ v w, le v w → le w v → v = w) (hnodes : nodes.Nodup)
    (h : Greedy r le nodes order) (h' : Greedy r le nodes order') : order = order' := by
  rcases h.eq_or_less hnodes h'.toTopological with
    hsame | ⟨common, v, w, rest, rest', hv, hw, hle, hvw⟩
  · exact hsame
  · have hback := h'.least common w rest' hw v (h.available hnodes hv)
    exact absurd (hantisymm v w hle hback) hvw

/-- The greedy order does not depend on how the nodes are listed, nor on how the relation is
presented. -/
lemma Greedy.congr {r' : α → α → Prop} (h : Greedy r le nodes order) (hperm : nodes.Perm nodes')
    (hr : ∀ u v, r' u v ↔ r u v) : Greedy r' le nodes' order where
  perm := h.perm.trans hperm
  forward before v after horder u hu := h.forward before v after horder u ((hr u v).mp hu)
  least before v after horder w hw := by
    refine h.least before v after horder w ⟨hperm.mem_iff.mpr hw.mem, hw.new, fun u hu => ?_⟩
    exact hw.preds u ((hr u w).mpr hu)

lemma Topological.idxOf_lt [DecidableEq α] (h : Topological r nodes order) (hnodes : nodes.Nodup)
    {u v : α} (hv : v ∈ nodes) (huv : r u v) : order.idxOf u < order.idxOf v := by
  obtain ⟨before, after, horder⟩ := List.append_of_mem (h.perm.mem_iff.mpr hv)
  have hu : u ∈ before := h.forward before v after horder u huv
  have hnew : v ∉ before := (h.available hnodes horder).new
  rw [horder, List.idxOf_append_of_mem hu, List.idxOf_append_of_notMem hnew]
  have hlt := List.idxOf_lt_length_of_mem hu
  omega

end Orders

end Pureflow.Lib.Digraph
