import Pureflow.Workflow.Topology

/-!
Kahn's loop, and what it decides.

The invariant says what the three variables hold between rounds: the listed nodes are
distinct, each was listed after all its predecessors, and a node is ready when it is not
listed and the edges into it are all accounted for. The loop lists every node exactly when
the node pairs have no cycle and no pair is joined by two edges.
-/

namespace Pureflow.Workflow

open Std Pureflow.Types Pureflow.Lib.Digraph Pureflow.Lib.Result GraphTopology

lemma relaxChild_order (s : Sorting) (child : NodeId) : (relaxChild s child).order = s.order := by
  unfold relaxChild
  split
  · rfl
  · dsimp only
    split <;> rfl

lemma relaxChild_indegree (s : Sorting) (child v : NodeId) :
    (relaxChild s child).indegreeByNode[v]? =
      (s.indegreeByNode[v]?).map fun d => if child = v then d - 1 else d := by
  unfold relaxChild
  split
  · next h =>
    by_cases hv : child = v
    · subst hv; simp [h]
    · simp [hv]
  · next d h =>
    have hins : (s.indegreeByNode.insert child (d - 1))[v]? =
        (s.indegreeByNode[v]?).map fun d => if child = v then d - 1 else d := by
      rw [ExtTreeMap.getElem?_insert]
      by_cases hv : child = v
      · subst hv; simp [h]
      · simp [hv]
    dsimp only
    split <;> exact hins

lemma mem_relaxChild_ready (s : Sorting) (child v : NodeId) :
    v ∈ (relaxChild s child).ready ↔
      v ∈ s.ready ∨ child = v ∧ ∃ d, s.indegreeByNode[v]? = some d ∧ d - 1 = 0 := by
  unfold relaxChild
  split
  · next h =>
    refine ⟨Or.inl, fun hv => hv.resolve_right ?_⟩
    rintro ⟨rfl, d, hd, -⟩
    rw [h] at hd
    cases hd
  · next d h =>
    dsimp only
    split
    · next h0 =>
      rw [ExtTreeSet.mem_insert, Std.compare_eq_iff_eq, or_comm]
      refine or_congr_right ⟨fun hv => ⟨hv, d, hv ▸ h, h0⟩, And.left⟩
    · next h0 =>
      refine ⟨Or.inl, fun hv => hv.resolve_right ?_⟩
      rintro ⟨rfl, d', hd, h0'⟩
      rw [h] at hd
      cases hd
      exact h0 h0'

lemma foldl_relaxChild {children : List NodeId} (hnd : children.Nodup) (s : Sorting) :
    (children.foldl relaxChild s).order = s.order ∧
    (∀ v, (children.foldl relaxChild s).indegreeByNode[v]? =
      (s.indegreeByNode[v]?).map fun d => if v ∈ children then d - 1 else d) ∧
    ∀ v, v ∈ (children.foldl relaxChild s).ready ↔
      v ∈ s.ready ∨ v ∈ children ∧ ∃ d, s.indegreeByNode[v]? = some d ∧ d - 1 = 0 := by
  induction children generalizing s with
  | nil => simp
  | cons child rest ih =>
    obtain ⟨hnew, hrest⟩ := List.nodup_cons.mp hnd
    obtain ⟨h1, h2, h3⟩ := ih hrest (relaxChild s child)
    rw [List.foldl_cons]
    refine ⟨h1.trans (relaxChild_order s child), fun v => ?_, fun v => ?_⟩
    · rw [h2, relaxChild_indegree, Option.map_map]
      congr 1
      funext d
      by_cases hv : child = v
      · subst hv; simp [hnew]
      · simp [hv, Ne.symm hv]
    · rw [h3, mem_relaxChild_ready, relaxChild_indegree]
      by_cases hv : child = v
      · subst hv; simp [hnew]
      · simp [hv, Ne.symm hv]

/-- What holds between two rounds of the outer loop. -/
structure SortInv (nodes : List NodeDefinition) (edges : List EdgeDefinition) (s : Sorting) :
    Prop where
  nodup : s.order.Nodup
  subset : ∀ v ∈ s.order, v ∈ nodeIds nodes
  indeg : ∀ v ∈ nodeIds nodes, s.indegreeByNode[v]? =
    some (indegree (arcs edges) v - listedPreds (arcs edges) s.order v)
  ready : ∀ v, v ∈ s.ready ↔ v ∈ nodeIds nodes ∧ v ∉ s.order ∧
    indegree (arcs edges) v = listedPreds (arcs edges) s.order v
  listed : ∀ before v after, s.order = before ++ v :: after →
    indegree (arcs edges) v = listedPreds (arcs edges) before v

variable {nodes : List NodeDefinition} {edges : List EdgeDefinition} {t : GraphTopology}
  {s : Sorting}

/-- A listed node has all its predecessors listed before it. -/
lemma SortInv.preds_before (h : SortInv nodes edges s) {before after : List NodeId} {u v : NodeId}
    (ho : s.order = before ++ v :: after) (hu : (u, v) ∈ arcs edges) : u ∈ before := by
  have hnd : before.Nodup := (ho ▸ h.nodup).of_append_left
  exact ((indegree_eq_listedPreds hnd).mp (h.listed before v after ho)).2 u hu

lemma SortInv.preds_listed (h : SortInv nodes edges s) {u v : NodeId} (hv : v ∈ s.order)
    (hu : (u, v) ∈ arcs edges) : u ∈ s.order := by
  obtain ⟨before, after, ho⟩ := List.append_of_mem hv
  rw [ho]
  exact List.mem_append_left _ (h.preds_before ho hu)

lemma SortInv.idxOf_lt (h : SortInv nodes edges s) {u v : NodeId} (hv : v ∈ s.order)
    (hu : (u, v) ∈ arcs edges) : s.order.idxOf u < s.order.idxOf v := by
  obtain ⟨before, after, ho⟩ := List.append_of_mem hv
  have hbefore : u ∈ before := h.preds_before ho hu
  have hnew : v ∉ before := fun hv =>
    List.disjoint_of_nodup_append (ho ▸ h.nodup) hv List.mem_cons_self
  rw [ho, List.idxOf_append_of_mem hbefore, List.idxOf_append_of_notMem hnew]
  have hlt := List.idxOf_lt_length_of_mem hbefore
  omega

lemma startSorting_inv (hd : Describes nodes edges t) : SortInv nodes edges t.startSorting := by
  refine ⟨List.nodup_nil, by simp [startSorting], fun v hv => ?_, fun v => ?_, by simp [startSorting]⟩
  · simp [startSorting, hd.indeg v, hv, listedPreds]
  · simp only [startSorting, ExtTreeSet.mem_ofList, List.contains_iff_mem, List.mem_map,
      List.mem_filter, decide_eq_true_eq, Prod.exists, exists_and_right, exists_eq_right,
      ExtTreeMap.mem_toList_iff_getElem?_eq_some, hd.indeg v, listedPreds, List.countP_nil,
      List.not_mem_nil, not_false_eq_true, true_and]
    by_cases hv : v ∈ nodeIds nodes <;> simp [hv]

lemma EndpointsDeclared.target_mem (h : EndpointsDeclared nodes edges) {u v : NodeId}
    (huv : (u, v) ∈ arcs edges) : v ∈ nodeIds nodes := by
  obtain ⟨edge, he, hp⟩ := List.mem_map.mp huv
  cases hp
  exact (h edge he).2.mem

lemma EndpointsDeclared.source_mem (h : EndpointsDeclared nodes edges) {u v : NodeId}
    (huv : (u, v) ∈ arcs edges) : u ∈ nodeIds nodes := by
  obtain ⟨edge, he, hp⟩ := List.mem_map.mp huv
  cases hp
  exact (h edge he).1.mem

/-- One round of the outer loop, in the terms of the invariant. -/
lemma visit_spec (hd : Describes nodes edges t) {n : NodeId} (hn : n ∈ nodeIds nodes) :
    (t.visit s n).order = s.order ++ [n] ∧
    (∀ v, (t.visit s n).indegreeByNode[v]? =
      (s.indegreeByNode[v]?).map fun d => if (n, v) ∈ arcs edges then d - 1 else d) ∧
    ∀ v, v ∈ (t.visit s n).ready ↔ (n ≠ v ∧ v ∈ s.ready) ∨
      (n, v) ∈ arcs edges ∧ ∃ d, s.indegreeByNode[v]? = some d ∧ d - 1 = 0 := by
  obtain ⟨children, hc, hmem⟩ := hd.outgoing n hn
  have hnd : children.toList.Nodup :=
    List.Pairwise.imp (fun h he => h (by simp [he])) ExtTreeSet.distinct_toList
  unfold visit
  rw [hc]
  obtain ⟨h1, h2, h3⟩ := foldl_relaxChild hnd
    { s with ready := s.ready.erase n, order := s.order ++ [n] }
  refine ⟨h1, fun v => ?_, fun v => ?_⟩
  · simpa [ExtTreeSet.mem_toList, hmem] using h2 v
  · simpa [ExtTreeSet.mem_toList, hmem, ExtTreeSet.mem_erase] using h3 v

lemma visit_inv (hd : Describes nodes edges t) (he : EndpointsDeclared nodes edges)
    (h : SortInv nodes edges s) {n : NodeId} (hr : n ∈ s.ready) :
    SortInv nodes edges (t.visit s n) := by
  obtain ⟨hn, hnew, hall⟩ := (h.ready n).mp hr
  have hpreds := ((indegree_eq_listedPreds h.nodup).mp hall).2
  obtain ⟨h1, h2, h3⟩ := visit_spec (s := s) hd hn
  have hnd : (s.order ++ [n]).Nodup := List.nodup_append.mpr
    ⟨h.nodup, List.nodup_singleton _, fun u hu w hw => by
      rw [List.mem_singleton] at hw
      exact fun heq => hnew (hw ▸ heq ▸ hu)⟩
  refine ⟨h1 ▸ hnd, ?_, fun v hv => ?_, fun v => ?_, ?_⟩
  · rw [h1]
    intro v hv
    rcases List.mem_append.mp hv with hv' | hv'
    · exact h.subset v hv'
    · rw [List.mem_singleton.mp hv']; exact hn
  · rw [h2, h.indeg v hv, h1, listedPreds_append_singleton]
    split_ifs <;> simp [Nat.sub_sub]
  · -- a node is ready when the edges into it are all accounted for
    have hle : listedPreds (arcs edges) (s.order ++ [n]) v ≤ indegree (arcs edges) v :=
      listedPreds_le hnd
    rw [h3, h1]
    rw [listedPreds_append_singleton] at hle ⊢
    simp only [List.mem_append, List.mem_singleton, not_or]
    constructor
    · rintro (⟨hne, hv⟩ | ⟨hnv, d, hdv, hd0⟩)
      · obtain ⟨hv1, hv2, hv3⟩ := (h.ready v).mp hv
        exact ⟨hv1, ⟨hv2, hne.symm⟩, by omega⟩
      · have hv1 := he.target_mem hnv
        rw [h.indeg v hv1] at hdv
        cases hdv
        rw [if_pos hnv] at hle ⊢
        refine ⟨hv1, ⟨fun hv => hnew (h.preds_listed hv hnv), ?_⟩, by omega⟩
        rintro rfl
        exact hnew (hpreds v hnv)
    · rintro ⟨hv1, ⟨hv2, hne⟩, hv3⟩
      by_cases hnv : (n, v) ∈ arcs edges
      · rw [if_pos hnv] at hv3
        exact .inr ⟨hnv, _, h.indeg v hv1, by omega⟩
      · rw [if_neg hnv] at hv3
        exact .inl ⟨Ne.symm hne, (h.ready v).mpr ⟨hv1, hv2, hv3⟩⟩
  · rw [h1]
    intro before v after ho
    rcases List.eq_nil_or_concat after with rfl | ⟨after', w, rfl⟩
    · obtain ⟨rfl, hv⟩ := List.append_inj' ho rfl
      cases hv
      exact hall
    · rw [List.concat_eq_append, ← List.cons_append, ← List.append_assoc] at ho
      exact h.listed before v after' (List.append_inj_left' ho rfl)

/-- With fuel for the nodes not yet listed, the loop ends with nothing ready. -/
lemma drain_inv (hd : Describes nodes edges t) (he : EndpointsDeclared nodes edges) (fuel : ℕ)
    (h : SortInv nodes edges s) (hfuel : nodes.length ≤ s.order.length + fuel) :
    SortInv nodes edges (t.drain fuel s) ∧ ∀ v, v ∉ (t.drain fuel s).ready := by
  induction fuel generalizing s with
  | zero =>
    refine ⟨h, fun v hv => ?_⟩
    -- every node is listed, so none is ready
    obtain ⟨hv1, hv2, -⟩ := (h.ready v).mp hv
    have hsub : (v :: s.order).Subperm (nodeIds nodes) :=
      (List.nodup_cons.mpr ⟨hv2, h.nodup⟩).subperm
        (List.cons_subset.mpr ⟨hv1, fun u hu => h.subset u hu⟩)
    have := hsub.length_le
    simp [nodeIds] at this
    omega
  | succ fuel ih =>
    unfold drain
    split
    · next hnone =>
      refine ⟨h, fun v hv => ?_⟩
      rw [List.head?_eq_none_iff, ExtTreeSet.toList_eq_nil_iff] at hnone
      simp [hnone] at hv
    · next n hsome =>
      have hr : n ∈ s.ready := ExtTreeSet.mem_toList.mp (List.mem_of_head? hsome)
      obtain ⟨h1, -, -⟩ := visit_spec (s := s) hd ((h.ready n).mp hr).1
      exact ih (visit_inv hd he h hr) (by rw [h1]; simp; omega)

/-- Some edge leads from one node to the other. -/
def Joins (edges : List EdgeDefinition) (u v : NodeId) : Prop := (u, v) ∈ arcs edges

lemma drain_start (hd : Describes nodes edges t) (he : EndpointsDeclared nodes edges) :
    SortInv nodes edges (t.drain t.indegreeByNode.size t.startSorting) ∧
      ∀ v, v ∉ (t.drain t.indegreeByNode.size t.startSorting).ready :=
  drain_inv hd he _ (startSorting_inv hd) (by rw [hd.size]; simp [startSorting])

lemma SortInv.length_eq (h : SortInv nodes edges s) (hnd : (nodeIds nodes).Nodup) :
    s.order.length = (nodeIds nodes).length ↔ ∀ v ∈ nodeIds nodes, v ∈ s.order := by
  have hsub : s.order.Subperm (nodeIds nodes) := h.nodup.subperm fun v hv => h.subset v hv
  constructor
  · intro hlen v hv
    exact (hsub.perm_of_length_le hlen.ge).mem_iff.mpr hv
  · intro hall
    exact Nat.le_antisymm hsub.length_le (hnd.subperm fun v hv => hall v hv).length_le

/-- **What Kahn's loop decides**: every node is listed exactly when the node pairs have no
cycle and no two edges join the same pair. -/
theorem topologicalOrder_ok (hd : Describes nodes edges t) (hnd : (nodeIds nodes).Nodup)
    (he : EndpointsDeclared nodes edges) :
    (∃ order, t.topologicalOrder = .ok order) ↔
      Acyclic (Joins edges) ∧ (arcs edges).Nodup := by
  obtain ⟨hinv, hdone⟩ := drain_start hd he
  generalize hs : t.drain t.indegreeByNode.size t.startSorting = s at hinv hdone
  have hiff : (∃ order, t.topologicalOrder = .ok order) ↔ ∀ v ∈ nodeIds nodes, v ∈ s.order := by
    rw [← hinv.length_eq hnd]
    unfold topologicalOrder
    rw [hs, hd.ids]
    by_cases hlen : s.order.length = (nodeIds nodes).length <;> simp [hlen]
  rw [hiff]
  constructor
  · intro hall
    refine ⟨acyclic_of_rank s.order.idxOf fun u v huv => ?_, (nodup_arcs _).mpr fun v => ?_⟩
    · exact hinv.idxOf_lt (hall v (he.target_mem huv)) huv
    · by_cases hv : v ∈ nodeIds nodes
      · obtain ⟨before, after, ho⟩ := List.append_of_mem (hall v hv)
        have hb : before.Nodup := (ho ▸ hinv.nodup).of_append_left
        exact ((indegree_eq_listedPreds hb).mp (hinv.listed before v after ho)).1
      · have hnone : preds (arcs edges) v = [] := List.eq_nil_iff_forall_not_mem.mpr
          fun u hu => hv (he.target_mem ((mem_preds _).mp hu))
        rw [hnone]
        exact List.nodup_nil
  · rintro ⟨hacyc, harcs⟩
    by_contra hc
    push Not at hc
    obtain ⟨w, hw, hw'⟩ := hc
    -- an unlisted node whose predecessors are all listed would be ready
    obtain ⟨v, ⟨hv, hv'⟩, hmin⟩ := hacyc.exists_source
      (s := {v | v ∈ nodeIds nodes ∧ v ∉ s.order})
      ((List.finite_toSet (nodeIds nodes)).subset fun v hv => hv.1) ⟨w, hw, hw'⟩
    have hlisted : ∀ u, (u, v) ∈ arcs edges → u ∈ s.order := by
      intro u hu
      by_contra hu'
      exact hmin u ⟨he.source_mem hu, hu'⟩ hu
    exact hdone v ((hinv.ready v).mpr ⟨hv, hv',
      (indegree_eq_listedPreds hinv.nodup).mpr ⟨(nodup_arcs _).mp harcs v, hlisted⟩⟩)

/-- What an acceptable workflow graph is: distinct nodes, declared endpoints, no directed
cycle. -/
structure Acceptable (nodes : List NodeDefinition) (edges : List EdgeDefinition) : Prop where
  distinct : (nodeIds nodes).Nodup
  declared : EndpointsDeclared nodes edges
  acyclic : Acyclic (Joins edges)

/-- `WorkflowGraph::new` returns a graph. -/
def Accepts (nodes : List NodeDefinition) (edges : List EdgeDefinition) : Prop :=
  ∃ graph, WorkflowGraph.new nodes edges = .ok graph

lemma build_ok {allowCycles : Bool} :
    (∃ graph, WorkflowGraph.build nodes edges allowCycles = .ok graph) ↔
      validate nodes edges allowCycles = .ok () := by
  unfold WorkflowGraph.build
  split
  · next h => simp [h]
  · next err h => simp [h]

lemma accepts_iff : Accepts nodes edges ↔ Acceptable nodes edges ∧ (arcs edges).Nodup := by
  unfold Accepts WorkflowGraph.new
  rw [build_ok]
  simp only [validate, bind_eq_ok, Bool.not_false, if_true]
  constructor
  · rintro ⟨t, ht, order, horder, -⟩
    obtain ⟨hnd, hdecl⟩ := fromGraph_ok.mp ⟨t, ht⟩
    obtain ⟨hacyc, harcs⟩ := (topologicalOrder_ok (describes_of_fromGraph ht) hnd hdecl).mp
      ⟨order, horder⟩
    exact ⟨⟨hnd, hdecl, hacyc⟩, harcs⟩
  · rintro ⟨⟨hnd, hdecl, hacyc⟩, harcs⟩
    obtain ⟨t, ht⟩ := fromGraph_ok.mpr ⟨hnd, hdecl⟩
    obtain ⟨order, horder⟩ := (topologicalOrder_ok (describes_of_fromGraph ht) hnd hdecl).mpr
      ⟨hacyc, harcs⟩
    exact ⟨t, ht, order, horder, rfl⟩

/-- Edge lists that induce the same directed graph on the nodes. -/
def SamePairs (edges edges' : List EdgeDefinition) : Prop := ∀ u v, Joins edges u v ↔ Joins edges' u v

lemma Acceptable.of_samePairs {edges' : List EdgeDefinition} (h : Acceptable nodes edges)
    (hp : SamePairs edges edges') (hd : EndpointsDeclared nodes edges') :
    Acceptable nodes edges' := by
  have hj : Joins edges' = Joins edges := by
    funext u v
    exact propext (hp u v).symm
  exact ⟨h.distinct, hd, hj ▸ h.acyclic⟩

/-- **Acceptance**: validation decides acceptability exactly on the lists that are not
acceptable or join no pair of nodes twice, and between two lists with declared endpoints
that induce the same graph it decides alike exactly when they agree on that. -/
theorem new_decides_acceptable_iff (nodes : List NodeDefinition) (edges : List EdgeDefinition) :
    ((Accepts nodes edges ↔ Acceptable nodes edges) ↔
      (Acceptable nodes edges → (edges.map EdgeDefinition.nodePair).Nodup)) ∧
    ∀ edges', EndpointsDeclared nodes edges → EndpointsDeclared nodes edges' →
      SamePairs edges edges' →
      ((Accepts nodes edges ↔ Accepts nodes edges') ↔
        (Acceptable nodes edges → ((edges.map EdgeDefinition.nodePair).Nodup ↔
          (edges'.map EdgeDefinition.nodePair).Nodup))) := by
  refine ⟨?_, fun edges' hd hd' hp => ?_⟩
  · rw [accepts_iff]
    exact ⟨fun h ha => (h.mpr ha).2, fun h => ⟨And.left, fun ha => ⟨ha, h ha⟩⟩⟩
  · have hacc : Acceptable nodes edges' ↔ Acceptable nodes edges :=
      ⟨fun h => h.of_samePairs (fun u v => (hp u v).symm) hd, fun h => h.of_samePairs hp hd'⟩
    rw [accepts_iff, accepts_iff, hacc]
    exact and_congr_right_iff

/-! ### Two edges between one pair of nodes -/

def fanOutNodes : List NodeDefinition :=
  [⟨⟨"a", node_a_valid⟩, [], [⟨"left", port_left_valid⟩, ⟨"right", port_right_valid⟩], by decide⟩,
   ⟨⟨"b", node_b_valid⟩, [⟨"in", port_in_valid⟩], [], by decide⟩]

def fanOutEdges : List EdgeDefinition :=
  [⟨⟨⟨"a", node_a_valid⟩, ⟨"left", port_left_valid⟩⟩,
     ⟨⟨"b", node_b_valid⟩, ⟨"in", port_in_valid⟩⟩, .default⟩,
   ⟨⟨⟨"a", node_a_valid⟩, ⟨"right", port_right_valid⟩⟩,
     ⟨⟨"b", node_b_valid⟩, ⟨"in", port_in_valid⟩⟩, .default⟩]

/-- Two output ports of `a` lead to the input port of `b`: an acceptable graph, rejected
with a cycle that is no cycle. -/
theorem new_rejects_parallel_edges :
    Acceptable fanOutNodes fanOutEdges ∧ ¬ Accepts fanOutNodes fanOutEdges ∧
      WorkflowGraph.new fanOutNodes fanOutEdges = .error (.cycleDetected [⟨"b", by decide⟩]) := by
  have hnew : WorkflowGraph.new fanOutNodes fanOutEdges =
      .error (.cycleDetected [⟨"b", by decide⟩]) := by decide
  have hrank : ∀ p ∈ arcs fanOutEdges,
      (nodeIds fanOutNodes).idxOf p.1 < (nodeIds fanOutNodes).idxOf p.2 := by decide
  refine ⟨⟨by decide, by decide, ?_⟩, ?_, hnew⟩
  · exact acyclic_of_rank (fun v => (nodeIds fanOutNodes).idxOf v) fun u v huv => hrank (u, v) huv
  · rintro ⟨graph, h⟩
    rw [hnew] at h
    cases h

end Pureflow.Workflow
