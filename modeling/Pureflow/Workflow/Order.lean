import Pureflow.Lib.Greedy
import Pureflow.Workflow.Sorting

/-!
The order that Kahn's loop lists the nodes in.

The ready set is popped at its least node, and a node is ready when the edges into it are all
accounted for. In a graph that is accepted these are the nodes with all predecessors listed, so the
loop lists the greedy topological order, whatever the order of the declarations.
-/

namespace Pureflow.Workflow

open Std Pureflow.Types Pureflow.Lib.Digraph Pureflow.Lib.Result GraphTopology

/-- The order of node identifiers. -/
def IdLE (v w : NodeId) : Prop := (compare v w).isLE = true

lemma IdLE.antisymm {v w : NodeId} (h : IdLE v w) (h' : IdLE w v) : v = w := by
  unfold IdLE at h h'
  rw [@OrientedCmp.eq_swap _ compare _ w v] at h'
  exact LawfulEqCmp.eq_of_compare (Ordering.eq_eq_of_isLE_of_isLE_swap h h')

variable {nodes : List NodeDefinition} {edges : List EdgeDefinition} {t : GraphTopology}
  {s : Sorting}

/-- Every node was the least of the ready ones when it was listed. -/
def LeastListed (nodes : List NodeDefinition) (edges : List EdgeDefinition) (s : Sorting) : Prop :=
  ∀ before v after, s.order = before ++ v :: after → ∀ w ∈ nodeIds nodes, w ∉ before →
    indegree (arcs edges) w = listedPreds (arcs edges) before w → IdLE v w

lemma head_le {ready : ExtTreeSet NodeId} {n w : NodeId} (hn : ready.toList.head? = some n)
    (hw : w ∈ ready) : IdLE n w := by
  have hordered := ExtTreeSet.ordered_toList (t := ready)
  obtain ⟨rest, hrest⟩ := List.head?_eq_some_iff.mp hn
  rw [← ExtTreeSet.mem_toList, hrest] at hw
  rw [hrest, List.pairwise_cons] at hordered
  unfold IdLE
  rcases List.mem_cons.mp hw with rfl | hw
  · have hself : compare w w = .eq := ReflCmp.compare_self
    rw [hself]
    rfl
  · rw [hordered.1 w hw]
    rfl

lemma visit_least (hd : Describes nodes edges t) (h : SortInv nodes edges s)
    (hleast : LeastListed nodes edges s) {n : NodeId} (hn : s.ready.toList.head? = some n) :
    LeastListed nodes edges (t.visit s n) := by
  have hr : n ∈ s.ready := ExtTreeSet.mem_toList.mp (List.mem_of_head? hn)
  obtain ⟨horder, -, -⟩ := visit_spec (s := s) hd ((h.ready n).mp hr).1
  intro before v after hsplit w hw hnew hcount
  rw [horder] at hsplit
  rcases List.eq_nil_or_concat after with rfl | ⟨after', x, rfl⟩
  · obtain ⟨rfl, hv⟩ := List.append_inj' hsplit rfl
    obtain rfl : n = v := List.singleton_inj.mp hv
    exact head_le hn ((h.ready w).mpr ⟨hw, hnew, hcount⟩)
  · rw [List.concat_eq_append, ← List.cons_append, ← List.append_assoc] at hsplit
    exact hleast before v after' (List.append_inj_left' hsplit rfl) w hw hnew hcount

lemma drain_least (hd : Describes nodes edges t) (he : EndpointsDeclared nodes edges) (fuel : ℕ)
    (h : SortInv nodes edges s) (hleast : LeastListed nodes edges s) :
    LeastListed nodes edges (t.drain fuel s) := by
  induction fuel generalizing s with
  | zero => exact hleast
  | succ fuel ih =>
    unfold drain
    split
    · exact hleast
    · next n hn =>
      have hr : n ∈ s.ready := ExtTreeSet.mem_toList.mp (List.mem_of_head? hn)
      exact ih (visit_inv hd he h hr) (visit_least hd h hleast hn)

/-- **The loop lists the greedy order**, when it lists all nodes. -/
lemma greedy_of_topologicalOrder (hd : Describes nodes edges t) (hnd : (nodeIds nodes).Nodup)
    (he : EndpointsDeclared nodes edges) {order : List NodeId}
    (h : t.topologicalOrder = .ok order) : Greedy (Joins edges) IdLE (nodeIds nodes) order := by
  obtain ⟨-, harcs⟩ := (topologicalOrder_ok hd hnd he).mp ⟨order, h⟩
  obtain ⟨hinv, -⟩ := drain_start hd he
  have hleast := drain_least hd he t.indegreeByNode.size (startSorting_inv hd)
    (show LeastListed nodes edges t.startSorting by simp [LeastListed, startSorting])
  obtain ⟨horder, hlength⟩ : (t.drain t.indegreeByNode.size t.startSorting).order = order ∧
      order.length = (nodeIds nodes).length := by
    unfold topologicalOrder at h
    rw [hd.ids] at h
    dsimp only at h
    split_ifs at h with hlength
    obtain rfl := Except.ok.inj h
    exact ⟨rfl, hlength⟩
  have hall := (hinv.length_eq hnd).mp (horder ▸ hlength)
  subst horder
  refine ⟨⟨?_, fun before v after hsplit u hu => hinv.preds_before hsplit hu⟩, ?_⟩
  · exact (List.perm_ext_iff_of_nodup hinv.nodup hnd).mpr fun v => ⟨hinv.subset v, hall v⟩
  · intro before v after hsplit w hw
    have hbefore : before.Nodup := (hsplit ▸ hinv.nodup).of_append_left
    exact hleast before v after hsplit w hw.mem hw.new ((indegree_eq_listedPreds hbefore).mpr
      ⟨(nodup_arcs _).mp harcs w, fun u hu => hw.preds u hu⟩)

section Graphs

variable {nodes' : List NodeDefinition} {edges' : List EdgeDefinition}

lemma topologicalOrder_eq_ok {g : WorkflowGraph} {order : List NodeId} :
    g.topologicalOrder = .ok order ↔
      ∃ t, fromGraph g.nodes g.edges = .ok t ∧ t.topologicalOrder = .ok order := bind_eq_ok

lemma arcs_perm (h : edges'.Perm edges) : (arcs edges').Perm (arcs edges) := h.map _

lemma joins_perm (h : edges'.Perm edges) (u v : NodeId) : Joins edges' u v ↔ Joins edges u v :=
  (arcs_perm h).mem_iff

lemma endpointsDeclared_perm (hnodes : nodes'.Perm nodes) (hedges : edges'.Perm edges)
    (h : EndpointsDeclared nodes edges) : EndpointsDeclared nodes' edges' := by
  intro edge hedge
  obtain ⟨⟨source, hsource, hs⟩, target, htarget, ht⟩ := h edge (hedges.mem_iff.mp hedge)
  exact ⟨⟨source, hnodes.mem_iff.mpr hsource, hs⟩, ⟨target, hnodes.mem_iff.mpr htarget, ht⟩⟩

lemma topologicalOrder_perm {g : WorkflowGraph} {order : List NodeId}
    (h : g.topologicalOrder = .ok order) (hnodes : nodes'.Perm g.nodes)
    (hedges : edges'.Perm g.edges) :
    ∃ g', WorkflowGraph.withCyclesAllowed nodes' edges' = .ok g' ∧ g'.nodes = nodes' ∧
      g'.edges = edges' ∧ g'.topologicalOrder = .ok order := by
  obtain ⟨t, ht, horder⟩ := topologicalOrder_eq_ok.mp h
  obtain ⟨hnd, hdecl⟩ := fromGraph_ok.mp ⟨t, ht⟩
  obtain ⟨hacyclic, harcs⟩ :=
    (topologicalOrder_ok (describes_of_fromGraph ht) hnd hdecl).mp ⟨order, horder⟩
  have hids : (nodeIds nodes').Perm (nodeIds g.nodes) := hnodes.map _
  have hnd' : (nodeIds nodes').Nodup := hids.nodup_iff.mpr hnd
  have hdecl' := endpointsDeclared_perm hnodes hedges hdecl
  have hjoins : Joins edges' = Joins g.edges := by
    funext u v
    exact propext (joins_perm hedges u v)
  obtain ⟨t', ht'⟩ := fromGraph_ok.mpr ⟨hnd', hdecl'⟩
  have hd' := describes_of_fromGraph ht'
  obtain ⟨order', horder'⟩ := (topologicalOrder_ok hd' hnd' hdecl').mpr
    ⟨hjoins ▸ hacyclic, (arcs_perm hedges).nodup_iff.mpr harcs⟩
  have hgreedy := (greedy_of_topologicalOrder hd' hnd' hdecl' horder').congr hids
    fun u v => (joins_perm hedges u v).symm
  have hsame := hgreedy.unique (fun _ _ => IdLE.antisymm) hnd
    (greedy_of_topologicalOrder (describes_of_fromGraph ht) hnd hdecl horder)
  have hvalid : validate nodes' edges' true = .ok () := by
    rw [validate, ht']
    rfl
  refine ⟨⟨nodes', edges', hvalid⟩, ?_, rfl, rfl, ?_⟩
  · unfold WorkflowGraph.withCyclesAllowed WorkflowGraph.build
    split
    · rfl
    · next err herr =>
      rw [hvalid] at herr
      cases herr
  · exact topologicalOrder_eq_ok.mpr ⟨t', ht', hsame ▸ horder'⟩

/-- **The topological order of a graph.** An order that a graph returns is a permutation of its
nodes in which every edge leads forward; each node is the least of those whose predecessors are
listed; every other topological order comes later in the dictionary; and the same declarations in
any other order return the same. -/
theorem topological_order_canonical (g : WorkflowGraph) (order : List NodeId)
    (h : g.topologicalOrder = .ok order) :
    order.Perm (nodeIds g.nodes) ∧
    (∀ edge ∈ g.edges, order.idxOf edge.source.nodeId < order.idxOf edge.target.nodeId) ∧
    (∀ before v after, order = before ++ v :: after →
      Available (Joins g.edges) (nodeIds g.nodes) before v ∧
      ∀ w, Available (Joins g.edges) (nodeIds g.nodes) before w → IdLE v w) ∧
    (∀ other, Topological (Joins g.edges) (nodeIds g.nodes) other →
      order = other ∨ DictionaryLess IdLE order other) ∧
    ∀ nodes' edges', nodes'.Perm g.nodes → edges'.Perm g.edges →
      ∃ g', WorkflowGraph.withCyclesAllowed nodes' edges' = .ok g' ∧ g'.nodes = nodes' ∧
        g'.edges = edges' ∧ g'.topologicalOrder = .ok order := by
  obtain ⟨t, ht, horder⟩ := topologicalOrder_eq_ok.mp h
  obtain ⟨hnd, hdecl⟩ := fromGraph_ok.mp ⟨t, ht⟩
  have hgreedy := greedy_of_topologicalOrder (describes_of_fromGraph ht) hnd hdecl horder
  refine ⟨hgreedy.perm, fun edge hedge => ?_, fun before v after hsplit => ?_, fun other hother => ?_,
    fun nodes' edges' hnodes hedges => topologicalOrder_perm h hnodes hedges⟩
  · have hjoins : Joins g.edges edge.source.nodeId edge.target.nodeId :=
      List.mem_map_of_mem hedge
    exact hgreedy.idxOf_lt hnd (hdecl.target_mem hjoins) hjoins
  · exact ⟨hgreedy.available hnd hsplit, hgreedy.least before v after hsplit⟩
  · exact hgreedy.eq_or_less hnd hother

end Graphs

section Sample

/-- Two sources, declared the other way round, and the node they lead to, declared first. -/
def joinNodes : List NodeDefinition :=
  [⟨⟨"a", node_a_valid⟩, [⟨"left", port_left_valid⟩, ⟨"right", port_right_valid⟩], [], by decide⟩,
   ⟨⟨"c", node_c_valid⟩, [], [⟨"out", port_out_valid⟩], by decide⟩,
   ⟨⟨"b", node_b_valid⟩, [], [⟨"out", port_out_valid⟩], by decide⟩]

def joinEdges : List EdgeDefinition :=
  [⟨⟨⟨"c", node_c_valid⟩, ⟨"out", port_out_valid⟩⟩,
     ⟨⟨"a", node_a_valid⟩, ⟨"left", port_left_valid⟩⟩, .default⟩,
   ⟨⟨⟨"b", node_b_valid⟩, ⟨"out", port_out_valid⟩⟩,
     ⟨⟨"a", node_a_valid⟩, ⟨"right", port_right_valid⟩⟩, .default⟩]

def joinGraph : WorkflowGraph := ⟨joinNodes, joinEdges, by decide⟩

theorem topological_order_canonical_sample :
    [(⟨"b", by decide⟩ : NodeId), ⟨"c", by decide⟩, ⟨"a", by decide⟩].Perm (nodeIds joinNodes) ∧
    ∃ g', WorkflowGraph.withCyclesAllowed joinNodes.reverse joinEdges.reverse = .ok g' ∧
      g'.topologicalOrder = .ok [⟨"b", by decide⟩, ⟨"c", by decide⟩, ⟨"a", by decide⟩] := by
  have horder : joinGraph.topologicalOrder =
      .ok [⟨"b", by decide⟩, ⟨"c", by decide⟩, ⟨"a", by decide⟩] := by decide
  obtain ⟨hperm, -, -, -, hsame⟩ := topological_order_canonical joinGraph _ horder
  obtain ⟨g', hg', -, -, horder'⟩ := hsame joinNodes.reverse joinEdges.reverse
    (List.reverse_perm joinNodes) (List.reverse_perm joinEdges)
  exact ⟨hperm, g', hg', horder'⟩

end Sample

end Pureflow.Workflow
