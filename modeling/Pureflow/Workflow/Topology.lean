import Pureflow.Workflow.Graph
import Pureflow.Lib.Digraph
import Pureflow.Lib.Grouping
import Pureflow.Lib.Result

/-!
What graph validation accepts.

The topology built from the lists records, for every declared node, its ports, the set of
its successors and the number of edges into it. Kahn's loop keeps the number of edges into
a node less the number of listed predecessors, so a node becomes ready when the two agree:
its predecessors are all listed and no two edges join it to the same one.
-/

namespace Pureflow.Workflow

open Std Pureflow.Types Pureflow.Lib.Digraph Pureflow.Lib.Grouping Pureflow.Lib.Result

section Build

variable {nodes : List NodeDefinition} {edges : List EdgeDefinition}

/-- The node identifiers in declaration order. -/
def nodeIds (nodes : List NodeDefinition) : List NodeId := nodes.map NodeDefinition.id

/-- The ordered pairs of nodes that the edges join, one for every edge. -/
def arcs (edges : List EdgeDefinition) : List (NodeId × NodeId) :=
  edges.map EdgeDefinition.nodePair

def DeclaresOutput (nodes : List NodeDefinition) (endpoint : EdgeEndpoint) : Prop :=
  ∃ node ∈ nodes, node.id = endpoint.nodeId ∧ endpoint.portId ∈ node.outputPorts

def DeclaresInput (nodes : List NodeDefinition) (endpoint : EdgeEndpoint) : Prop :=
  ∃ node ∈ nodes, node.id = endpoint.nodeId ∧ endpoint.portId ∈ node.inputPorts

instance (endpoint : EdgeEndpoint) : Decidable (DeclaresOutput nodes endpoint) :=
  inferInstanceAs (Decidable (∃ node ∈ nodes, _ ∧ _))

instance (endpoint : EdgeEndpoint) : Decidable (DeclaresInput nodes endpoint) :=
  inferInstanceAs (Decidable (∃ node ∈ nodes, _ ∧ _))

/-- Every edge leads from a declared output port to a declared input port. -/
def EndpointsDeclared (nodes : List NodeDefinition) (edges : List EdgeDefinition) : Prop :=
  ∀ edge ∈ edges, DeclaresOutput nodes edge.source ∧ DeclaresInput nodes edge.target

instance : Decidable (EndpointsDeclared nodes edges) :=
  inferInstanceAs (Decidable (∀ edge ∈ edges, _ ∧ _))

lemma rejectDuplicateNodes_go (seen : ExtTreeSet NodeId) :
    rejectDuplicateNodes.go nodes seen = .ok () ↔ Fresh seen (nodeIds nodes) := by
  induction nodes generalizing seen with
  | nil => simp [rejectDuplicateNodes.go, nodeIds, fresh_nil]
  | cons node rest ih =>
    unfold rejectDuplicateNodes.go
    rw [nodeIds, List.map_cons, fresh_cons, ← nodeIds, ← ih]
    by_cases hs : node.id ∈ seen
    · simp [hs]
    · simp [hs]

lemma rejectDuplicateNodes_ok : rejectDuplicateNodes nodes = .ok () ↔ (nodeIds nodes).Nodup := by
  rw [rejectDuplicateNodes, rejectDuplicateNodes_go, fresh_empty]

lemma rejectDuplicatePorts_go {nodeId : NodeId} {ports : List PortId} (seen : ExtTreeSet PortId) :
    rejectDuplicatePorts.go nodeId ports seen = .ok () ↔ Fresh seen ports := by
  induction ports generalizing seen with
  | nil => simp [rejectDuplicatePorts.go, fresh_nil]
  | cons portId rest ih =>
    unfold rejectDuplicatePorts.go
    rw [fresh_cons, ← ih]
    by_cases hs : portId ∈ seen
    · simp [hs]
    · simp [hs]

lemma ports_nodup (node : NodeDefinition) : (node.inputPorts ++ node.outputPorts).Nodup :=
  fresh_empty.mp ((rejectDuplicatePorts_go ∅).mp node.valid)

/-- What the topology records about the lists it was built from. -/
structure Describes (nodes : List NodeDefinition) (edges : List EdgeDefinition)
    (t : GraphTopology) : Prop where
  ids : t.nodeIds = nodeIds nodes
  inputs : ∀ node ∈ nodes, t.inputsByNode[node.id]? = some (.ofList node.inputPorts)
  inputs_none : ∀ v ∉ nodeIds nodes, t.inputsByNode[v]? = none
  outputs : ∀ node ∈ nodes, t.outputsByNode[node.id]? = some (.ofList node.outputPorts)
  outputs_none : ∀ v ∉ nodeIds nodes, t.outputsByNode[v]? = none
  outgoing : ∀ v ∈ nodeIds nodes, ∃ s, t.outgoingByNode[v]? = some s ∧
    ∀ w, w ∈ s ↔ (v, w) ∈ arcs edges
  indeg : ∀ v, t.indegreeByNode[v]? =
    if v ∈ nodeIds nodes then some (indegree (arcs edges) v) else none
  size : t.indegreeByNode.size = nodes.length

lemma mem_nodeIds_append {rest : List NodeDefinition} {node : NodeDefinition} {v : NodeId} :
    v ∈ nodeIds (rest ++ [node]) ↔ v ∈ nodeIds rest ∨ node.id = v := by
  simp [nodeIds, eq_comm]

lemma Describes.addNode {rest : List NodeDefinition} {node : NodeDefinition} {t : GraphTopology}
    (h : Describes rest [] t) (hnew : node.id ∉ nodeIds rest) :
    Describes (rest ++ [node]) [] (t.addNode node) := by
  have hne : ∀ n ∈ rest, node.id ≠ n.id := fun n hn he =>
    hnew (he ▸ List.mem_map_of_mem hn)
  have hcontains : t.indegreeByNode.contains node.id = false := by
    have := h.indeg node.id
    rw [if_neg hnew] at this
    rw [ExtTreeMap.contains_eq_isSome_getElem?, this]; rfl
  constructor
  case ids => simp [GraphTopology.addNode, nodeIds, h.ids]
  case size => simp [GraphTopology.addNode, ExtTreeMap.size_insert, hcontains, h.size]
  all_goals simp only [GraphTopology.addNode, ExtTreeMap.getElem?_insert, Std.compare_eq_iff_eq,
    List.forall_mem_append, List.forall_mem_singleton, mem_nodeIds_append, not_or, if_true]
  case inputs =>
    exact ⟨fun n hn => by rw [if_neg (hne n hn), h.inputs n hn], trivial⟩
  case outputs =>
    exact ⟨fun n hn => by rw [if_neg (hne n hn), h.outputs n hn], trivial⟩
  case inputs_none =>
    rintro v ⟨hv, hn⟩
    rw [if_neg hn, h.inputs_none v hv]
  case outputs_none =>
    rintro v ⟨hv, hn⟩
    rw [if_neg hn, h.outputs_none v hv]
  case outgoing =>
    intro v hv
    by_cases hn : node.id = v
    · exact ⟨∅, by rw [if_pos hn], fun w => by simp [arcs]⟩
    · rw [if_neg hn]
      exact h.outgoing v (hv.resolve_right hn)
  case indeg =>
    intro v
    by_cases hn : node.id = v
    · simp [hn, arcs, indegree]
    · simp [hn, h.indeg v]

lemma describes_nodes (hnd : (nodeIds nodes).Nodup) :
    Describes nodes [] (nodes.foldl GraphTopology.addNode .empty) := by
  induction nodes using List.reverseRecOn with
  | nil => constructor <;> simp [GraphTopology.empty, nodeIds, arcs]
  | append_singleton rest node ih =>
    simp only [nodeIds, List.map_append, List.map_cons, List.map_nil] at hnd
    rw [List.foldl_append, List.foldl_cons, List.foldl_nil]
    exact (ih hnd.of_append_left).addNode fun h => List.disjoint_of_nodup_append hnd h (by simp)

lemma exists_ports_iff {m : ExtTreeMap NodeId (ExtTreeSet PortId)}
    {ports : NodeDefinition → List PortId} {endpoint : EdgeEndpoint}
    (hsome : ∀ node ∈ nodes, m[node.id]? = some (ExtTreeSet.ofList (ports node) compare))
    (hnone : ∀ v ∉ nodeIds nodes, m[v]? = none) :
    (∃ s, m[endpoint.nodeId]? = some s ∧ endpoint.portId ∈ s) ↔
      ∃ node ∈ nodes, node.id = endpoint.nodeId ∧ endpoint.portId ∈ ports node := by
  constructor
  · rintro ⟨s, hs, hp⟩
    have hmem : endpoint.nodeId ∈ nodeIds nodes := by
      by_contra hc
      rw [hnone _ hc] at hs
      cases hs
    obtain ⟨node, hn, he⟩ := List.mem_map.mp hmem
    rw [← he, hsome node hn] at hs
    cases hs
    exact ⟨node, hn, he, by simpa [ExtTreeSet.mem_ofList] using hp⟩
  · rintro ⟨node, hn, he, hp⟩
    exact ⟨_, he ▸ hsome node hn, by simpa [ExtTreeSet.mem_ofList] using hp⟩

lemma validateEndpoint_ok {t : GraphTopology} {edgeIndex : ℕ} {role : EdgeEndpointRole}
    {endpoint : EdgeEndpoint} {expected : PortDirection} :
    t.validateEndpoint edgeIndex role endpoint expected = .ok () ↔
      ∃ s, (t.portsByNode expected)[endpoint.nodeId]? = some s ∧ endpoint.portId ∈ s := by
  unfold GraphTopology.validateEndpoint
  cases (t.portsByNode expected)[endpoint.nodeId]? with
  | none => simp
  | some s => by_cases hp : endpoint.portId ∈ s <;> simp [hp]

variable {t : GraphTopology} {edge : EdgeDefinition}

lemma Describes.validateSource (h : Describes nodes edges t) (edgeIndex : ℕ) :
    t.validateEndpoint edgeIndex .source edge.source .output = .ok () ↔
      DeclaresOutput nodes edge.source :=
  validateEndpoint_ok.trans (exists_ports_iff h.outputs h.outputs_none)

lemma Describes.validateTarget (h : Describes nodes edges t) (edgeIndex : ℕ) :
    t.validateEndpoint edgeIndex .target edge.target .input = .ok () ↔
      DeclaresInput nodes edge.target :=
  validateEndpoint_ok.trans (exists_ports_iff h.inputs h.inputs_none)

lemma DeclaresOutput.mem (h : DeclaresOutput nodes edge.source) :
    edge.source.nodeId ∈ nodeIds nodes := by
  obtain ⟨node, hn, he, -⟩ := h
  exact he ▸ List.mem_map_of_mem hn

lemma DeclaresInput.mem (h : DeclaresInput nodes edge.target) :
    edge.target.nodeId ∈ nodeIds nodes := by
  obtain ⟨node, hn, he, -⟩ := h
  exact he ▸ List.mem_map_of_mem hn

/-- An edge is added exactly when both its endpoints are declared. -/
lemma Describes.addEdge_ok (h : Describes nodes edges t) (edgeIndex : ℕ) :
    (∃ t', t.addEdge edgeIndex edge = .ok t') ↔
      DeclaresOutput nodes edge.source ∧ DeclaresInput nodes edge.target := by
  unfold GraphTopology.addEdge
  simp only [bind_eq_ok, h.validateSource, h.validateTarget]
  constructor
  · rintro ⟨t', -, hs, -, ht, -⟩
    exact ⟨hs, ht⟩
  · rintro ⟨hs, ht⟩
    obtain ⟨s, hout, -⟩ := h.outgoing _ hs.mem
    have hin := h.indeg edge.target.nodeId
    rw [if_pos ht.mem] at hin
    rw [hout, hin]
    exact ⟨_, (), hs, (), ht, rfl⟩

lemma arcs_append : arcs (edges ++ [edge]) = arcs edges ++ [edge.nodePair] := by
  simp [arcs]

lemma indegree_arcs_append (v : NodeId) :
    indegree (arcs (edges ++ [edge])) v =
      indegree (arcs edges) v + if edge.target.nodeId = v then 1 else 0 := by
  simp [arcs_append, indegree, List.countP_append, List.countP_cons, EdgeDefinition.nodePair]

lemma Describes.addEdge {t' : GraphTopology} {edgeIndex : ℕ} (h : Describes nodes edges t)
    (ht : t.addEdge edgeIndex edge = .ok t') : Describes nodes (edges ++ [edge]) t' := by
  obtain ⟨hs, htgt⟩ := (h.addEdge_ok edgeIndex).mp ⟨t', ht⟩
  obtain ⟨s, hout, hmem⟩ := h.outgoing _ hs.mem
  have hin := h.indeg edge.target.nodeId
  rw [if_pos htgt.mem] at hin
  have ht' : t' = { t with
      outgoingByNode := t.outgoingByNode.insert edge.source.nodeId (s.insert edge.target.nodeId)
      indegreeByNode := t.indegreeByNode.insert edge.target.nodeId
        (indegree (arcs edges) edge.target.nodeId + 1) } := by
    unfold GraphTopology.addEdge at ht
    simp only [bind_eq_ok, hout, hin, Except.ok.injEq] at ht
    obtain ⟨-, -, -, -, rfl⟩ := ht
    rfl
  have hcontains : t.indegreeByNode.contains edge.target.nodeId = true := by
    rw [ExtTreeMap.contains_eq_isSome_getElem?, hin]; rfl
  subst ht'
  refine ⟨h.ids, h.inputs, h.inputs_none, h.outputs, h.outputs_none, fun v hv => ?_, fun v => ?_, ?_⟩
  · rw [ExtTreeMap.getElem?_insert]
    by_cases hv' : edge.source.nodeId = v
    · subst hv'
      refine ⟨_, by rw [if_pos Std.compare_self], fun w => ?_⟩
      simp [hmem, arcs_append, EdgeDefinition.nodePair, or_comm, @eq_comm _ w]
    · obtain ⟨s', hs', hw⟩ := h.outgoing v hv
      refine ⟨s', by rw [if_neg (by simpa using hv'), hs'], fun w => ?_⟩
      have hv'' : v ≠ edge.source.nodeId := Ne.symm hv'
      simp [hw, arcs_append, EdgeDefinition.nodePair, hv'']
  · rw [ExtTreeMap.getElem?_insert, indegree_arcs_append]
    by_cases hv : edge.target.nodeId = v
    · subst hv
      simp [htgt.mem]
    · simp [hv, h.indeg v]
  · simp [ExtTreeMap.size_insert, hcontains, h.size]

lemma Describes.addEdges_ok (h : Describes nodes edges t) (edgeIndex : ℕ)
    (rest : List EdgeDefinition) :
    (∃ t', GraphTopology.addEdges edgeIndex rest t = .ok t') ↔ EndpointsDeclared nodes rest := by
  induction rest generalizing edges t edgeIndex with
  | nil => simp [GraphTopology.addEdges, EndpointsDeclared]
  | cons edge rest ih =>
    simp only [GraphTopology.addEdges, bind_eq_ok, EndpointsDeclared, List.forall_mem_cons]
    rw [← h.addEdge_ok edgeIndex]
    constructor
    · rintro ⟨t', t1, h1, h2⟩
      exact ⟨⟨t1, h1⟩, (ih (h.addEdge h1) _).mp ⟨t', h2⟩⟩
    · rintro ⟨⟨t1, h1⟩, h2⟩
      obtain ⟨t', ht'⟩ := (ih (h.addEdge h1) (edgeIndex + 1)).mpr h2
      exact ⟨t', t1, h1, ht'⟩

lemma Describes.addEdges {t' : GraphTopology} {edgeIndex : ℕ} {rest : List EdgeDefinition}
    (h : Describes nodes edges t) (ht : GraphTopology.addEdges edgeIndex rest t = .ok t') :
    Describes nodes (edges ++ rest) t' := by
  induction rest generalizing edges t edgeIndex with
  | nil =>
    cases ht
    simpa using h
  | cons edge rest ih =>
    simp only [GraphTopology.addEdges, bind_eq_ok] at ht
    obtain ⟨t1, h1, h2⟩ := ht
    simpa using ih (h.addEdge h1) h2

/-- **What the structural checks accept**: distinct nodes and declared endpoints. -/
theorem fromGraph_ok : (∃ t, GraphTopology.fromGraph nodes edges = .ok t) ↔
    (nodeIds nodes).Nodup ∧ EndpointsDeclared nodes edges := by
  simp only [GraphTopology.fromGraph, bind_eq_ok]
  constructor
  · rintro ⟨t, ⟨⟩, hdup, ht⟩
    have hnd := rejectDuplicateNodes_ok.mp hdup
    exact ⟨hnd, ((describes_nodes hnd).addEdges_ok 0 edges).mp ⟨t, ht⟩⟩
  · rintro ⟨hnd, hdecl⟩
    obtain ⟨t, ht⟩ := ((describes_nodes hnd).addEdges_ok 0 edges).mpr hdecl
    exact ⟨t, (), rejectDuplicateNodes_ok.mpr hnd, ht⟩

lemma describes_of_fromGraph (h : GraphTopology.fromGraph nodes edges = .ok t) :
    Describes nodes edges t := by
  simp only [GraphTopology.fromGraph, bind_eq_ok] at h
  obtain ⟨⟨⟩, hdup, ht⟩ := h
  simpa using (describes_nodes (rejectDuplicateNodes_ok.mp hdup)).addEdges ht

end Build

lemma graph_valid (workflow : WorkflowDefinition) :
    (nodeIds workflow.nodes).Nodup ∧ EndpointsDeclared workflow.nodes workflow.edges := by
  have h := workflow.graph.valid
  simp only [validate, bind_eq_ok] at h
  obtain ⟨t, ht, -⟩ := h
  exact fromGraph_ok.mp ⟨t, ht⟩

end Pureflow.Workflow
