import Pureflow.Core.Ports
import Pureflow.Lib.Grouping
import Pureflow.Workflow.Sorting

/-!
The wiring of a workflow: one channel for every edge, and the port handles each node is given.

The source's maps are filled edge by edge and emptied node by node, and a node's handles are
regrouped by port. Channels are numbered in the order they are made, so the number of a channel
is the index of its edge.
-/

namespace Pureflow.Engine

open Std Pureflow.Types Pureflow.Core Pureflow.Lib Pureflow.Lib.Grouping Pureflow.Workflow

def defaultEdgeCapacity : ℕ+ := 1

abbrev PortWiring :=
  ExtTreeMap NodeId (List InputPortHandle) × ExtTreeMap NodeId (List OutputPortHandle)

/-- One round of the loop over the edges. -/
def wireEdge (wiring : PortWiring) (channel : ℕ) (edge : EdgeDefinition) : PortWiring :=
  let capacity := edge.capacity.resolve defaultEdgeCapacity
  let (output, input) :=
    boundedEdgeChannel channel edge.source.portId edge.target.portId capacity
  (push wiring.1 edge.target.nodeId input, push wiring.2 edge.source.nodeId output)

def buildPortWiring.go : ℕ → List EdgeDefinition → PortWiring → PortWiring
  | _, [], wiring => wiring
  | channel, edge :: rest, wiring => go (channel + 1) rest (wireEdge wiring channel edge)

def buildPortWiring (workflow : WorkflowDefinition) : PortWiring :=
  buildPortWiring.go 0 workflow.edges (∅, ∅)

/-- The ports a node is run with. -/
structure NodePorts where
  nodeId : NodeId
  inputs : PortsIn
  outputs : PortsOut

/-- The loop over the nodes: each takes its handles out of the wiring. -/
def connectNodes : List NodeDefinition → PortWiring → List NodePorts
  | [], _ => []
  | node :: rest, (inputsByNode, outputsByNode) =>
    { nodeId := node.id
      inputs := .fromHandles node.inputPorts (inputsByNode[node.id]?.getD [])
      outputs := .fromHandles node.outputPorts (outputsByNode[node.id]?.getD []) } ::
      connectNodes rest (inputsByNode.erase node.id, outputsByNode.erase node.id)

def nodePorts (workflow : WorkflowDefinition) : List NodePorts :=
  connectNodes workflow.nodes (buildPortWiring workflow)

section Handles

variable {End : Type}

/-- The ends of the handles of one port, in the order of the handles. -/
def endsAt (handles : List (PortHandle End)) (portId : PortId) : List End :=
  (handles.filter (·.portId = portId)).flatMap (·.ends)

/-- The map holds for every port the ends of its handles; a port without handles has none. -/
def Collects (byPort : ExtTreeMap PortId (PortHandle End)) (handles : List (PortHandle End)) :
    Prop :=
  ∀ portId : PortId,
    byPort[portId]?.getD (.disconnected portId) = ⟨portId, endsAt handles portId⟩

lemma endsAt_append (handles : List (PortHandle End)) (handle : PortHandle End)
    (portId : PortId) :
    endsAt (handles ++ [handle]) portId =
      endsAt handles portId ++ if handle.portId = portId then handle.ends else [] := by
  by_cases h : handle.portId = portId
  · simp [endsAt, h]
  · simp [endsAt, h]

lemma collects_collect {byPort : ExtTreeMap PortId (PortHandle End)}
    {handles : List (PortHandle End)} (h : Collects byPort handles) (handle : PortHandle End) :
    Collects (PortHandle.collect byPort handle) (handles ++ [handle]) := by
  intro portId
  have hport := h portId
  rw [endsAt_append]
  by_cases heq : handle.portId = portId
  · subst heq
    unfold PortHandle.collect
    cases hfound : byPort[handle.portId]? with
    | none =>
      rw [hfound, Option.getD_none, PortHandle.disconnected, PortHandle.mk.injEq] at hport
      simp [← hport.2]
    | some existing =>
      rw [hfound, Option.getD_some] at hport
      simp [hport, PortHandle.append]
  · -- another port's entry is not touched
    have hsame : (PortHandle.collect byPort handle)[portId]? = byPort[portId]? := by
      unfold PortHandle.collect
      split <;> simp [ExtTreeMap.getElem?_insert, heq]
    rw [hsame, hport, if_neg heq, List.append_nil]

lemma collects_foldl (handles : List (PortHandle End)) :
    Collects (handles.foldl PortHandle.collect ∅) handles := by
  induction handles using List.reverseRecOn with
  | nil => exact fun portId => by simp [endsAt, PortHandle.disconnected]
  | append_singleton rest handle ih =>
    rw [List.foldl_append]
    exact collects_collect ih handle

/-- Distinct ports are taken out as if none had been taken before. -/
lemma takePorts_eq {portIds : List PortId} (hnd : portIds.Nodup)
    (byPort : ExtTreeMap PortId (PortHandle End)) :
    PortHandle.takePorts portIds byPort =
      portIds.map fun portId => byPort[portId]?.getD (.disconnected portId) := by
  induction portIds generalizing byPort with
  | nil => rfl
  | cons portId rest ih =>
    obtain ⟨hmem, hnd⟩ := List.nodup_cons.mp hnd
    rw [PortHandle.takePorts, ih hnd, List.map_cons]
    congr 1
    refine List.map_congr_left fun other hother => ?_
    have hne : portId ≠ other := fun he => hmem (he ▸ hother)
    simp [ExtTreeMap.getElem?_erase, hne]

/-- **Regrouping**: every declared port gets the ends of its handles, in their order. -/
theorem fromHandles_eq {portIds : List PortId} (hnd : portIds.Nodup)
    (handles : List (PortHandle End)) :
    PortHandle.fromHandles portIds handles =
      portIds.map fun portId => ⟨portId, endsAt handles portId⟩ := by
  rw [PortHandle.fromHandles, takePorts_eq hnd]
  exact List.map_congr_left fun portId _ => collects_foldl handles portId

lemma find_map {portIds : List PortId} {f : PortId → List End} {portId : PortId}
    (h : portId ∈ portIds) :
    PortHandle.find (portIds.map fun p => ⟨p, f p⟩) portId = some ⟨portId, f portId⟩ := by
  unfold PortHandle.find
  induction portIds with
  | nil => cases h
  | cons p rest ih =>
    by_cases hp : p = portId
    · simp [hp]
    · simpa [hp] using ih ((List.mem_cons.mp h).resolve_left fun he => hp he.symm)

end Handles

section Edges

/-- An edge with the number of its channel. -/
abbrev Wire := EdgeDefinition × ℕ

namespace Wire

def capacity (wire : Wire) : ℕ := wire.1.capacity.resolve defaultEdgeCapacity

def sender (wire : Wire) : Sender := ⟨wire.2, wire.capacity⟩

def receiver (wire : Wire) : Receiver := ⟨wire.2, wire.capacity⟩

end Wire

/-- The edges in declaration order, with their channels. -/
def wires (workflow : WorkflowDefinition) : List Wire := workflow.edges.zipIdx

def wiresFrom (workflow : WorkflowDefinition) (endpoint : EdgeEndpoint) : List Wire :=
  (wires workflow).filter (·.1.source = endpoint)

def wiresInto (workflow : WorkflowDefinition) (endpoint : EdgeEndpoint) : List Wire :=
  (wires workflow).filter (·.1.target = endpoint)

lemma buildPortWiring_go (channel : ℕ) (edges : List EdgeDefinition) (wiring : PortWiring) :
    buildPortWiring.go channel edges wiring =
      ((edges.zipIdx channel).foldl (fun m (wire : Wire) =>
          push m wire.1.target.nodeId (.connected wire.1.target.portId wire.receiver)) wiring.1,
        (edges.zipIdx channel).foldl (fun m (wire : Wire) =>
          push m wire.1.source.nodeId (.connected wire.1.source.portId wire.sender)) wiring.2) := by
  induction edges generalizing channel wiring with
  | nil => rfl
  | cons edge rest ih =>
    rw [buildPortWiring.go, ih]
    rfl

lemma endsAt_connected {End : Type} (endpoint : Wire → EdgeEndpoint) (held : Wire → End)
    (ws : List Wire) (e : EdgeEndpoint) :
    endsAt ((ws.filter fun w => (endpoint w).nodeId = e.nodeId).map fun w =>
        .connected (endpoint w).portId (held w)) e.portId =
      (ws.filter (endpoint · = e)).map held := by
  induction ws with
  | nil => rfl
  | cons w ws ih =>
    rw [endsAt] at ih ⊢
    by_cases hnode : (endpoint w).nodeId = e.nodeId
    · by_cases hport : (endpoint w).portId = e.portId
      · have heq : endpoint w = e := EdgeEndpoint.ext hnode hport
        simp [heq, ← ih, PortHandle.connected]
      · have hne : endpoint w ≠ e := fun he => hport (by rw [he])
        simpa [hnode, hport, hne, PortHandle.connected] using ih
    · have hne : endpoint w ≠ e := fun he => hnode (by rw [he])
      simpa [hnode, hne] using ih

lemma outputs_endsAt (workflow : WorkflowDefinition) (endpoint : EdgeEndpoint) :
    endsAt ((buildPortWiring workflow).2[endpoint.nodeId]?.getD []) endpoint.portId =
      (wiresFrom workflow endpoint).map Wire.sender := by
  rw [buildPortWiring, buildPortWiring_go, foldl_push_getD]
  exact endsAt_connected (·.1.source) Wire.sender (wires workflow) endpoint

lemma inputs_endsAt (workflow : WorkflowDefinition) (endpoint : EdgeEndpoint) :
    endsAt ((buildPortWiring workflow).1[endpoint.nodeId]?.getD []) endpoint.portId =
      (wiresInto workflow endpoint).map Wire.receiver := by
  rw [buildPortWiring, buildPortWiring_go, foldl_push_getD]
  exact endsAt_connected (·.1.target) Wire.receiver (wires workflow) endpoint

end Edges

section Nodes

/-- What a node of the workflow is given. -/
def wired (workflow : WorkflowDefinition) (node : NodeDefinition) : NodePorts where
  nodeId := node.id
  inputs := ⟨node.inputPorts, node.inputPorts.map fun p =>
    ⟨p, (wiresInto workflow ⟨node.id, p⟩).map Wire.receiver⟩, false, none⟩
  outputs := ⟨node.outputPorts, node.outputPorts.map fun p =>
    ⟨p, (wiresFrom workflow ⟨node.id, p⟩).map Wire.sender⟩, false, none, none⟩

/-- Nodes with distinct ids take their handles out as if none had been taken before. -/
lemma connectNodes_eq {nodes : List NodeDefinition} (hnd : (nodeIds nodes).Nodup)
    (wiring : PortWiring) :
    connectNodes nodes wiring = nodes.map fun node =>
      { nodeId := node.id
        inputs := .fromHandles node.inputPorts (wiring.1[node.id]?.getD [])
        outputs := .fromHandles node.outputPorts (wiring.2[node.id]?.getD []) } := by
  induction nodes generalizing wiring with
  | nil => rfl
  | cons node rest ih =>
    obtain ⟨hmem, hnd⟩ := List.nodup_cons.mp hnd
    rw [connectNodes, ih hnd, List.map_cons]
    congr 1
    refine List.map_congr_left fun other hother => ?_
    have hne : node.id ≠ other.id := fun he => hmem (he ▸ List.mem_map_of_mem hother)
    simp [ExtTreeMap.getElem?_erase, hne]

/-- The two loops together give every node the ends of the edges at its ports. -/
theorem nodePorts_eq (workflow : WorkflowDefinition) :
    nodePorts workflow = workflow.nodes.map (wired workflow) := by
  rw [nodePorts, connectNodes_eq (graph_valid workflow).1]
  refine List.map_congr_left fun node _ => ?_
  have hnd := List.nodup_append.mp (ports_nodup node)
  rw [PortsIn.fromHandles, PortsOut.fromHandles, fromHandles_eq hnd.1, fromHandles_eq hnd.2.1]
  unfold wired
  congr 3
  · funext p
    exact congrArg _ (inputs_endsAt workflow ⟨node.id, p⟩)
  · funext p
    exact congrArg _ (outputs_endsAt workflow ⟨node.id, p⟩)

end Nodes

section Exact

variable {workflow : WorkflowDefinition}

/-- The endpoints that the nodes declare on one side. -/
def endpoints (ports : NodeDefinition → List PortId) (nodes : List NodeDefinition) :
    List EdgeEndpoint :=
  nodes.flatMap fun node => (ports node).map fun p => ⟨node.id, p⟩

lemma endpoints_nodup {ports : NodeDefinition → List PortId} {nodes : List NodeDefinition}
    (hnodes : (nodeIds nodes).Nodup) (hports : ∀ node, (ports node).Nodup) :
    (endpoints ports nodes).Nodup := by
  induction nodes with
  | nil => exact List.nodup_nil
  | cons node rest ih =>
    obtain ⟨hmem, hnodes⟩ := List.nodup_cons.mp hnodes
    refine List.nodup_append.mpr ⟨?_, ih hnodes, ?_⟩
    · exact (hports node).map fun p q he => (EdgeEndpoint.mk.injEq _ _ _ _ ▸ he).2
    · -- a later node has another id
      intro e he e' he' heq
      obtain ⟨p, -, rfl⟩ := List.mem_map.mp he
      obtain ⟨other, hother, he'⟩ := List.mem_flatMap.mp he'
      obtain ⟨q, -, rfl⟩ := List.mem_map.mp he'
      have hid : node.id = other.id := congrArg EdgeEndpoint.nodeId heq
      exact hmem (hid ▸ List.mem_map_of_mem hother)

/-- The senders the nodes hold, with the node and port each is held under. -/
def heldSenders (ports : List NodePorts) : List (EdgeEndpoint × Sender) :=
  ports.flatMap fun n => n.outputs.ports.flatMap fun h => h.ends.map (⟨n.nodeId, h.portId⟩, ·)

def heldReceivers (ports : List NodePorts) : List (EdgeEndpoint × Receiver) :=
  ports.flatMap fun n => n.inputs.ports.flatMap fun h => h.ends.map (⟨n.nodeId, h.portId⟩, ·)

lemma held_perm {End : Type} {ports : NodeDefinition → List PortId} (endpoint : Wire → EdgeEndpoint)
    (held : Wire → End) (hnd : (endpoints ports workflow.nodes).Nodup)
    (hmem : ∀ wire ∈ wires workflow, endpoint wire ∈ endpoints ports workflow.nodes) :
    (workflow.nodes.flatMap fun node => (ports node).flatMap fun p =>
      ((wires workflow).filter (endpoint · = ⟨node.id, p⟩)).map fun wire =>
        ((⟨node.id, p⟩ : EdgeEndpoint), held wire)).Perm
      ((wires workflow).map fun wire => (endpoint wire, held wire)) := by
  have hkeys : (workflow.nodes.flatMap fun node => (ports node).flatMap fun p =>
      ((wires workflow).filter (endpoint · = ⟨node.id, p⟩)).map fun wire =>
        ((⟨node.id, p⟩ : EdgeEndpoint), held wire)) =
      ((endpoints ports workflow.nodes).flatMap fun e =>
        (wires workflow).filter (endpoint · = e)).map fun wire => (endpoint wire, held wire) := by
    rw [endpoints, List.flatMap_assoc, List.map_flatMap]
    refine List.flatMap_congr fun node _ => ?_
    rw [List.flatMap_map, List.map_flatMap]
    refine List.flatMap_congr fun p _ => List.map_congr_left fun wire hwire => ?_
    rw [(of_decide_eq_true (List.mem_filter.mp hwire).2 : endpoint wire = _)]
  have hall : (wires workflow).filter (endpoint · ∈ endpoints ports workflow.nodes) =
      wires workflow := by
    rw [List.filter_eq_self]
    exact fun wire hwire => decide_eq_true (hmem wire hwire)
  have hperm := flatMap_filter_perm hnd endpoint (wires workflow)
  rw [hall] at hperm
  rw [hkeys]
  exact hperm.map _

lemma mem_wires {wire : Wire} (h : wire ∈ wires workflow) : wire.1 ∈ workflow.edges :=
  (List.mem_zipIdx' h).2 ▸ List.getElem_mem _

lemma heldSenders_perm : (heldSenders (nodePorts workflow)).Perm
    ((wires workflow).map fun wire => (wire.1.source, wire.sender)) := by
  obtain ⟨hnodes, hdeclared⟩ := graph_valid workflow
  have hports (node : NodeDefinition) := (List.nodup_append.mp (ports_nodup node)).2.1
  have hmem : ∀ wire ∈ wires workflow,
      wire.1.source ∈ endpoints (·.outputPorts) workflow.nodes := by
    intro wire hwire
    obtain ⟨node, hnode, hid, hport⟩ := (hdeclared _ (mem_wires hwire)).1
    exact List.mem_flatMap.mpr ⟨node, hnode, List.mem_map.mpr ⟨_, hport, by rw [hid]⟩⟩
  have h := held_perm (·.1.source) Wire.sender (endpoints_nodup hnodes hports) hmem
  simpa [heldSenders, nodePorts_eq, wired, List.flatMap_map, wiresFrom, Function.comp_def] using h

lemma heldReceivers_perm : (heldReceivers (nodePorts workflow)).Perm
    ((wires workflow).map fun wire => (wire.1.target, wire.receiver)) := by
  obtain ⟨hnodes, hdeclared⟩ := graph_valid workflow
  have hports (node : NodeDefinition) := (List.nodup_append.mp (ports_nodup node)).1
  have hmem : ∀ wire ∈ wires workflow,
      wire.1.target ∈ endpoints (·.inputPorts) workflow.nodes := by
    intro wire hwire
    obtain ⟨node, hnode, hid, hport⟩ := (hdeclared _ (mem_wires hwire)).2
    exact List.mem_flatMap.mpr ⟨node, hnode, List.mem_map.mpr ⟨_, hport, by rw [hid]⟩⟩
  have h := held_perm (·.1.target) Wire.receiver (endpoints_nodup hnodes hports) hmem
  simpa [heldReceivers, nodePorts_eq, wired, List.flatMap_map, wiresInto, Function.comp_def] using h

lemma length_filter_wires (endpoint : EdgeDefinition → EdgeEndpoint) (e : EdgeEndpoint) :
    ((wires workflow).filter fun wire => endpoint wire.1 = e).length =
      workflow.edges.countP (endpoint · = e) := by
  rw [← List.countP_eq_length_filter]
  conv_rhs => rw [← List.zipIdx_map_fst 0 workflow.edges, List.countP_map]
  rfl

/-- What one node is given: its declared ports, each with the ends of the edges at it in
declaration order. -/
structure Wired (workflow : WorkflowDefinition) (node : NodeDefinition) (ports : NodePorts) :
    Prop where
  nodeId : ports.nodeId = node.id
  inputIds : ports.inputs.portIds = node.inputPorts
  outputIds : ports.outputs.portIds = node.outputPorts
  inputs : ∀ p ∈ node.inputPorts, PortHandle.find ports.inputs.ports p =
    some ⟨p, (wiresInto workflow ⟨node.id, p⟩).map Wire.receiver⟩
  outputs : ∀ p ∈ node.outputPorts, PortHandle.find ports.outputs.ports p =
    some ⟨p, (wiresFrom workflow ⟨node.id, p⟩).map Wire.sender⟩
  inputCount : ∀ p ∈ node.inputPorts, ports.inputs.connectedEdgeCount p =
    some (workflow.edges.countP (·.target = ⟨node.id, p⟩))
  outputCount : ∀ p ∈ node.outputPorts, ports.outputs.connectedEdgeCount p =
    some (workflow.edges.countP (·.source = ⟨node.id, p⟩))

lemma wired_node (workflow : WorkflowDefinition) (node : NodeDefinition) :
    Wired workflow node (wired workflow node) where
  nodeId := rfl
  inputIds := rfl
  outputIds := rfl
  inputs _ hp := find_map hp
  outputs _ hp := find_map hp
  inputCount p hp := by
    rw [PortsIn.connectedEdgeCount, wired, find_map hp, Option.map_some]
    simp [PortHandle.connectedEdgeCount, wiresInto, ← length_filter_wires (·.target)]
  outputCount p hp := by
    rw [PortsOut.connectedEdgeCount, wired, find_map hp, Option.map_some]
    simp [PortHandle.connectedEdgeCount, wiresFrom, ← length_filter_wires (·.source)]

/-- **Wiring exactness.** Every node gets its declared ports with the ends of the edges at them,
in declaration order. Over all nodes the senders are those of the edges' channels, each held
once, at the source of its edge; the receivers likewise at the targets; and there is one channel
for every edge. -/
theorem wiring_exact (workflow : WorkflowDefinition) :
    List.Forall₂ (Wired workflow) workflow.nodes (nodePorts workflow) ∧
    (heldSenders (nodePorts workflow)).Perm
      ((wires workflow).map fun wire => (wire.1.source, wire.sender)) ∧
    (heldReceivers (nodePorts workflow)).Perm
      ((wires workflow).map fun wire => (wire.1.target, wire.receiver)) ∧
    ((heldSenders (nodePorts workflow)).map (·.2.channel)).Perm
      (List.range workflow.edges.length) ∧
    ((heldReceivers (nodePorts workflow)).map (·.2.channel)).Perm
      (List.range workflow.edges.length) := by
  have hchannels : (wires workflow).map Prod.snd = List.range workflow.edges.length := by
    rw [wires, List.zipIdx_map_snd, List.range_eq_range']
  refine ⟨?_, heldSenders_perm, heldReceivers_perm, ?_, ?_⟩
  · rw [nodePorts_eq, List.forall₂_map_right_iff]
    exact List.forall₂_same.mpr fun node _ => wired_node workflow node
  · rw [← hchannels]
    simpa [Function.comp_def, Wire.sender] using heldSenders_perm.map (·.2.channel)
  · rw [← hchannels]
    simpa [Function.comp_def, Wire.receiver] using heldReceivers_perm.map (·.2.channel)

end Exact

end Pureflow.Engine
