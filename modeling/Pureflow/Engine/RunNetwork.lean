import Pureflow.Core.Flows
import Pureflow.Engine.ContractRuns

/-!
The network of a run: the node runs that were built for a workflow, over the channels of its
edges.
-/

namespace Pureflow.Engine

open Std Pureflow.Types Pureflow.Core Pureflow.Lib Pureflow.Workflow

variable {Executor : Type}

lemma port_of_channel {inputs : PortsIn} {portId : PortId} {c : ℕ}
    (h : c ∈ inputs.channels portId) :
    ∃ port ∈ inputs.ports, c ∈ port.ends.map Receiver.channel := by
  unfold PortsIn.channels at h
  cases hfind : PortHandle.find inputs.ports portId with
  | none =>
    rw [hfind] at h
    cases h
  | some port =>
    rw [hfind] at h
    exact ⟨port, List.mem_of_find?_eq_some hfind, h⟩

namespace NodeRun

variable (run : NodeRun Executor)

/-- The inputs as the executor gets them, with the sink of the run. -/
def givenInputs (metadataSink : Bool) : PortsIn :=
  { run.inputs with metadataSink := metadataSink, context := some run.context }

def givenOutputs (metadataSink : Bool) : PortsOut :=
  { run.outputs with metadataSink := metadataSink, context := some run.context }

/-- The node run in a network, where its executor has this future. -/
def networkNode (future : Future) : NetworkNode where
  future := future
  senders := run.outputs.ports.flatMap (·.ends.map Sender.channel)
  receivers := run.inputs.ports.flatMap (·.ends.map Receiver.channel)

variable {run} {metadataSink : Bool} {portId : PortId} {c : ℕ}

lemma mem_receivers_of_channels (future : Future)
    (h : c ∈ (run.givenInputs metadataSink).channels portId) :
    c ∈ (run.networkNode future).receivers :=
  List.mem_flatMap.mpr (port_of_channel h)

lemma mem_senders_of_channels (future : Future)
    (h : c ∈ (run.givenOutputs metadataSink).channels portId) :
    c ∈ (run.networkNode future).senders := by
  unfold PortsOut.channels at h
  cases hport : PortHandle.find (run.givenOutputs metadataSink).ports portId with
  | none =>
    rw [hport] at h
    cases h
  | some port =>
    rw [hport] at h
    exact List.mem_flatMap.mpr ⟨port, List.mem_of_find?_eq_some hport, h⟩

end NodeRun

/-- The node runs of a run as nodes of a network. -/
def runNodes (runs : List (NodeRun Executor)) (future : Fin runs.length → Future) :
    Fin runs.length → NetworkNode :=
  fun i => (runs.get i).networkNode (future i)

section Built

variable {workflow : WorkflowDefinition} {execution : ExecutionMetadata}
  {registry : NodeId → Except PureflowError Executor}
  {outputContracts : Option WorkflowOutputContracts} {runs : List (NodeRun Executor)}

lemma built_get (h : List.Forall₂ (fun node run =>
      Built workflow execution registry outputContracts node (wired workflow node) run)
      workflow.nodes runs) (i : Fin runs.length) :
    ∃ node, workflow.nodes[i.val]? = some node ∧
      Built workflow execution registry outputContracts node (wired workflow node)
        (runs.get i) := by
  have hi : i.val < workflow.nodes.length := by
    rw [h.length_eq]
    exact i.isLt
  exact ⟨_, List.getElem?_eq_getElem hi, h.get hi i.isLt⟩

/-- **Nodes have one run each.** -/
lemma index_unique (h : List.Forall₂ (fun node run =>
      Built workflow execution registry outputContracts node (wired workflow node) run)
      workflow.nodes runs) {i j : Fin runs.length}
    (hid : (runs.get i).context.nodeId = (runs.get j).context.nodeId) : i = j := by
  obtain ⟨a, ha, hbuilta⟩ := built_get h i
  obtain ⟨b, hb, hbuiltb⟩ := built_get h j
  rw [hbuilta.context, hbuiltb.context] at hid
  have hnodup : (nodeIds workflow.nodes).Nodup := (graph_valid workflow).1
  have hget : (nodeIds workflow.nodes)[i.val]? = (nodeIds workflow.nodes)[j.val]? := by
    rw [nodeIds, List.getElem?_map, List.getElem?_map, ha, hb]
    exact congrArg some hid
  have hi : i.val < (nodeIds workflow.nodes).length := by
    rw [nodeIds, List.length_map]
    exact (List.getElem?_eq_some_iff.mp ha).1
  exact Fin.ext ((List.getElem?_inj hi hnodup).mp hget)

lemma wire_of_input {node : NodeDefinition} {portId : PortId} {channel : ℕ}
    (h : channel ∈ (wired workflow node).inputs.channels portId) :
    portId ∈ node.inputPorts ∧
    ∃ wire ∈ wires workflow, wire.1.target = ⟨node.id, portId⟩ ∧ wire.2 = channel := by
  have hmem : portId ∈ node.inputPorts := by
    by_contra hmem
    have hfind : PortHandle.find (wired workflow node).inputs.ports portId = none := by
      rw [PortHandle.find, List.find?_eq_none, wired]
      simpa using fun q hq (heq : q = portId) => hmem (heq ▸ hq)
    rw [PortsIn.channels, hfind] at h
    cases h
  refine ⟨hmem, ?_⟩
  rw [PortsIn.channels, (wired_node workflow node).inputs portId hmem] at h
  obtain ⟨receiver, hreceiver, hchannel⟩ := List.mem_map.mp h
  obtain ⟨wire, hwire, rfl⟩ := List.mem_map.mp hreceiver
  obtain ⟨hwire, htarget⟩ := List.mem_filter.mp hwire
  exact ⟨wire, hwire, of_decide_eq_true htarget, hchannel⟩

lemma wire_unique {wire wire' : Wire} (h : wire ∈ wires workflow) (h' : wire' ∈ wires workflow)
    (hchannel : wire.2 = wire'.2) : wire = wire' := by
  refine List.inj_on_of_nodup_map ?_ h h' hchannel
  rw [wires, List.zipIdx_map_snd]
  exact List.nodup_range'

lemma target_of_given (h : List.Forall₂ (fun node run =>
      Built workflow execution registry outputContracts node (wired workflow node) run)
      workflow.nodes runs) {i : Fin runs.length} {metadataSink : Bool} {portId : PortId}
    {wire : Wire} (hwire : wire ∈ wires workflow)
    (hmem : wire.2 ∈ ((runs.get i).givenInputs metadataSink).channels portId) :
    wire.1.target = ⟨(runs.get i).context.nodeId, portId⟩ := by
  obtain ⟨node, -, hbuilt⟩ := built_get h i
  have hchannels : wire.2 ∈ (wired workflow node).inputs.channels portId := by
    rw [← hbuilt.inputs]
    exact hmem
  obtain ⟨-, wire', hwire', htarget, hchannel⟩ := wire_of_input hchannels
  rw [← wire_unique hwire' hwire hchannel, htarget, hbuilt.context]
  rfl

lemma withOutputContracts_ports {node : NodeDefinition} {outputs attached : PortsOut}
    (h : withOutputContracts workflow execution outputContracts node outputs = .ok attached) :
    attached.ports = outputs.ports := by
  cases outputContracts with
  | none =>
    cases h
    rfl
  | some contracts =>
    obtain ⟨stored, -, rfl⟩ := withOutputContracts_some h
    rfl

lemma source_of_given (h : List.Forall₂ (fun node run =>
      Built workflow execution registry outputContracts node (wired workflow node) run)
      workflow.nodes runs) {i : Fin runs.length} {metadataSink : Bool} {portId : PortId}
    {wire : Wire} (hwire : wire ∈ wires workflow)
    (hmem : wire.2 ∈ ((runs.get i).givenOutputs metadataSink).channels portId) :
    wire.1.source = ⟨(runs.get i).context.nodeId, portId⟩ := by
  obtain ⟨node, -, hbuilt⟩ := built_get h i
  have hchannels : wire.2 ∈ (wired workflow node).outputs.channels portId := by
    rw [PortsOut.channels, ← withOutputContracts_ports hbuilt.outputs]
    exact hmem
  obtain ⟨wire', hwire', hsource, hchannel⟩ := wire_of_channel hchannels
  rw [← wire_unique hwire' hwire hchannel, hsource, hbuilt.context]
  rfl

lemma channels_of_input {node : NodeDefinition} {portId : PortId} (h : portId ∈ node.inputPorts) :
    (wired workflow node).inputs.channels portId =
      (wiresInto workflow ⟨node.id, portId⟩).map Prod.snd := by
  rw [PortsIn.channels, (wired_node workflow node).inputs portId h]
  simp [Wire.receiver, Function.comp_def]

lemma channels_of_output {node : NodeDefinition} {portId : PortId}
    (h : portId ∈ node.outputPorts) :
    (wired workflow node).outputs.channels portId =
      (wiresFrom workflow ⟨node.id, portId⟩).map Prod.snd := by
  rw [PortsOut.channels, (wired_node workflow node).outputs portId h]
  simp [Wire.sender, Function.comp_def]

lemma wire_of_receiver {node : NodeDefinition} {run : NodeRun Executor} {future : Future} {c : ℕ}
    (hbuilt : Built workflow execution registry outputContracts node (wired workflow node) run)
    (h : c ∈ (run.networkNode future).receivers) :
    ∃ wire ∈ wires workflow, wire.1.target.nodeId = run.context.nodeId ∧ wire.2 = c := by
  obtain ⟨port, hport, hc⟩ := List.mem_flatMap.mp h
  rw [hbuilt.inputs] at hport
  obtain ⟨portId, -, rfl⟩ := List.mem_map.mp hport
  obtain ⟨receiver, hreceiver, rfl⟩ := List.mem_map.mp hc
  obtain ⟨wire, hwire, rfl⟩ := List.mem_map.mp hreceiver
  obtain ⟨hwire, htarget⟩ := List.mem_filter.mp hwire
  refine ⟨wire, hwire, ?_, rfl⟩
  rw [of_decide_eq_true htarget, hbuilt.context]
  rfl

lemma wire_of_sender {node : NodeDefinition} {run : NodeRun Executor} {future : Future} {c : ℕ}
    (hbuilt : Built workflow execution registry outputContracts node (wired workflow node) run)
    (h : c ∈ (run.networkNode future).senders) :
    ∃ wire ∈ wires workflow, wire.1.source.nodeId = run.context.nodeId ∧ wire.2 = c := by
  obtain ⟨port, hport, hc⟩ := List.mem_flatMap.mp h
  rw [withOutputContracts_ports hbuilt.outputs] at hport
  obtain ⟨portId, -, rfl⟩ := List.mem_map.mp hport
  obtain ⟨sender, hsender, rfl⟩ := List.mem_map.mp hc
  obtain ⟨wire, hwire, rfl⟩ := List.mem_map.mp hsender
  obtain ⟨hwire, hsource⟩ := List.mem_filter.mp hwire
  refine ⟨wire, hwire, ?_, rfl⟩
  rw [of_decide_eq_true hsource, hbuilt.context]
  rfl

variable {future : Fin runs.length → Future} {i j : Fin runs.length} {c : ℕ}

/-- **Every channel has one sender.** -/
lemma sender_unique (h : List.Forall₂ (fun node run =>
      Built workflow execution registry outputContracts node (wired workflow node) run)
      workflow.nodes runs) (hi : c ∈ (runNodes runs future i).senders)
    (hj : c ∈ (runNodes runs future j).senders) : i = j := by
  obtain ⟨a, -, hbuilta⟩ := built_get h i
  obtain ⟨b, -, hbuiltb⟩ := built_get h j
  obtain ⟨wire, hwire, hsource, hchannel⟩ := wire_of_sender hbuilta hi
  obtain ⟨wire', hwire', hsource', hchannel'⟩ := wire_of_sender hbuiltb hj
  obtain rfl := wire_unique hwire hwire' (hchannel.trans hchannel'.symm)
  exact index_unique h (hsource.symm.trans hsource')

/-- **Every channel has one receiver.** -/
lemma receiver_unique (h : List.Forall₂ (fun node run =>
      Built workflow execution registry outputContracts node (wired workflow node) run)
      workflow.nodes runs) (hi : c ∈ (runNodes runs future i).receivers)
    (hj : c ∈ (runNodes runs future j).receivers) : i = j := by
  obtain ⟨a, -, hbuilta⟩ := built_get h i
  obtain ⟨b, -, hbuiltb⟩ := built_get h j
  obtain ⟨wire, hwire, htarget, hchannel⟩ := wire_of_receiver hbuilta hi
  obtain ⟨wire', hwire', htarget', hchannel'⟩ := wire_of_receiver hbuiltb hj
  obtain rfl := wire_unique hwire hwire' (hchannel.trans hchannel'.symm)
  exact index_unique h (htarget.symm.trans htarget')

lemma get_of_node (h : List.Forall₂ (fun node run =>
      Built workflow execution registry outputContracts node (wired workflow node) run)
      workflow.nodes runs) {node : NodeDefinition} (hnode : node ∈ workflow.nodes) :
    ∃ i : Fin runs.length, Built workflow execution registry outputContracts node
      (wired workflow node) (runs.get i) := by
  obtain ⟨k, hk, rfl⟩ := List.mem_iff_getElem.mp hnode
  exact ⟨⟨k, h.length_eq ▸ hk⟩, h.get hk _⟩

lemma sender_of_wire (h : List.Forall₂ (fun node run =>
      Built workflow execution registry outputContracts node (wired workflow node) run)
      workflow.nodes runs) (future : Fin runs.length → Future) {wire : Wire}
    (hwire : wire ∈ wires workflow) : ∃ i, wire.2 ∈ (runNodes runs future i).senders := by
  obtain ⟨node, hnode, hid, hport⟩ := ((graph_valid workflow).2 _ (mem_wires hwire)).1
  obtain ⟨i, hbuilt⟩ := get_of_node h hnode
  refine ⟨i, List.mem_flatMap.mpr ?_⟩
  rw [withOutputContracts_ports hbuilt.outputs]
  have hsource : wire.1.source = ⟨node.id, wire.1.source.portId⟩ := EdgeEndpoint.ext hid.symm rfl
  refine ⟨_, List.mem_map_of_mem hport, List.mem_map.mpr ⟨wire.sender, ?_, rfl⟩⟩
  exact List.mem_map_of_mem (List.mem_filter.mpr ⟨hwire, decide_eq_true hsource⟩)

lemma receiver_of_wire (h : List.Forall₂ (fun node run =>
      Built workflow execution registry outputContracts node (wired workflow node) run)
      workflow.nodes runs) (future : Fin runs.length → Future) {wire : Wire}
    (hwire : wire ∈ wires workflow) :
    ∃ i, (runs.get i).context.nodeId = wire.1.target.nodeId ∧
      wire.2 ∈ (runNodes runs future i).receivers := by
  obtain ⟨node, hnode, hid, hport⟩ := ((graph_valid workflow).2 _ (mem_wires hwire)).2
  obtain ⟨i, hbuilt⟩ := get_of_node h hnode
  refine ⟨i, by rw [hbuilt.context]; exact hid, List.mem_flatMap.mpr ?_⟩
  rw [hbuilt.inputs]
  have htarget : wire.1.target = ⟨node.id, wire.1.target.portId⟩ := EdgeEndpoint.ext hid.symm rfl
  refine ⟨_, List.mem_map_of_mem hport, List.mem_map.mpr ⟨wire.receiver, ?_, rfl⟩⟩
  exact List.mem_map_of_mem (List.mem_filter.mpr ⟨hwire, decide_eq_true htarget⟩)

/-- **The channels of a run are pipes** along the graph of the workflow. -/
lemma runNodes_pipes (h : List.Forall₂ (fun node run =>
      Built workflow execution registry outputContracts node (wired workflow node) run)
      workflow.nodes runs)
    (hacyclic : Digraph.Acyclic (Joins workflow.edges)) (future : Fin runs.length → Future) :
    Pipes (runNodes runs future) where
  sender_unique hi hj := sender_unique h hi hj
  receiver_unique hi hj := receiver_unique h hi hj
  sourced {j c} hc := by
    obtain ⟨node, -, hbuilt⟩ := built_get h j
    obtain ⟨wire, hwire, -, rfl⟩ := wire_of_receiver hbuilt hc
    exact sender_of_wire h future hwire
  acyclic := by
    have hjoins (i j : Fin runs.length)
        (hij : ∃ c, c ∈ (runNodes runs future i).senders ∧ c ∈ (runNodes runs future j).receivers) :
        Joins workflow.edges (runs.get i).context.nodeId (runs.get j).context.nodeId := by
      obtain ⟨c, hsender, hreceiver⟩ := hij
      obtain ⟨a, -, hbuilta⟩ := built_get h i
      obtain ⟨b, -, hbuiltb⟩ := built_get h j
      obtain ⟨wire, hwire, hsource, hchannel⟩ := wire_of_sender hbuilta hsender
      obtain ⟨wire', hwire', htarget, hchannel'⟩ := wire_of_receiver hbuiltb hreceiver
      obtain rfl := wire_unique hwire hwire' (hchannel.trans hchannel'.symm)
      refine List.mem_map.mpr ⟨wire.1, mem_wires hwire, ?_⟩
      rw [EdgeDefinition.nodePair, hsource, htarget]
    exact fun i hi => hacyclic _
      (Relation.TransGen.lift (fun i => (runs.get i).context.nodeId) hjoins i i hi)

end Built

end Pureflow.Engine
