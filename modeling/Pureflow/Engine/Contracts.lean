import Pureflow.Contract.Contracts
import Pureflow.Core.PortSpecs
import Pureflow.Engine.Wiring

/-!
Output contracts: what a node's output ports let through in a run with contracts attached.
-/

namespace Pureflow.Engine

open Std Pureflow.Types Pureflow.Core Pureflow.Lib Pureflow.Lib.Grouping Pureflow.Workflow
  Pureflow.Contract

/-- Output-port contract subset used by the workflow runner. -/
structure WorkflowOutputContracts where
  outputsByNode : ExtTreeMap NodeId (ExtTreeMap PortId (Option SchemaRef))

namespace WorkflowOutputContracts

/-- The loop over the declared outputs of a node. -/
def collectOutputs (node : NodeDefinition) (contract : NodeContract) :
    List PortId → ExtTreeMap PortId (Option SchemaRef) →
      Except PureflowError (ExtTreeMap PortId (Option SchemaRef))
  | [], outputContracts => .ok outputContracts
  | portId :: rest, outputContracts =>
    match contract.ports.find? (·.portId = portId) with
    | none => .error (.execution s!"node `{node.id}` output port `{portId}` has no output contract")
    | some portContract =>
      if portContract.direction ≠ .output then
        .error (.execution s!"node `{node.id}` port `{portId}` contract is not an output contract")
      else
        collectOutputs node contract rest (outputContracts.insert portId portContract.schema)

/-- One port of a contract: an output must be declared. -/
def checkOutput (node : NodeDefinition) (portContract : PortContract) :
    Except PureflowError Unit :=
  if portContract.direction = .output ∧ portContract.portId ∉ node.outputPorts then
    .error (.execution (s!"node `{node.id}` contract references unknown output port " ++
      s!"`{portContract.portId}`"))
  else .ok ()

/-- The output contracts of one node; without a contract it may have no outputs. -/
def forNode (contractMap : ExtTreeMap NodeId NodeContract) (node : NodeDefinition) :
    Except PureflowError (ExtTreeMap PortId (Option SchemaRef)) :=
  match contractMap[node.id]? with
  | none =>
    if node.outputPorts.isEmpty then .ok ∅
    else .error (.execution s!"no output contract supplied for workflow node `{node.id}`")
  | some contract => do
    let outputContracts ← collectOutputs node contract node.outputPorts ∅
    contract.ports.forM (checkOutput node)
    return outputContracts

/-- The loop over the nodes of the workflow. -/
def collectNodes (contractMap : ExtTreeMap NodeId NodeContract) :
    List NodeDefinition → ExtTreeMap NodeId (ExtTreeMap PortId (Option SchemaRef)) →
      Except PureflowError (ExtTreeMap NodeId (ExtTreeMap PortId (Option SchemaRef)))
  | [], outputsByNode => .ok outputsByNode
  | node :: rest, outputsByNode => do
    let outputContracts ← forNode contractMap node
    collectNodes contractMap rest (outputsByNode.insert node.id outputContracts)

/-- One contract: it is of a node of the workflow. -/
def checkNode (workflow : WorkflowDefinition) (contract : NodeContract) :
    Except PureflowError Unit :=
  if workflow.nodes.all (·.id ≠ contract.id) then
    .error (.execution s!"output contract references unknown workflow node `{contract.id}`")
  else .ok ()

/-- Build output validation contracts for a workflow. -/
def fromNodeContracts (workflow : WorkflowDefinition) (contracts : List NodeContract) :
    Except PureflowError WorkflowOutputContracts := do
  let outputsByNode ← collectNodes (index NodeContract.id contracts) workflow.nodes ∅
  contracts.forM (checkNode workflow)
  return ⟨outputsByNode⟩

def outputContractsFor (contracts : WorkflowOutputContracts) (nodeId : NodeId) :
    Option (ExtTreeMap PortId (Option SchemaRef)) :=
  contracts.outputsByNode[nodeId]?

end WorkflowOutputContracts

/-- The check a run makes of the packets a node sends. -/
structure ContractOutputValidator where
  workflowId : WorkflowId
  nodeId : NodeId
  execution : ExecutionMetadata
  outputContracts : ExtTreeMap PortId (Option SchemaRef)

namespace ContractOutputValidator

def reject (portId : PortId) (reason : String) : Except PortSendError Unit :=
  .error (.rejected portId reason)

def validate (v : ContractOutputValidator) : OutputPacketValidator := fun portId packet =>
  if portId ∉ v.outputContracts then
    reject portId s!"node `{v.nodeId}` output port `{portId}` has no output contract"
  else if packet.metadata.workflowId ≠ v.workflowId then
    reject portId (s!"packet workflow `{packet.metadata.workflowId}` does not match " ++
      s!"workflow `{v.workflowId}`")
  else if packet.metadata.execution ≠ v.execution then
    reject portId (s!"packet execution `{packet.metadata.execution.executionId}` does not match " ++
      s!"execution `{v.execution.executionId}`")
  else match packet.metadata.route.source with
  | none => reject portId "packet route has no source endpoint"
  | some source =>
    if source.nodeId ≠ v.nodeId ∨ source.portId ≠ portId then
      reject portId (s!"packet source `{source.nodeId}:{source.portId}` does not match output " ++
        s!"`{v.nodeId}:{portId}`")
    else .ok ()

/-- **What a validator lets through**: packets of its run, sent from this port of its node, which
has a contract. -/
theorem validate_eq_ok_iff (v : ContractOutputValidator) (portId : PortId) (packet : PortPacket) :
    v.validate portId packet = .ok () ↔
      portId ∈ v.outputContracts ∧ packet.metadata.workflowId = v.workflowId ∧
      packet.metadata.execution = v.execution ∧
      packet.metadata.route.source = some ⟨v.nodeId, portId⟩ := by
  unfold validate reject
  split_ifs with hcontract hworkflow hexecution
  · simp only [false_iff]
    exact fun h => hworkflow h.2.1
  · simp only [false_iff]
    exact fun h => hexecution h.2.2.1
  · rw [Ne, not_not] at hworkflow hexecution
    cases hsource : packet.metadata.route.source with
    | none => simp
    | some source =>
      obtain ⟨nodeId, sourcePort⟩ := source
      simp only [hcontract, hworkflow, hexecution, true_and, Option.some.injEq,
        MessageEndpoint.mk.injEq]
      split_ifs with h
      · simp only [false_iff]
        tauto
      · simp only [true_iff]
        tauto
  · simp [hcontract]

end ContractOutputValidator

/-- A channel is an edge of one output port only, and of that one once. -/
def OwnEdge (outputs : PortsOut) (portId : PortId) (channel : ℕ) : Prop :=
  (outputs.channels portId).count channel = 1 ∧
  ∀ other, channel ∈ outputs.channels other → other = portId

section Channels

variable {workflow : WorkflowDefinition} {node : NodeDefinition} {portId : PortId} {channel : ℕ}

lemma wired_channels (h : portId ∈ node.outputPorts) :
    (wired workflow node).outputs.channels portId =
      (wiresFrom workflow ⟨node.id, portId⟩).map Prod.snd := by
  rw [PortsOut.channels, (wired_node workflow node).outputs portId h]
  simp [Wire.sender, Function.comp_def]

lemma declared_of_channel (h : channel ∈ (wired workflow node).outputs.channels portId) :
    portId ∈ node.outputPorts := by
  by_contra hmem
  have hfind : PortHandle.find (wired workflow node).outputs.ports portId = none := by
    rw [PortHandle.find, List.find?_eq_none, wired]
    simpa using fun q hq (heq : q = portId) => hmem (heq ▸ hq)
  rw [PortsOut.channels, hfind] at h
  cases h

lemma wire_of_channel (h : channel ∈ (wired workflow node).outputs.channels portId) :
    ∃ wire ∈ wires workflow, wire.1.source = ⟨node.id, portId⟩ ∧ wire.2 = channel := by
  rw [wired_channels (declared_of_channel h), List.mem_map] at h
  obtain ⟨wire, hwire, hsnd⟩ := h
  obtain ⟨hwire, hsource⟩ := List.mem_filter.mp hwire
  exact ⟨wire, hwire, of_decide_eq_true hsource, hsnd⟩

/-- **Every edge of a wired node is an edge of its own.** -/
theorem ownEdge_of_wired (h : channel ∈ (wired workflow node).outputs.channels portId) :
    OwnEdge (wired workflow node).outputs portId channel := by
  have hnodup : ((wires workflow).map Prod.snd).Nodup := by
    rw [wires, List.zipIdx_map_snd]
    exact List.nodup_range'
  obtain ⟨wire, hwire, hsource, hsnd⟩ := wire_of_channel h
  refine ⟨?_, fun other hother => ?_⟩
  · apply List.count_eq_one_of_mem _ h
    rw [wired_channels (declared_of_channel h)]
    exact hnodup.sublist (List.filter_sublist.map _)
  · obtain ⟨wire', hwire', hsource', hsnd'⟩ := wire_of_channel hother
    have hsame : wire' = wire :=
      List.inj_on_of_nodup_map hnodup hwire' hwire (hsnd'.trans hsnd.symm)
    rw [hsame, hsource] at hsource'
    exact (congrArg EdgeEndpoint.portId hsource').symm

end Channels

end Pureflow.Engine
