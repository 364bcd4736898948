import Pureflow.Contract.Validation

/-!
Introspection: the pure view of a workflow with its contracts and capability descriptors.

The view is built after validation, by lookups of its own. One of them asks more than validation
does: it wants a claim in the descriptor for every port, where validation is content with
descriptors that leave ports out.
-/

namespace Pureflow.Introspection

open Std Pureflow.Types Pureflow.Core Pureflow.Workflow Pureflow.Lib Pureflow.Lib.Grouping
  Pureflow.Contract

/-- Runtime boundary strength declared by a node contract. -/
inductive EnforcementLevel
  | advisory | strict
  deriving DecidableEq

structure PortIntrospection where
  portId : PortId
  direction : PortDirection
  schema : Option SchemaRef
  capability : PortCapabilityDirection
  deriving DecidableEq

structure NodeIntrospection where
  nodeId : NodeId
  ports : List PortIntrospection
  executionMode : ExecutionMode
  enforcement : EnforcementLevel
  determinism : Determinism
  retry : RetryDisposition
  effects : List EffectCapability
  deriving DecidableEq

/-- Node and port address for one edge endpoint. -/
structure EndpointIntrospection where
  nodeId : NodeId
  portId : PortId
  deriving DecidableEq

structure EdgeIntrospection where
  source : EndpointIntrospection
  target : EndpointIntrospection
  capacity : EdgeCapacity
  sourceSchema : Option SchemaRef
  targetSchema : Option SchemaRef
  deriving DecidableEq

/-- Introspectable view of one validated workflow. -/
structure WorkflowIntrospection where
  workflowId : WorkflowId
  nodes : List NodeIntrospection
  edges : List EdgeIntrospection
  deriving DecidableEq

def EndpointIntrospection.fromEndpoint (endpoint : EdgeEndpoint) : EndpointIntrospection :=
  ⟨endpoint.nodeId, endpoint.portId⟩

def enforcementFor : ExecutionMode → EnforcementLevel
  | .native => .advisory
  | .wasm | .process => .strict

def endpointSchema (endpoint : EdgeEndpoint) (contractsByNode : ExtTreeMap NodeId NodeContract) :
    Option SchemaRef :=
  (contractsByNode[endpoint.nodeId]?.bind fun contract =>
    contract.ports.find? (·.portId = endpoint.portId)).bind PortContract.schema

def introspectEdge (edge : EdgeDefinition) (contractsByNode : ExtTreeMap NodeId NodeContract) :
    EdgeIntrospection where
  source := .fromEndpoint edge.source
  target := .fromEndpoint edge.target
  capacity := edge.capacity
  sourceSchema := endpointSchema edge.source contractsByNode
  targetSchema := endpointSchema edge.target contractsByNode

/-- One declared port; both its contract and its claim are looked up. -/
def introspectPort (nodeId : NodeId) (contractPorts : ExtTreeMap PortId PortContract)
    (capabilityPorts : ExtTreeMap PortId PortCapability) :
    PortId × PortDirection → Except ContractValidationError PortIntrospection
  | (portId, direction) => do
    let some contract := contractPorts[portId]?
      | .error (.unknownWorkflowPort nodeId portId direction)
    let some capability := capabilityPorts[portId]?
      | .error (.missingCapabilityDescriptor nodeId)
    return ⟨portId, direction, contract.schema, capability.direction⟩

/-- The declared ports of a node with their directions, inputs then outputs. -/
def declaredPorts (node : NodeDefinition) : List (PortId × PortDirection) :=
  node.inputPorts.map (·, .input) ++ node.outputPorts.map (·, .output)

def introspectNode (node : NodeDefinition) (contract : NodeContract)
    (capability : NodeCapabilities) : Except ContractValidationError NodeIntrospection := do
  let capabilityPorts := index PortCapability.portId capability.ports
  let ports ← (declaredPorts node).mapM (introspectPort node.id contract.portMap capabilityPorts)
  return {
    nodeId := node.id
    ports := ports
    executionMode := contract.executionMode
    enforcement := enforcementFor contract.executionMode
    determinism := contract.determinism
    retry := contract.retry
    effects := capability.effects }

/-- One node of the workflow, with its contract and its descriptor. -/
def lookUpNode (contractsByNode : ExtTreeMap NodeId NodeContract)
    (capabilitiesByNode : ExtTreeMap NodeId NodeCapabilities) (node : NodeDefinition) :
    Except ContractValidationError NodeIntrospection := do
  let some contract := contractsByNode[node.id]? | .error (.unknownWorkflowNode node.id)
  let some capability := capabilitiesByNode[node.id]?
    | .error (.missingCapabilityDescriptor node.id)
  introspectNode node contract capability

/-- Build a pure data introspection view from validated workflow inputs. -/
def introspectWorkflow (workflow : WorkflowDefinition) (contracts : List NodeContract)
    (capabilities : List NodeCapabilities) :
    Except ContractValidationError WorkflowIntrospection := do
  validateWorkflowContracts workflow contracts capabilities
  let contractsByNode := index NodeContract.id contracts
  let capabilitiesByNode := index NodeCapabilities.nodeId capabilities
  let nodes ← workflow.nodes.mapM (lookUpNode contractsByNode capabilitiesByNode)
  return ⟨workflow.id, nodes, workflow.edges.map (introspectEdge · contractsByNode)⟩

section Lookups

variable {node : NodeDefinition} {contract : NodeContract} {capability : NodeCapabilities}

lemma introspectPort_ok {nodeId : NodeId} {contractPorts : ExtTreeMap PortId PortContract}
    {capabilityPorts : ExtTreeMap PortId PortCapability} {port : PortId × PortDirection}
    {view : PortIntrospection} :
    introspectPort nodeId contractPorts capabilityPorts port = .ok view ↔
      ∃ (portContract : PortContract) (portCapability : PortCapability),
        contractPorts[port.1]? = some portContract ∧
        capabilityPorts[port.1]? = some portCapability ∧
        view = ⟨port.1, port.2, portContract.schema, portCapability.direction⟩ := by
  obtain ⟨portId, direction⟩ := port
  simp only [introspectPort]
  cases contractPorts[portId]? with
  | none => simp
  | some portContract =>
    cases capabilityPorts[portId]? with
    | none => simp
    | some portCapability => simp [pure, Except.pure, eq_comm]

/-- The descriptor has a claim for the port. -/
def Claims (capability : NodeCapabilities) (portId : PortId) : Prop :=
  ∃ port ∈ capability.ports, port.portId = portId

lemma claims_iff {portId : PortId} :
    Claims capability portId ↔
      ∃ port, (index PortCapability.portId capability.ports)[portId]? = some port := by
  constructor
  · rintro ⟨port, hport, rfl⟩
    exact index_isSome hport
  · rintro ⟨port, hport⟩
    exact ⟨port, mem_of_index hport⟩

lemma introspectNode_ok (hmatches : MatchesNode node contract) :
    (∃ view, introspectNode node contract capability = .ok view) ↔
      ∀ port ∈ declaredPorts node, Claims capability port.1 := by
  have hcontract : ∀ port ∈ declaredPorts node, ∃ portContract,
      contract.portMap[port.1]? = some portContract := by
    intro port hport
    have hdeclares : DeclaresPort node port.1 port.2 := by
      rw [declaredPorts, List.mem_append, List.mem_map, List.mem_map] at hport
      rcases hport with ⟨portId, hportId, rfl⟩ | ⟨portId, hportId, rfl⟩
      · exact hportId
      · exact hportId
    obtain ⟨portContract, hmem, hid, -⟩ := (hmatches port.1 port.2).mpr hdeclares
    exact ⟨portContract, portMap_eq_some.mpr ⟨hmem, hid⟩⟩
  have hports : (∃ views, (declaredPorts node).mapM (introspectPort node.id contract.portMap
      (index PortCapability.portId capability.ports)) = .ok views) ↔
        ∀ port ∈ declaredPorts node, Claims capability port.1 := by
    simp only [Result.mapM_eq_ok, Result.exists_forall₂, introspectPort_ok, claims_iff]
    refine forall₂_congr fun port hport => ?_
    obtain ⟨portContract, hportContract⟩ := hcontract port hport
    constructor
    · rintro ⟨view, -, portCapability, -, hcapability, -⟩
      exact ⟨portCapability, hcapability⟩
    · rintro ⟨portCapability, hcapability⟩
      exact ⟨_, portContract, portCapability, hportContract, hcapability, rfl⟩
  rw [← hports]
  simp only [introspectNode, Result.bind_eq_ok, pure, Except.pure, Except.ok.injEq]
  constructor
  · rintro ⟨view, views, hviews, -⟩
    exact ⟨views, hviews⟩
  · rintro ⟨views, hviews⟩
    exact ⟨_, views, hviews, rfl⟩

lemma introspectNode_ports {view : NodeIntrospection}
    (h : introspectNode node contract capability = .ok view) :
    view.nodeId = node.id ∧
      view.ports.map (fun port => (port.portId, port.direction)) = declaredPorts node := by
  simp only [introspectNode, Result.bind_eq_ok, pure, Except.pure, Except.ok.injEq] at h
  obtain ⟨views, hviews, rfl⟩ := h
  refine ⟨rfl, ?_⟩
  rw [Result.mapM_eq_ok] at hviews
  generalize declaredPorts node = declared at hviews ⊢
  induction hviews with
  | nil => rfl
  | cons hport hrest ih =>
    obtain ⟨-, -, -, -, rfl⟩ := introspectPort_ok.mp hport
    rw [List.map_cons, ih]

end Lookups

section View

variable {workflow : WorkflowDefinition} {contracts : List NodeContract}
  {capabilities : List NodeCapabilities}

lemma lookUpNode_ok {contractsByNode : ExtTreeMap NodeId NodeContract}
    {capabilitiesByNode : ExtTreeMap NodeId NodeCapabilities} {node : NodeDefinition}
    {view : NodeIntrospection} :
    lookUpNode contractsByNode capabilitiesByNode node = .ok view ↔
      ∃ (contract : NodeContract) (capability : NodeCapabilities),
        contractsByNode[node.id]? = some contract ∧
        capabilitiesByNode[node.id]? = some capability ∧
        introspectNode node contract capability = .ok view := by
  simp only [lookUpNode]
  cases contractsByNode[node.id]? with
  | none => simp
  | some contract =>
    cases capabilitiesByNode[node.id]? with
    | none => simp
    | some capability => simp

lemma introspectWorkflow_ok {view : WorkflowIntrospection} :
    introspectWorkflow workflow contracts capabilities = .ok view ↔
      validateWorkflowContracts workflow contracts capabilities = .ok () ∧
      ∃ nodes, List.Forall₂ (fun node nodeView =>
          lookUpNode (index NodeContract.id contracts)
            (index NodeCapabilities.nodeId capabilities) node = .ok nodeView)
          workflow.nodes nodes ∧
        view = ⟨workflow.id, nodes,
          workflow.edges.map (introspectEdge · (index NodeContract.id contracts))⟩ := by
  rw [introspectWorkflow, Result.check_bind_eq_ok]
  simp only [Result.bind_eq_ok, Result.mapM_eq_ok, pure, Except.pure, Except.ok.injEq]
  refine and_congr_right fun _ => exists_congr fun nodes => and_congr_right fun _ => ?_
  exact eq_comm

/-- The last descriptor of every node claims every port the node declares. -/
def ClaimsEveryPort (workflow : WorkflowDefinition) (capabilities : List NodeCapabilities) :
    Prop :=
  ∀ node ∈ workflow.nodes, ∀ capability,
    (index NodeCapabilities.nodeId capabilities)[node.id]? = some capability →
      ∀ port ∈ declaredPorts node, Claims capability port.1

/-- Once validation passes, there is a view exactly if no descriptor leaves out a port. -/
lemma exists_view_iff (h : validateWorkflowContracts workflow contracts capabilities = .ok ()) :
    (∃ view, introspectWorkflow workflow contracts capabilities = .ok view) ↔
      ClaimsEveryPort workflow capabilities := by
  have hvalid := validateWorkflowContracts_ok.mp h
  have hnodes : (∃ nodes, List.Forall₂ (fun node nodeView =>
      lookUpNode (index NodeContract.id contracts)
        (index NodeCapabilities.nodeId capabilities) node = .ok nodeView)
      workflow.nodes nodes) ↔ ClaimsEveryPort workflow capabilities := by
    rw [Result.exists_forall₂]
    refine forall₂_congr fun node hmem => ?_
    obtain ⟨contract, capability, hcontract, hcapability, hmatches, -⟩ := hvalid.nodes node hmem
    have hnode : (∃ view, introspectNode node contract capability = .ok view) ↔
        ∀ port ∈ declaredPorts node, Claims capability port.1 := introspectNode_ok hmatches
    constructor
    · rintro ⟨view, hview⟩ other hother
      obtain ⟨contract', capability', hcontract', hcapability', hview⟩ := lookUpNode_ok.mp hview
      cases hcontract.symm.trans hcontract'
      cases hother.symm.trans hcapability'
      cases hcapability.symm.trans hcapability'
      exact hnode.mp ⟨view, hview⟩
    · intro hclaims
      obtain ⟨view, hview⟩ := hnode.mpr (hclaims capability hcapability)
      exact ⟨view, lookUpNode_ok.mpr ⟨contract, capability, hcontract, hcapability, hview⟩⟩
  rw [← hnodes]
  simp only [introspectWorkflow_ok]
  constructor
  · rintro ⟨view, -, nodes, hviews, -⟩
    exact ⟨nodes, hviews⟩
  · rintro ⟨nodes, hviews⟩
    exact ⟨_, h, nodes, hviews, rfl⟩

/-- The view lists the nodes and the edges of the workflow in order, and the ports of a node as
they are declared: inputs, then outputs. -/
structure Lists (workflow : WorkflowDefinition) (view : WorkflowIntrospection) : Prop where
  workflowId : view.workflowId = workflow.id
  nodes : List.Forall₂ (fun (node : NodeDefinition) (nodeView : NodeIntrospection) =>
    nodeView.nodeId = node.id ∧
      nodeView.ports.map (fun port => (port.portId, port.direction)) = declaredPorts node)
    workflow.nodes view.nodes
  edges : view.edges.map (fun edge => (edge.source, edge.target, edge.capacity)) =
    workflow.edges.map fun edge =>
      (.fromEndpoint edge.source, .fromEndpoint edge.target, edge.capacity)

lemma lists_of_ok {view : WorkflowIntrospection}
    (h : introspectWorkflow workflow contracts capabilities = .ok view) : Lists workflow view := by
  obtain ⟨-, nodes, hnodes, rfl⟩ := introspectWorkflow_ok.mp h
  refine ⟨rfl, hnodes.imp fun node nodeView hview => ?_, ?_⟩
  · obtain ⟨contract, capability, -, -, hview⟩ := lookUpNode_ok.mp hview
    exact introspectNode_ports hview
  · rw [List.map_map]
    rfl

/-- Introspection accepts exactly what validation accepts, and its views list the workflow. -/
def AcceptsValidated (workflow : WorkflowDefinition) (contracts : List NodeContract)
    (capabilities : List NodeCapabilities) : Prop :=
  ((∃ view, introspectWorkflow workflow contracts capabilities = .ok view) ↔
    validateWorkflowContracts workflow contracts capabilities = .ok ()) ∧
  ∀ view, introspectWorkflow workflow contracts capabilities = .ok view → Lists workflow view

/-- **Introspection accepts validated inputs exactly if no descriptor leaves out a port.** -/
theorem introspection_accepts_iff (workflow : WorkflowDefinition) (contracts : List NodeContract)
    (capabilities : List NodeCapabilities) :
    AcceptsValidated workflow contracts capabilities ↔
      (validateWorkflowContracts workflow contracts capabilities = .ok () →
        ClaimsEveryPort workflow capabilities) := by
  constructor
  · rintro ⟨hiff, -⟩ h
    exact (exists_view_iff h).mp (hiff.mpr h)
  · intro h
    refine ⟨⟨?_, fun hvalid => (exists_view_iff hvalid).mpr (h hvalid)⟩, fun _ => lists_of_ok⟩
    rintro ⟨view, hview⟩
    exact (introspectWorkflow_ok.mp hview).1

/-- A descriptor of node `a` that claims none of its ports. -/
def silentCapabilities : NodeCapabilities := ⟨⟨"a", node_a_valid⟩, [], [], by decide +kernel⟩

/-- **A valid workflow has no view** if the descriptor of its node claims no port. -/
theorem silent_descriptor_rejected : ¬ ∀ (workflow : WorkflowDefinition)
    (contracts : List NodeContract) (capabilities : List NodeCapabilities),
      AcceptsValidated workflow contracts capabilities := by
  intro hall
  have h : validateWorkflowContracts sampleWorkflow [sampleContract] [silentCapabilities] =
      .ok () := by decide +kernel
  obtain ⟨view, hview⟩ := (hall sampleWorkflow [sampleContract] [silentCapabilities]).1.mpr h
  have herror : introspectWorkflow sampleWorkflow [sampleContract] [silentCapabilities] =
      .error (.missingCapabilityDescriptor ⟨"a", by decide⟩) := by decide +kernel
  cases herror.symm.trans hview

end View

end Pureflow.Introspection
