import Pureflow.Core.Capability
import Pureflow.Lib.Grouping
import Pureflow.Lib.Text

/-!
Node contracts, and their validation together with a workflow's topology and the capability
descriptors of its nodes.

The validator indexes the contracts and the descriptors by node, so that of several entries for
one node it looks at the last.
-/

namespace Pureflow.Contract

open Std Pureflow.Types Pureflow.Core Pureflow.Workflow Pureflow.Lib Pureflow.Lib.Grouping

/-- Opaque schema reference attached to a contract port. -/
structure SchemaRef where
  value : String
  nonblank : Text.isBlank value = false
  deriving DecidableEq

/-- Declared execution mode for one node contract. -/
inductive ExecutionMode
  | native | wasm | process
  deriving DecidableEq

inductive Determinism
  | deterministic | nonDeterministic | unknown
  deriving DecidableEq

/-- Contract-side declaration for one node port. -/
structure PortContract where
  portId : PortId
  direction : PortDirection
  schema : Option SchemaRef
  deriving DecidableEq

inductive ContractValidationError
  | emptySchemaRef
  | duplicatePortContract (nodeId : NodeId) (portId : PortId)
  | unknownWorkflowNode (nodeId : NodeId)
  | unknownWorkflowPort (nodeId : NodeId) (portId : PortId) (direction : PortDirection)
  | portDirectionMismatch (nodeId : NodeId) (portId : PortId) (workflow contract : PortDirection)
  | missingCapabilityDescriptor (nodeId : NodeId)
  | schemaMismatch (edgeIndex : ℕ) (sourceNodeId : NodeId) (sourcePortId : PortId)
      (targetNodeId : NodeId) (targetPortId : PortId)
  | capability (error : CapabilityValidationError)
  deriving DecidableEq

def rejectDuplicatePorts.go (nodeId : NodeId) :
    List PortContract → ExtTreeSet PortId → Except ContractValidationError Unit
  | [], _ => .ok ()
  | port :: rest, seen =>
    if port.portId ∈ seen then .error (.duplicatePortContract nodeId port.portId)
    else go nodeId rest (seen.insert port.portId)

def rejectDuplicatePorts (nodeId : NodeId) (ports : List PortContract) :
    Except ContractValidationError Unit :=
  rejectDuplicatePorts.go nodeId ports ∅

/-- Contract metadata for one node; no port identifier is repeated. -/
structure NodeContract where
  id : NodeId
  ports : List PortContract
  executionMode : ExecutionMode
  determinism : Determinism
  retry : RetryDisposition
  valid : rejectDuplicatePorts id ports = .ok ()
  deriving DecidableEq

namespace NodeContract

def new (id : NodeId) (ports : List PortContract) (executionMode : ExecutionMode)
    (determinism : Determinism) (retry : RetryDisposition) :
    Except ContractValidationError NodeContract :=
  match h : rejectDuplicatePorts id ports with
  | .ok () => .ok ⟨id, ports, executionMode, determinism, retry, h⟩
  | .error err => .error err

def portMap (contract : NodeContract) : ExtTreeMap PortId PortContract :=
  index PortContract.portId contract.ports

/-- The schema of a port, as the edges look it up: that of the first port of the name. -/
def schemaOf (contract : NodeContract) (portId : PortId) : Option SchemaRef :=
  (contract.ports.find? (·.portId = portId)).bind PortContract.schema

end NodeContract

/-- No strict boundary imports a host effect. -/
def strictBoundarySupportsEffect (_executionMode : ExecutionMode) (_effect : EffectCapability) :
    Bool :=
  false

/-- One effect of a descriptor, against a strict boundary. -/
def validateEffect (contract : NodeContract) (capability : NodeCapabilities)
    (effect : EffectCapability) : Except ContractValidationError Unit :=
  if !strictBoundarySupportsEffect contract.executionMode effect then
    .error (.capability (.unenforceableEffectCapability capability.nodeId effect))
  else .ok ()

def validateEnforceableCapabilities (contract : NodeContract) (capability : NodeCapabilities) :
    Except ContractValidationError Unit :=
  match contract.executionMode with
  | .native => .ok ()
  | .wasm => capability.effects.forM (validateEffect contract capability)
  | .process => capability.effects.forM (validateEffect contract capability)

/-- The declared ports with their directions, inputs first. -/
def workflowPorts (node : NodeDefinition) : ExtTreeMap PortId PortDirection :=
  ofEntries (node.inputPorts.map (·, PortDirection.input) ++
    node.outputPorts.map (·, PortDirection.output))

/-- One declared port, against the contract. -/
def validateWorkflowPort (node : NodeDefinition) (contractPorts : ExtTreeMap PortId PortContract) :
    PortId × PortDirection → Except ContractValidationError Unit
  | (portId, workflowDirection) =>
    match contractPorts[portId]? with
    | none => .error (.unknownWorkflowPort node.id portId workflowDirection)
    | some contractPort =>
      if contractPort.direction ≠ workflowDirection then
        .error (.portDirectionMismatch node.id portId workflowDirection contractPort.direction)
      else .ok ()

/-- One port of the contract, against the declaration. -/
def validateContractPort (node : NodeDefinition) (ports : ExtTreeMap PortId PortDirection) :
    PortId × PortContract → Except ContractValidationError Unit
  | (portId, contractPort) =>
    if portId ∈ ports then .ok ()
    else .error (.unknownWorkflowPort node.id portId contractPort.direction)

def validateNodeContract (node : NodeDefinition) (contract : NodeContract) :
    Except ContractValidationError Unit := do
  (workflowPorts node).toList.forM (validateWorkflowPort node contract.portMap)
  contract.portMap.toList.forM (validateContractPort node (workflowPorts node))

/-- One edge: the two schemas it joins are equal, where both are declared. -/
def validateEdgeSchema (contracts : ExtTreeMap NodeId NodeContract) :
    EdgeDefinition × ℕ → Except ContractValidationError Unit
  | (edge, edgeIndex) => do
    let some sourceContract := contracts[edge.source.nodeId]?
      | .error (.unknownWorkflowNode edge.source.nodeId)
    let some targetContract := contracts[edge.target.nodeId]?
      | .error (.unknownWorkflowNode edge.target.nodeId)
    match sourceContract.schemaOf edge.source.portId, targetContract.schemaOf edge.target.portId with
    | some sourceSchema, some targetSchema =>
      if sourceSchema ≠ targetSchema then
        .error (.schemaMismatch edgeIndex edge.source.nodeId edge.source.portId
          edge.target.nodeId edge.target.portId)
      else .ok ()
    | _, _ => .ok ()

def validateEdgeSchemaCompatibility (workflow : WorkflowDefinition)
    (contracts : ExtTreeMap NodeId NodeContract) : Except ContractValidationError Unit :=
  workflow.edges.zipIdx.forM (validateEdgeSchema contracts)

/-- One node of the workflow, against its contract and its descriptor. -/
def validateNode (contractMap : ExtTreeMap NodeId NodeContract)
    (capabilityMap : ExtTreeMap NodeId NodeCapabilities) (node : NodeDefinition) :
    Except ContractValidationError Unit := do
  let some contract := contractMap[node.id]? | .error (.unknownWorkflowNode node.id)
  let some capability := capabilityMap[node.id]? | .error (.missingCapabilityDescriptor node.id)
  validateNodeContract node contract
  validateEnforceableCapabilities contract capability

/-- One contract, against the nodes of the workflow. -/
def validateContractNode (workflow : WorkflowDefinition) (contract : NodeContract) :
    Except ContractValidationError Unit :=
  if workflow.nodes.all (·.id ≠ contract.id) then .error (.unknownWorkflowNode contract.id)
  else .ok ()

/-- Validate workflow topology, capability descriptors, and node contracts together. -/
def validateWorkflowContracts (workflow : WorkflowDefinition) (contracts : List NodeContract)
    (capabilities : List NodeCapabilities) : Except ContractValidationError Unit := do
  (validateWorkflowCapabilities workflow capabilities).mapError .capability
  let contractMap := index NodeContract.id contracts
  let capabilityMap := index NodeCapabilities.nodeId capabilities
  workflow.nodes.forM (validateNode contractMap capabilityMap)
  contracts.forM (validateContractNode workflow)
  validateEdgeSchemaCompatibility workflow contractMap

end Pureflow.Contract
