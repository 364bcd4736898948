import Pureflow.Core.Error
import Pureflow.Lib.Result
import Pureflow.Workflow.Graph

/-!
Capability descriptors: what a node may receive, emit or ask the runtime to do, and their check
against the topology of a workflow.
-/

namespace Pureflow.Core

open Std Pureflow.Types Pureflow.Workflow Pureflow.Lib

/-- A named claim that a node may use a port in one direction. -/
structure PortCapability where
  portId : PortId
  direction : PortCapabilityDirection
  deriving DecidableEq

def rejectDuplicateEffects.go (nodeId : NodeId) :
    List EffectCapability → List EffectCapability → Except CapabilityValidationError Unit
  | [], _ => .ok ()
  | effect :: rest, seen =>
    if effect ∈ seen then .error (.duplicateEffect nodeId effect)
    else go nodeId rest (effect :: seen)

def rejectDuplicateEffects (nodeId : NodeId) (effects : List EffectCapability) :
    Except CapabilityValidationError Unit :=
  rejectDuplicateEffects.go nodeId effects []

/-- The loop over the claims, with the ports received from and emitted to so far. -/
def rejectInvalidPortCapabilities.go (nodeId : NodeId) :
    List PortCapability → ExtTreeSet PortId → ExtTreeSet PortId →
      Except CapabilityValidationError (ExtTreeSet PortId × ExtTreeSet PortId)
  | [], receives, emits => .ok (receives, emits)
  | ⟨portId, .receive⟩ :: rest, receives, emits =>
    if portId ∈ receives then .error (.duplicatePortCapability nodeId portId .receive)
    else go nodeId rest (receives.insert portId) emits
  | ⟨portId, .emit⟩ :: rest, receives, emits =>
    if portId ∈ emits then .error (.duplicatePortCapability nodeId portId .emit)
    else go nodeId rest receives (emits.insert portId)

def rejectInvalidPortCapabilities (nodeId : NodeId) (ports : List PortCapability) :
    Except CapabilityValidationError Unit := do
  let (receives, emits) ← rejectInvalidPortCapabilities.go nodeId ports ∅ ∅
  match receives.toList.find? (· ∈ emits) with
  | some portId => .error (.conflictingPortDirection nodeId portId)
  | none => .ok ()

/-- The checks of a descriptor by itself. -/
def checkCapabilities (nodeId : NodeId) (ports : List PortCapability)
    (effects : List EffectCapability) : Except CapabilityValidationError Unit := do
  rejectDuplicateEffects nodeId effects
  rejectInvalidPortCapabilities nodeId ports

/-- Validated capability descriptor for one node. -/
structure NodeCapabilities where
  nodeId : NodeId
  ports : List PortCapability
  effects : List EffectCapability
  valid : checkCapabilities nodeId ports effects = .ok ()
  deriving DecidableEq

def NodeCapabilities.new (nodeId : NodeId) (ports : List PortCapability)
    (effects : List EffectCapability) : Except CapabilityValidationError NodeCapabilities :=
  match h : checkCapabilities nodeId ports effects with
  | .ok () => .ok ⟨nodeId, ports, effects, h⟩
  | .error err => .error err

def workflowDirectionFor (node : NodeDefinition) (portId : PortId) :
    Option PortCapabilityDirection :=
  if portId ∈ node.inputPorts then some .receive
  else if portId ∈ node.outputPorts then some .emit
  else none

/-- One claim of a descriptor, against the node it is about. -/
def validatePortCapability (capability : NodeCapabilities) (node : NodeDefinition)
    (port : PortCapability) : Except CapabilityValidationError Unit :=
  match workflowDirectionFor node port.portId with
  | none => .error (.unknownCapabilityPort capability.nodeId port.portId)
  | some declared =>
    if port.direction ≠ declared then
      .error (.capabilityDirectionMismatch capability.nodeId port.portId port.direction declared)
    else .ok ()

def validateNodeCapabilities (workflow : WorkflowDefinition) (capability : NodeCapabilities) :
    Except CapabilityValidationError Unit :=
  match workflow.nodes.find? (·.id = capability.nodeId) with
  | none => .error (.unknownCapabilityNode capability.nodeId)
  | some node => capability.ports.forM (validatePortCapability capability node)

/-- Validate that node capability descriptors align with one workflow topology. -/
def validateWorkflowCapabilities (workflow : WorkflowDefinition)
    (capabilities : List NodeCapabilities) : Except CapabilityValidationError Unit :=
  capabilities.forM (validateNodeCapabilities workflow)

/-- The direction in which a node uses one of its ports. -/
def Declares (node : NodeDefinition) (portId : PortId) : PortCapabilityDirection → Prop
  | .receive => portId ∈ node.inputPorts
  | .emit => portId ∈ node.outputPorts

end Pureflow.Core
