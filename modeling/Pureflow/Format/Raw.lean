import Pureflow.Format.Source
import Pureflow.Workflow.Graph

/-!
Raw workflow documents, their conversion to validated workflows, and the binding of rule sets to
their nodes.
-/

namespace Pureflow.Format

open Std Pureflow.Types Pureflow.Rules Pureflow.Workflow Pureflow.Lib Pureflow.Lib.Json

def currentPureflowVersion : String := "1"

/-- Raw node declaration after parser-level decoding. -/
structure RawNodeDefinition where
  id : String
  inputs : List String
  outputs : List String
  ruleSet : Option Value
  ruleSetRef : Option String

structure RawEdgeEndpoint where
  node : String
  port : String

structure RawEdgeDefinition where
  source : RawEdgeEndpoint
  target : RawEdgeEndpoint
  capacity : Option UInt64

/-- Raw workflow document after parser-level decoding. -/
structure RawWorkflowDefinition where
  pureflowVersion : Option String
  id : String
  nodes : List RawNodeDefinition
  edges : List RawEdgeDefinition

/-- Identifier location in a raw workflow document. -/
inductive IdentifierContext
  | workflow
  | node (nodeIndex : ℕ)
  | inputPort (nodeIndex portIndex : ℕ)
  | outputPort (nodeIndex portIndex : ℕ)
  | edgeSourceNode (edgeIndex : ℕ)
  | edgeSourcePort (edgeIndex : ℕ)
  | edgeTargetNode (edgeIndex : ℕ)
  | edgeTargetPort (edgeIndex : ℕ)
  deriving DecidableEq

inductive RuleSetBindingError
  | conflict
  | resolve (source : RuleSourceError)
  | parse (reason : String)
  deriving DecidableEq

inductive WorkflowFormatError
  | missingVersion
  | unsupportedVersion (version : String)
  | identifier (context : IdentifierContext) (source : IdentifierError)
  | invalidEdgeCapacity (edgeIndex : ℕ) (capacity : UInt64)
  | workflow (source : WorkflowValidationError)
  | ruleSet (nodeIndex : ℕ) (source : RuleSetBindingError)
  deriving DecidableEq

def validateVersion : Option String → Except WorkflowFormatError Unit
  | some version =>
    if version = currentPureflowVersion then .ok () else .error (.unsupportedVersion version)
  | none => .error .missingVersion

/-- An identifier of the document, or the error that says where it stands. -/
def identifierAt (context : IdentifierContext) (kind : IdentifierKind) (value : String) :
    Except WorkflowFormatError (Identifier kind) :=
  (Identifier.new kind value).mapError (.identifier context)

def rawNodeToDefinition (nodeIndex : ℕ) (raw : RawNodeDefinition) :
    Except WorkflowFormatError NodeDefinition := do
  let nodeId ← identifierAt (.node nodeIndex) .node raw.id
  let inputs ← raw.inputs.zipIdx.mapM fun (port, portIndex) =>
    identifierAt (.inputPort nodeIndex portIndex) .port port
  let outputs ← raw.outputs.zipIdx.mapM fun (port, portIndex) =>
    identifierAt (.outputPort nodeIndex portIndex) .port port
  (NodeDefinition.new nodeId inputs outputs).mapError .workflow

def rawEndpointToDefinition (raw : RawEdgeEndpoint) (nodeContext portContext : IdentifierContext) :
    Except WorkflowFormatError EdgeEndpoint := do
  let nodeId ← identifierAt nodeContext .node raw.node
  let portId ← identifierAt portContext .port raw.port
  return ⟨nodeId, portId⟩

/-- The edge with its capacity: none is the default one. -/
def edgeWithCapacity (edgeIndex : ℕ) (source target : EdgeEndpoint) :
    Option UInt64 → Except WorkflowFormatError EdgeDefinition
  | none => .ok ⟨source, target, .default⟩
  | some capacity =>
    if h : 0 < capacity.toNat then .ok ⟨source, target, .explicit ⟨capacity.toNat, h⟩⟩
    else .error (.invalidEdgeCapacity edgeIndex capacity)

def rawEdgeToDefinition (edgeIndex : ℕ) (raw : RawEdgeDefinition) :
    Except WorkflowFormatError EdgeDefinition := do
  let source ← rawEndpointToDefinition raw.source (.edgeSourceNode edgeIndex)
    (.edgeSourcePort edgeIndex)
  let target ← rawEndpointToDefinition raw.target (.edgeTargetNode edgeIndex)
    (.edgeTargetPort edgeIndex)
  edgeWithCapacity edgeIndex source target raw.capacity

/-- Resolve the rule set for a single raw node, if any. -/
def resolveNodeRuleSet (host : Host) (registry : SourceRegistry) (nodeIndex : ℕ)
    (node : RawNodeDefinition) : Except WorkflowFormatError (Option RuleSet) :=
  match node.ruleSet, node.ruleSetRef with
  | some _, some _ => .error (.ruleSet nodeIndex .conflict)
  | some inline, none =>
    ((host.fromValue inline).mapError fun reason => .ruleSet nodeIndex (.parse reason)).map some
  | none, some refUri =>
    ((registry.load host refUri).mapError fun source => .ruleSet nodeIndex (.resolve source)).map some
  | none, none => .ok none

/-- A validated workflow paired with the rule sets resolved for its nodes. -/
structure LoadedWorkflow where
  workflow : WorkflowDefinition
  ruleSets : ExtTreeMap NodeId RuleSet

namespace RawWorkflowDefinition

/-- Convert this raw workflow into a validated domain workflow. -/
def toWorkflow (raw : RawWorkflowDefinition) : Except WorkflowFormatError WorkflowDefinition := do
  validateVersion raw.pureflowVersion
  let workflowId ← identifierAt .workflow .workflow raw.id
  let nodes ← raw.nodes.zipIdx.mapM fun (node, nodeIndex) => rawNodeToDefinition nodeIndex node
  let edges ← raw.edges.zipIdx.mapM fun (edge, edgeIndex) => rawEdgeToDefinition edgeIndex edge
  (WorkflowDefinition.fromParts workflowId nodes edges).mapError .workflow

/-- One node with its rule set inlined; writing a rule set as JSON never fails. -/
def resolveNode (host : Host) (registry : SourceRegistry) (nodeIndex : ℕ)
    (node : RawNodeDefinition) : Except WorkflowFormatError RawNodeDefinition := do
  let ruleSet ← resolveNodeRuleSet host registry nodeIndex node
  return { node with ruleSet := ruleSet.map ruleSetValue, ruleSetRef := none }

/-- Resolve every reference into an inline rule set. -/
def resolveRuleSets (host : Host) (registry : SourceRegistry) (raw : RawWorkflowDefinition) :
    Except WorkflowFormatError RawWorkflowDefinition := do
  let nodes ← raw.nodes.zipIdx.mapM fun (node, nodeIndex) =>
    resolveNode host registry nodeIndex node
  return { raw with nodes := nodes }

/-- The loop that collects the rule sets by node. -/
def loadWorkflow.go (host : Host) (registry : SourceRegistry) :
    List (RawNodeDefinition × ℕ) → ExtTreeMap NodeId RuleSet →
      Except WorkflowFormatError (ExtTreeMap NodeId RuleSet)
  | [], ruleSets => .ok ruleSets
  | (node, nodeIndex) :: rest, ruleSets => do
    match ← resolveNodeRuleSet host registry nodeIndex node with
    | none => go host registry rest ruleSets
    | some ruleSet =>
      let nodeId ← identifierAt (.node nodeIndex) .node node.id
      go host registry rest (ruleSets.insert nodeId ruleSet)

/-- Resolve all rule sets and validate the workflow graph in one pass. -/
def loadWorkflow (host : Host) (registry : SourceRegistry) (raw : RawWorkflowDefinition) :
    Except WorkflowFormatError LoadedWorkflow := do
  let workflow ← raw.toWorkflow
  let ruleSets ← loadWorkflow.go host registry raw.nodes.zipIdx ∅
  return ⟨workflow, ruleSets⟩

end RawWorkflowDefinition

end Pureflow.Format
