import Pureflow.Types

/-!
The static workflow graph: its data, the topology built from it, and its validation.

Ordered maps and sets are extensional tree maps and sets, iterated in key order. The loops
of the source are recursions over the lists they walk; the two loops with no list to walk,
Kahn's and the depth-first search for a cycle, take fuel.
-/

namespace Pureflow.Workflow

open Std Pureflow.Types

inductive PortDirection
  | input | output
  deriving DecidableEq

def PortDirection.label : PortDirection → String
  | .input => "input"
  | .output => "output"

inductive EdgeEndpointRole
  | source | target
  deriving DecidableEq

def EdgeEndpointRole.label : EdgeEndpointRole → String
  | .source => "source"
  | .target => "target"

inductive WorkflowValidationError
  | duplicateNode (nodeId : NodeId)
  | duplicatePort (nodeId : NodeId) (portId : PortId)
  | unknownNode (edgeIndex : ℕ) (endpoint : EdgeEndpointRole) (nodeId : NodeId)
  | unknownPort (edgeIndex : ℕ) (endpoint : EdgeEndpointRole) (nodeId : NodeId) (portId : PortId)
      (expected : PortDirection)
  | cycleDetected (cycle : List NodeId)
  deriving DecidableEq

instance : ToString WorkflowValidationError where
  toString
    | .duplicateNode nodeId => s!"workflow graph contains duplicate node `{nodeId}`"
    | .duplicatePort nodeId portId => s!"node `{nodeId}` contains duplicate port `{portId}`"
    | .unknownNode edgeIndex endpoint nodeId =>
      s!"edge {edgeIndex} {endpoint.label} references unknown node `{nodeId}`"
    | .unknownPort edgeIndex endpoint nodeId portId expected =>
      s!"edge {edgeIndex} {endpoint.label} references unknown {expected.label} port " ++
        s!"`{portId}` on node `{nodeId}`"
    | .cycleDetected cycle =>
      "workflow graph contains a cycle involving" ++
        String.join (cycle.map fun nodeId => s!" `{nodeId}`")

@[ext]
structure EdgeEndpoint where
  nodeId : NodeId
  portId : PortId
  deriving DecidableEq

/-- Capacity policy for a workflow edge. -/
inductive EdgeCapacity
  | default
  | explicit (capacity : ℕ+)
  deriving DecidableEq

def EdgeCapacity.resolve : EdgeCapacity → ℕ+ → ℕ+
  | .default, dflt => dflt
  | .explicit capacity, _ => capacity

structure EdgeDefinition where
  source : EdgeEndpoint
  target : EdgeEndpoint
  capacity : EdgeCapacity
  deriving DecidableEq

/-- The nodes an edge joins, in order. -/
def EdgeDefinition.nodePair (e : EdgeDefinition) : NodeId × NodeId :=
  (e.source.nodeId, e.target.nodeId)

def rejectDuplicatePorts.go (nodeId : NodeId) :
    List PortId → ExtTreeSet PortId → Except WorkflowValidationError Unit
  | [], _ => .ok ()
  | portId :: rest, seen =>
    if portId ∈ seen then .error (.duplicatePort nodeId portId)
    else go nodeId rest (seen.insert portId)

def rejectDuplicatePorts (nodeId : NodeId) (inputPorts outputPorts : List PortId) :
    Except WorkflowValidationError Unit :=
  rejectDuplicatePorts.go nodeId (inputPorts ++ outputPorts) ∅

/-- Static node declaration; no port identifier is repeated across its two lists. -/
structure NodeDefinition where
  id : NodeId
  inputPorts : List PortId
  outputPorts : List PortId
  valid : rejectDuplicatePorts id inputPorts outputPorts = .ok ()
  deriving DecidableEq

def NodeDefinition.new (id : NodeId) (inputPorts outputPorts : List PortId) :
    Except WorkflowValidationError NodeDefinition :=
  match h : rejectDuplicatePorts id inputPorts outputPorts with
  | .ok () => .ok ⟨id, inputPorts, outputPorts, h⟩
  | .error err => .error err

def rejectDuplicateNodes.go :
    List NodeDefinition → ExtTreeSet NodeId → Except WorkflowValidationError Unit
  | [], _ => .ok ()
  | node :: rest, seen =>
    if node.id ∈ seen then .error (.duplicateNode node.id)
    else go rest (seen.insert node.id)

def rejectDuplicateNodes (nodes : List NodeDefinition) : Except WorkflowValidationError Unit :=
  rejectDuplicateNodes.go nodes ∅

structure GraphTopology where
  nodeIds : List NodeId
  inputsByNode : ExtTreeMap NodeId (ExtTreeSet PortId)
  outputsByNode : ExtTreeMap NodeId (ExtTreeSet PortId)
  outgoingByNode : ExtTreeMap NodeId (ExtTreeSet NodeId)
  indegreeByNode : ExtTreeMap NodeId ℕ

namespace GraphTopology

def empty : GraphTopology := ⟨[], ∅, ∅, ∅, ∅⟩

/-- One round of the loop over the nodes. -/
def addNode (t : GraphTopology) (node : NodeDefinition) : GraphTopology where
  nodeIds := t.nodeIds ++ [node.id]
  inputsByNode := t.inputsByNode.insert node.id (.ofList node.inputPorts)
  outputsByNode := t.outputsByNode.insert node.id (.ofList node.outputPorts)
  outgoingByNode := t.outgoingByNode.insert node.id ∅
  indegreeByNode := t.indegreeByNode.insert node.id 0

def portsByNode (t : GraphTopology) : PortDirection → ExtTreeMap NodeId (ExtTreeSet PortId)
  | .input => t.inputsByNode
  | .output => t.outputsByNode

def validateEndpoint (t : GraphTopology) (edgeIndex : ℕ) (endpoint : EdgeEndpointRole)
    (edgeEndpoint : EdgeEndpoint) (expected : PortDirection) :
    Except WorkflowValidationError Unit :=
  match (t.portsByNode expected)[edgeEndpoint.nodeId]? with
  | none => .error (.unknownNode edgeIndex endpoint edgeEndpoint.nodeId)
  | some ports =>
    if edgeEndpoint.portId ∈ ports then .ok ()
    else .error (.unknownPort edgeIndex endpoint edgeEndpoint.nodeId edgeEndpoint.portId expected)

/-- One round of the loop over the edges: the successors are a set, the indegree a count. -/
def addEdge (t : GraphTopology) (edgeIndex : ℕ) (edge : EdgeDefinition) :
    Except WorkflowValidationError GraphTopology := do
  t.validateEndpoint edgeIndex .source edge.source .output
  t.validateEndpoint edgeIndex .target edge.target .input
  match t.outgoingByNode[edge.source.nodeId]? with
  | none => .error (.unknownNode edgeIndex .source edge.source.nodeId)
  | some outgoing =>
    match t.indegreeByNode[edge.target.nodeId]? with
    | none => .error (.unknownNode edgeIndex .target edge.target.nodeId)
    | some indegree =>
      .ok { t with
        outgoingByNode := t.outgoingByNode.insert edge.source.nodeId
          (outgoing.insert edge.target.nodeId)
        indegreeByNode := t.indegreeByNode.insert edge.target.nodeId (indegree + 1) }

def addEdges : ℕ → List EdgeDefinition → GraphTopology →
    Except WorkflowValidationError GraphTopology
  | _, [], t => .ok t
  | edgeIndex, edge :: rest, t => do addEdges (edgeIndex + 1) rest (← t.addEdge edgeIndex edge)

def fromGraph (nodes : List NodeDefinition) (edges : List EdgeDefinition) :
    Except WorkflowValidationError GraphTopology := do
  rejectDuplicateNodes nodes
  addEdges 0 edges (nodes.foldl addNode empty)

/-- The variables of Kahn's loop. -/
structure Sorting where
  indegreeByNode : ExtTreeMap NodeId ℕ
  ready : ExtTreeSet NodeId
  order : List NodeId

/-- The inner loop on one child of the node just listed. -/
def relaxChild (s : Sorting) (child : NodeId) : Sorting :=
  match s.indegreeByNode[child]? with
  | none => s
  | some indegree =>
    let s := { s with indegreeByNode := s.indegreeByNode.insert child (indegree - 1) }
    if indegree - 1 = 0 then { s with ready := s.ready.insert child } else s

/-- The outer loop on the node popped from the ready set. -/
def visit (t : GraphTopology) (s : Sorting) (nodeId : NodeId) : Sorting :=
  let s := { s with ready := s.ready.erase nodeId, order := s.order ++ [nodeId] }
  match t.outgoingByNode[nodeId]? with
  | none => s
  | some children => children.toList.foldl relaxChild s

/-- `while let Some(node_id) = ready.pop_first()`: the first node in key order is next. -/
def drain (t : GraphTopology) : ℕ → Sorting → Sorting
  | 0, s => s
  | fuel + 1, s =>
    match s.ready.toList.head? with
    | none => s
    | some nodeId => drain t fuel (t.visit s nodeId)

def startSorting (t : GraphTopology) : Sorting where
  indegreeByNode := t.indegreeByNode
  ready := .ofList ((t.indegreeByNode.toList.filter (fun p => p.2 = 0)).map Prod.fst)
  order := []

inductive VisitState
  | visiting | visited
  deriving DecidableEq

/-- The variables the depth-first search shares between its calls. -/
structure Search where
  states : ExtTreeMap NodeId VisitState
  stack : List NodeId

def cycleFromStack (stack : List NodeId) (child : NodeId) : Option (List NodeId) :=
  (stack.findIdx? (· = child)).map fun startIndex => stack.drop startIndex ++ [child]

/-- The loop over the children of one node, with the recursive call as a parameter. -/
def searchChildren (remaining : ExtTreeSet NodeId)
    (dfs : NodeId → Search → Option (List NodeId) × Search) :
    List NodeId → Search → Option (List NodeId) × Search
  | [], s => (none, s)
  | child :: rest, s =>
    if child ∉ remaining then searchChildren remaining dfs rest s
    else match s.states[child]? with
      | some .visiting =>
        match cycleFromStack s.stack child with
        | some cycle => (some cycle, s)
        | none => searchChildren remaining dfs rest s
      | some .visited => searchChildren remaining dfs rest s
      | none =>
        match dfs child s with
        | (some cycle, s) => (some cycle, s)
        | (none, s) => searchChildren remaining dfs rest s

def dfs (t : GraphTopology) (remaining : ExtTreeSet NodeId) :
    ℕ → NodeId → Search → Option (List NodeId) × Search
  | 0, _, s => (none, s)
  | fuel + 1, nodeId, s =>
    let s : Search := ⟨s.states.insert nodeId .visiting, s.stack ++ [nodeId]⟩
    let leave (s : Search) : Search := ⟨s.states.insert nodeId .visited, s.stack.dropLast⟩
    match t.outgoingByNode[nodeId]? with
    | none => (none, leave s)
    | some children =>
      match searchChildren remaining (dfs t remaining fuel) children.toList s with
      | (some cycle, s) => (some cycle, s)
      | (none, s) => (none, leave s)

/-- The loop over the roots of the search. -/
def searchRoots (t : GraphTopology) (remaining : ExtTreeSet NodeId) :
    List NodeId → Search → Option (List NodeId)
  | [], _ => none
  | nodeId :: rest, s =>
    if nodeId ∉ remaining ∨ nodeId ∈ s.states then searchRoots t remaining rest s
    else match t.dfs remaining remaining.size nodeId s with
      | (some cycle, _) => some cycle
      | (none, s) => searchRoots t remaining rest s

def findCycle (t : GraphTopology) (remaining : ExtTreeSet NodeId) : List NodeId :=
  (t.searchRoots remaining t.nodeIds ⟨∅, []⟩).getD remaining.toList

def topologicalOrder (t : GraphTopology) : Except WorkflowValidationError (List NodeId) :=
  let order := (t.drain t.indegreeByNode.size t.startSorting).order
  if order.length = t.nodeIds.length then .ok order
  else
    let remaining : ExtTreeSet NodeId := .ofList (t.nodeIds.filter (· ∉ order))
    .error (.cycleDetected (t.findCycle remaining))

end GraphTopology

def validate (nodes : List NodeDefinition) (edges : List EdgeDefinition) (allowCycles : Bool) :
    Except WorkflowValidationError Unit := do
  let topology ← GraphTopology.fromGraph nodes edges
  if !allowCycles then
    let _ ← topology.topologicalOrder
  pure ()

lemma validate_allow {nodes : List NodeDefinition} {edges : List EdgeDefinition}
    {allowCycles : Bool} (h : validate nodes edges allowCycles = .ok ()) :
    validate nodes edges true = .ok () := by
  unfold validate at h ⊢
  cases hg : GraphTopology.fromGraph nodes edges with
  | error err => rw [hg] at h; cases h
  | ok topology => rfl

/-- Validated graph-level workflow structure; it may hold cycles when they were allowed. -/
structure WorkflowGraph where
  nodes : List NodeDefinition
  edges : List EdgeDefinition
  valid : validate nodes edges true = .ok ()
  deriving DecidableEq

namespace WorkflowGraph

def build (nodes : List NodeDefinition) (edges : List EdgeDefinition) (allowCycles : Bool) :
    Except WorkflowValidationError WorkflowGraph :=
  match h : validate nodes edges allowCycles with
  | .ok () => .ok ⟨nodes, edges, validate_allow h⟩
  | .error err => .error err

def new (nodes : List NodeDefinition) (edges : List EdgeDefinition) :
    Except WorkflowValidationError WorkflowGraph := build nodes edges false

def withCyclesAllowed (nodes : List NodeDefinition) (edges : List EdgeDefinition) :
    Except WorkflowValidationError WorkflowGraph := build nodes edges true

def topologicalOrder (g : WorkflowGraph) : Except WorkflowValidationError (List NodeId) := do
  (← GraphTopology.fromGraph g.nodes g.edges).topologicalOrder

end WorkflowGraph

/-- Parsed workflow definition independent of runtime execution. -/
structure WorkflowDefinition where
  id : WorkflowId
  graph : WorkflowGraph
  deriving DecidableEq

namespace WorkflowDefinition

def nodes (w : WorkflowDefinition) : List NodeDefinition := w.graph.nodes

def edges (w : WorkflowDefinition) : List EdgeDefinition := w.graph.edges

def fromParts (id : WorkflowId) (nodes : List NodeDefinition) (edges : List EdgeDefinition) :
    Except WorkflowValidationError WorkflowDefinition := do
  pure ⟨id, ← WorkflowGraph.new nodes edges⟩

end WorkflowDefinition

end Pureflow.Workflow
