import Pureflow.Format.Raw
import Pureflow.Lib.Result

/-!
The conversion of raw documents is exact: which documents convert, to what, and which error the
others give.

The error is that of the first offending item: the version, the workflow id, the nodes and then
the edges by index, and the graph at last.
-/

namespace Pureflow.Format

open Pureflow.Types Pureflow.Workflow Pureflow.Lib

/-- The text is an identifier of this kind. -/
def Valid (kind : IdentifierKind) (value : String) : Prop := validateIdentifier kind value = .ok ()

section Mirroring

/-- A node as the document declares it. -/
structure MirrorsNode (raw : RawNodeDefinition) (node : NodeDefinition) : Prop where
  id : node.id.value = raw.id
  inputs : node.inputPorts.map (·.value) = raw.inputs
  outputs : node.outputPorts.map (·.value) = raw.outputs

structure MirrorsEndpoint (raw : RawEdgeEndpoint) (endpoint : EdgeEndpoint) : Prop where
  node : endpoint.nodeId.value = raw.node
  port : endpoint.portId.value = raw.port

/-- No capacity is the default one, and a number that number. -/
def MirrorsCapacity : Option UInt64 → EdgeCapacity → Prop
  | none, capacity => capacity = .default
  | some n, capacity => ∃ k : ℕ+, (k : ℕ) = n.toNat ∧ capacity = .explicit k

structure MirrorsEdge (raw : RawEdgeDefinition) (edge : EdgeDefinition) : Prop where
  source : MirrorsEndpoint raw.source edge.source
  target : MirrorsEndpoint raw.target edge.target
  capacity : MirrorsCapacity raw.capacity edge.capacity

/-- A workflow as the document declares it, element by element in order. -/
structure Mirrors (raw : RawWorkflowDefinition) (w : WorkflowDefinition) : Prop where
  id : w.id.value = raw.id
  nodes : List.Forall₂ MirrorsNode raw.nodes w.nodes
  edges : List.Forall₂ MirrorsEdge raw.edges w.edges

end Mirroring

section Acceptance

structure ValidNode (raw : RawNodeDefinition) : Prop where
  id : Valid .node raw.id
  inputs : ∀ port ∈ raw.inputs, Valid .port port
  outputs : ∀ port ∈ raw.outputs, Valid .port port
  /-- Its port lists are accepted. -/
  ports : ∀ (id : NodeId) (inputs outputs : List PortId), id.value = raw.id →
    inputs.map (·.value) = raw.inputs → outputs.map (·.value) = raw.outputs →
      ∃ node, NodeDefinition.new id inputs outputs = .ok node

structure ValidEdge (raw : RawEdgeDefinition) : Prop where
  sourceNode : Valid .node raw.source.node
  sourcePort : Valid .port raw.source.port
  targetNode : Valid .node raw.target.node
  targetPort : Valid .port raw.target.port
  capacity : raw.capacity ≠ some 0

/-- The documents that convert. -/
structure Convertible (raw : RawWorkflowDefinition) : Prop where
  version : raw.pureflowVersion = some "1"
  id : Valid .workflow raw.id
  nodes : ∀ node ∈ raw.nodes, ValidNode node
  edges : ∀ edge ∈ raw.edges, ValidEdge edge
  graph : ∀ nodes edges, List.Forall₂ MirrorsNode raw.nodes nodes →
    List.Forall₂ MirrorsEdge raw.edges edges → ∃ graph, WorkflowGraph.new nodes edges = .ok graph

end Acceptance

section Defects

/-- The first port that is no identifier, with what is wrong with it. -/
def FirstInvalid (ports : List String) (portIndex : ℕ) (err : IdentifierError) : Prop :=
  ∃ port, ports[portIndex]? = some port ∧ validateIdentifier .port port = .error err ∧
    ∀ j < portIndex, ∀ other, ports[j]? = some other → Valid .port other

/-- The first thing wrong with a node: its id, its inputs, its outputs, or a repeated port. -/
inductive NodeDefect (nodeIndex : ℕ) (raw : RawNodeDefinition) : WorkflowFormatError → Prop
  | id {err : IdentifierError} : validateIdentifier .node raw.id = .error err →
    NodeDefect nodeIndex raw (.identifier (.node nodeIndex) err)
  | input {portIndex : ℕ} {err : IdentifierError} : Valid .node raw.id →
    FirstInvalid raw.inputs portIndex err →
    NodeDefect nodeIndex raw (.identifier (.inputPort nodeIndex portIndex) err)
  | output {portIndex : ℕ} {err : IdentifierError} : Valid .node raw.id →
    (∀ port ∈ raw.inputs, Valid .port port) → FirstInvalid raw.outputs portIndex err →
    NodeDefect nodeIndex raw (.identifier (.outputPort nodeIndex portIndex) err)
  | ports {id : NodeId} {inputs outputs : List PortId} {err : WorkflowValidationError} :
    id.value = raw.id → inputs.map (·.value) = raw.inputs → outputs.map (·.value) = raw.outputs →
    NodeDefinition.new id inputs outputs = .error err → NodeDefect nodeIndex raw (.workflow err)

/-- The first thing wrong with an edge: an id of its source, of its target, or its capacity. -/
inductive EdgeDefect (edgeIndex : ℕ) (raw : RawEdgeDefinition) : WorkflowFormatError → Prop
  | sourceNode {err : IdentifierError} : validateIdentifier .node raw.source.node = .error err →
    EdgeDefect edgeIndex raw (.identifier (.edgeSourceNode edgeIndex) err)
  | sourcePort {err : IdentifierError} : Valid .node raw.source.node →
    validateIdentifier .port raw.source.port = .error err →
    EdgeDefect edgeIndex raw (.identifier (.edgeSourcePort edgeIndex) err)
  | targetNode {err : IdentifierError} : Valid .node raw.source.node → Valid .port raw.source.port →
    validateIdentifier .node raw.target.node = .error err →
    EdgeDefect edgeIndex raw (.identifier (.edgeTargetNode edgeIndex) err)
  | targetPort {err : IdentifierError} : Valid .node raw.source.node → Valid .port raw.source.port →
    Valid .node raw.target.node → validateIdentifier .port raw.target.port = .error err →
    EdgeDefect edgeIndex raw (.identifier (.edgeTargetPort edgeIndex) err)
  | capacity : Valid .node raw.source.node → Valid .port raw.source.port →
    Valid .node raw.target.node → Valid .port raw.target.port → raw.capacity = some 0 →
    EdgeDefect edgeIndex raw (.invalidEdgeCapacity edgeIndex 0)

/-- The error of the first offending item of a document. -/
inductive FirstDefect (raw : RawWorkflowDefinition) : WorkflowFormatError → Prop
  | missingVersion : raw.pureflowVersion = none → FirstDefect raw .missingVersion
  | unsupportedVersion {version : String} : raw.pureflowVersion = some version → version ≠ "1" →
    FirstDefect raw (.unsupportedVersion version)
  | id {err : IdentifierError} : raw.pureflowVersion = some "1" →
    validateIdentifier .workflow raw.id = .error err →
    FirstDefect raw (.identifier .workflow err)
  | node {nodeIndex : ℕ} {node : RawNodeDefinition} {err : WorkflowFormatError} :
    raw.pureflowVersion = some "1" → Valid .workflow raw.id → raw.nodes[nodeIndex]? = some node →
    NodeDefect nodeIndex node err →
    (∀ j < nodeIndex, ∀ other, raw.nodes[j]? = some other → ValidNode other) →
    FirstDefect raw err
  | edge {edgeIndex : ℕ} {edge : RawEdgeDefinition} {err : WorkflowFormatError} :
    raw.pureflowVersion = some "1" → Valid .workflow raw.id →
    (∀ node ∈ raw.nodes, ValidNode node) → raw.edges[edgeIndex]? = some edge →
    EdgeDefect edgeIndex edge err →
    (∀ j < edgeIndex, ∀ other, raw.edges[j]? = some other → ValidEdge other) →
    FirstDefect raw err
  | graph {nodes : List NodeDefinition} {edges : List EdgeDefinition}
      {err : WorkflowValidationError} :
    raw.pureflowVersion = some "1" → Valid .workflow raw.id →
    List.Forall₂ MirrorsNode raw.nodes nodes → List.Forall₂ MirrorsEdge raw.edges edges →
    WorkflowGraph.new nodes edges = .error err → FirstDefect raw (.workflow err)

end Defects

section Identifiers

variable {kind : IdentifierKind} {value : String} {context : IdentifierContext}

lemma identifier_eq_ok {id : Identifier kind} :
    Identifier.new kind value = .ok id ↔ id.value = value := by
  refine ⟨Identifier.value_of_new, ?_⟩
  rintro rfl
  exact Identifier.new_value id

lemma identifier_eq_error {err : IdentifierError} :
    Identifier.new kind value = .error err ↔ validateIdentifier kind value = .error err := by
  unfold Identifier.new
  split
  · next h => simp [h]
  · next h => simp [h]

lemma valid_iff : Valid kind value ↔ ∃ id : Identifier kind, id.value = value := by
  constructor
  · intro h
    exact ⟨⟨value, h⟩, rfl⟩
  · rintro ⟨id, rfl⟩
    exact id.valid

lemma identifierAt_eq_ok {id : Identifier kind} :
    identifierAt context kind value = .ok id ↔ id.value = value := by
  rw [identifierAt, Result.mapError_eq_ok, identifier_eq_ok]

lemma identifierAt_eq_error {e : WorkflowFormatError} :
    identifierAt context kind value = .error e ↔
      ∃ err, validateIdentifier kind value = .error err ∧ .identifier context err = e := by
  simp only [identifierAt, Result.mapError_eq_error, identifier_eq_error]

variable {located : ℕ → IdentifierContext} {ports : List String}

lemma ports_eq_ok {ids : List PortId} :
    (ports.zipIdx.mapM fun p => identifierAt (located p.2) .port p.1) = .ok ids ↔
      ids.map (·.value) = ports := by
  have hone (port : String) (i : ℕ) (id : PortId) :
      identifierAt (located i) .port port = .ok id ↔ port = id.value := by
    rw [identifierAt_eq_ok, eq_comm]
  rw [Result.mapM_zipIdx_eq_ok hone, ← List.forall₂_map_right_iff, List.forall₂_eq_eq_eq, eq_comm]

lemma ports_eq_error {e : WorkflowFormatError} :
    (ports.zipIdx.mapM fun p => identifierAt (located p.2) .port p.1) = .error e ↔
      ∃ i err, FirstInvalid ports i err ∧ .identifier (located i) err = e := by
  simp only [Result.mapM_zipIdx_eq_error, identifierAt_eq_error, identifierAt_eq_ok, ← valid_iff,
    FirstInvalid]
  constructor
  · rintro ⟨i, port, hport, ⟨err, herr, rfl⟩, hbefore⟩
    exact ⟨i, err, ⟨port, hport, herr, hbefore⟩, rfl⟩
  · rintro ⟨i, err, ⟨port, hport, herr, hbefore⟩, rfl⟩
    exact ⟨i, port, hport, ⟨err, herr, rfl⟩, hbefore⟩

lemma forall_valid_iff :
    (∀ port ∈ ports, Valid .port port) ↔ ∃ ids : List PortId, ids.map (·.value) = ports := by
  induction ports with
  | nil => simp
  | cons port rest ih =>
    rw [List.forall_mem_cons, ih, valid_iff]
    constructor
    · rintro ⟨⟨id, rfl⟩, ids, rfl⟩
      exact ⟨id :: ids, rfl⟩
    · rintro ⟨ids, hids⟩
      cases ids with
      | nil => cases hids
      | cons id ids =>
        obtain ⟨rfl, rfl⟩ := List.cons.inj hids
        exact ⟨⟨id, rfl⟩, ids, rfl⟩

end Identifiers

section Nodes

variable {nodeIndex : ℕ} {raw : RawNodeDefinition}

lemma nodeDefinition_eq_ok {id : NodeId} {inputs outputs : List PortId} {node : NodeDefinition} :
    NodeDefinition.new id inputs outputs = .ok node ↔
      node.id = id ∧ node.inputPorts = inputs ∧ node.outputPorts = outputs := by
  constructor
  · intro h
    unfold NodeDefinition.new at h
    split at h
    · cases h
      exact ⟨rfl, rfl, rfl⟩
    · cases h
  · rintro ⟨rfl, rfl, rfl⟩
    unfold NodeDefinition.new
    split
    · rfl
    · next err h =>
      rw [node.valid] at h
      cases h

lemma rawNode_eq_ok {node : NodeDefinition} :
    rawNodeToDefinition nodeIndex raw = .ok node ↔ MirrorsNode raw node := by
  simp only [rawNodeToDefinition, Result.bind_eq_ok, Result.mapError_eq_ok, identifierAt_eq_ok,
    ports_eq_ok, nodeDefinition_eq_ok]
  constructor
  · rintro ⟨id, hid, inputs, hinputs, outputs, houtputs, rfl, rfl, rfl⟩
    exact ⟨hid, hinputs, houtputs⟩
  · intro h
    exact ⟨node.id, h.id, node.inputPorts, h.inputs, node.outputPorts, h.outputs, rfl, rfl, rfl⟩

lemma rawNode_eq_error {e : WorkflowFormatError} :
    rawNodeToDefinition nodeIndex raw = .error e ↔ NodeDefect nodeIndex raw e := by
  simp only [rawNodeToDefinition, Result.bind_eq_error, Result.mapError_eq_error,
    identifierAt_eq_ok, identifierAt_eq_error, ports_eq_ok, ports_eq_error]
  constructor
  · rintro (⟨err, herr, rfl⟩ | ⟨id, hid, ⟨i, err, herr, rfl⟩ | ⟨inputs, hinputs,
      ⟨i, err, herr, rfl⟩ | ⟨outputs, houtputs, err, herr, rfl⟩⟩⟩)
    · exact .id herr
    · exact .input (valid_iff.mpr ⟨id, hid⟩) herr
    · exact .output (valid_iff.mpr ⟨id, hid⟩) (forall_valid_iff.mpr ⟨inputs, hinputs⟩) herr
    · exact .ports hid hinputs houtputs herr
  · intro h
    cases h with
    | id herr => exact .inl ⟨_, herr, rfl⟩
    | input hid herr =>
      obtain ⟨id, hid⟩ := valid_iff.mp hid
      exact .inr ⟨id, hid, .inl ⟨_, _, herr, rfl⟩⟩
    | output hid hinputs herr =>
      obtain ⟨id, hid⟩ := valid_iff.mp hid
      obtain ⟨inputs, hinputs⟩ := forall_valid_iff.mp hinputs
      exact .inr ⟨id, hid, .inr ⟨inputs, hinputs, .inl ⟨_, _, herr, rfl⟩⟩⟩
    | ports hid hinputs houtputs herr =>
      exact .inr ⟨_, hid, .inr ⟨_, hinputs, .inr ⟨_, houtputs, _, herr, rfl⟩⟩⟩

lemma validNode_iff : ValidNode raw ↔ ∃ node, MirrorsNode raw node := by
  constructor
  · intro h
    obtain ⟨id, hid⟩ := valid_iff.mp h.id
    obtain ⟨inputs, hinputs⟩ := forall_valid_iff.mp h.inputs
    obtain ⟨outputs, houtputs⟩ := forall_valid_iff.mp h.outputs
    obtain ⟨node, hnode⟩ := h.ports id inputs outputs hid hinputs houtputs
    obtain ⟨rfl, rfl, rfl⟩ := nodeDefinition_eq_ok.mp hnode
    exact ⟨node, hid, hinputs, houtputs⟩
  · rintro ⟨node, h⟩
    refine ⟨valid_iff.mpr ⟨_, h.id⟩, forall_valid_iff.mpr ⟨_, h.inputs⟩,
      forall_valid_iff.mpr ⟨_, h.outputs⟩, fun id inputs outputs hid hinputs houtputs => ?_⟩
    have hinj : Function.Injective (fun port : PortId => port.value) := fun _ _ => Identifier.ext
    refine ⟨node, nodeDefinition_eq_ok.mpr ⟨Identifier.ext (h.id.trans hid.symm), ?_, ?_⟩⟩
    · exact hinj.list_map (h.inputs.trans hinputs.symm)
    · exact hinj.list_map (h.outputs.trans houtputs.symm)

end Nodes

section Edges

variable {edgeIndex : ℕ} {raw : RawEdgeDefinition}

lemma rawEndpoint_eq_ok {raw : RawEdgeEndpoint} {nodeContext portContext : IdentifierContext}
    {endpoint : EdgeEndpoint} :
    rawEndpointToDefinition raw nodeContext portContext = .ok endpoint ↔
      MirrorsEndpoint raw endpoint := by
  simp only [rawEndpointToDefinition, Result.bind_eq_ok, identifierAt_eq_ok, pure, Except.pure,
    Except.ok.injEq]
  constructor
  · rintro ⟨nodeId, hnode, portId, hport, rfl⟩
    exact ⟨hnode, hport⟩
  · intro h
    exact ⟨endpoint.nodeId, h.node, endpoint.portId, h.port, rfl⟩

lemma rawEndpoint_eq_error {raw : RawEdgeEndpoint} {nodeContext portContext : IdentifierContext}
    {e : WorkflowFormatError} :
    rawEndpointToDefinition raw nodeContext portContext = .error e ↔
      (∃ err, validateIdentifier .node raw.node = .error err ∧ .identifier nodeContext err = e) ∨
      (Valid .node raw.node ∧
        ∃ err, validateIdentifier .port raw.port = .error err ∧ .identifier portContext err = e) := by
  simp only [rawEndpointToDefinition, Result.bind_eq_error, identifierAt_eq_ok,
    identifierAt_eq_error, pure, Except.pure, reduceCtorEq, and_false, exists_false, or_false,
    valid_iff, exists_and_right]

lemma exists_mirrorsEndpoint {raw : RawEdgeEndpoint} :
    (∃ endpoint, MirrorsEndpoint raw endpoint) ↔ Valid .node raw.node ∧ Valid .port raw.port := by
  rw [valid_iff, valid_iff]
  constructor
  · rintro ⟨endpoint, h⟩
    exact ⟨⟨_, h.node⟩, ⟨_, h.port⟩⟩
  · rintro ⟨⟨nodeId, hnode⟩, ⟨portId, hport⟩⟩
    exact ⟨⟨nodeId, portId⟩, hnode, hport⟩

lemma zero_iff {n : UInt64} : n = 0 ↔ ¬0 < n.toNat := by
  rw [← UInt64.toNat_inj]
  simp

lemma edgeWithCapacity_eq_ok {source target : EdgeEndpoint} {capacity : Option UInt64}
    {edge : EdgeDefinition} :
    edgeWithCapacity edgeIndex source target capacity = .ok edge ↔
      edge.source = source ∧ edge.target = target ∧ MirrorsCapacity capacity edge.capacity := by
  obtain ⟨source', target', capacity'⟩ := edge
  cases capacity with
  | none =>
    simp only [edgeWithCapacity, Except.ok.injEq, EdgeDefinition.mk.injEq, MirrorsCapacity, eq_comm]
  | some n =>
    simp only [edgeWithCapacity, MirrorsCapacity]
    by_cases hpos : 0 < n.toNat
    · rw [dif_pos hpos]
      simp only [Except.ok.injEq, EdgeDefinition.mk.injEq]
      constructor
      · rintro ⟨rfl, rfl, rfl⟩
        exact ⟨rfl, rfl, ⟨n.toNat, hpos⟩, rfl, rfl⟩
      · rintro ⟨rfl, rfl, k, hk, rfl⟩
        exact ⟨rfl, rfl, congrArg EdgeCapacity.explicit (PNat.coe_injective hk.symm)⟩
    · rw [dif_neg hpos]
      refine iff_of_false (by simp) ?_
      rintro ⟨-, -, k, hk, -⟩
      exact hpos (hk ▸ k.pos)

lemma edgeWithCapacity_eq_error {source target : EdgeEndpoint} {capacity : Option UInt64}
    {e : WorkflowFormatError} :
    edgeWithCapacity edgeIndex source target capacity = .error e ↔
      capacity = some 0 ∧ .invalidEdgeCapacity edgeIndex 0 = e := by
  cases capacity with
  | none => simp [edgeWithCapacity]
  | some n =>
    rw [Option.some.injEq, zero_iff, edgeWithCapacity]
    by_cases hpos : 0 < n.toNat
    · simp [hpos]
    · obtain rfl := zero_iff.mpr hpos
      simp

lemma rawEdge_eq_ok {edge : EdgeDefinition} :
    rawEdgeToDefinition edgeIndex raw = .ok edge ↔ MirrorsEdge raw edge := by
  simp only [rawEdgeToDefinition, Result.bind_eq_ok, rawEndpoint_eq_ok, edgeWithCapacity_eq_ok]
  constructor
  · rintro ⟨source, hsource, target, htarget, rfl, rfl, hcapacity⟩
    exact ⟨hsource, htarget, hcapacity⟩
  · intro h
    exact ⟨_, h.source, _, h.target, rfl, rfl, h.capacity⟩

lemma rawEdge_eq_error {e : WorkflowFormatError} :
    rawEdgeToDefinition edgeIndex raw = .error e ↔ EdgeDefect edgeIndex raw e := by
  simp only [rawEdgeToDefinition, Result.bind_eq_error, rawEndpoint_eq_ok, rawEndpoint_eq_error,
    edgeWithCapacity_eq_error]
  constructor
  · rintro ((⟨err, herr, rfl⟩ | ⟨hnode, err, herr, rfl⟩) | ⟨source, hsource,
      (⟨err, herr, rfl⟩ | ⟨hnode, err, herr, rfl⟩) | ⟨target, htarget, hcapacity, rfl⟩⟩)
    · exact .sourceNode herr
    · exact .sourcePort hnode herr
    · have hvalid := exists_mirrorsEndpoint.mp ⟨source, hsource⟩
      exact .targetNode hvalid.1 hvalid.2 herr
    · have hvalid := exists_mirrorsEndpoint.mp ⟨source, hsource⟩
      exact .targetPort hvalid.1 hvalid.2 hnode herr
    · have hvalid := exists_mirrorsEndpoint.mp ⟨source, hsource⟩
      have hvalid' := exists_mirrorsEndpoint.mp ⟨target, htarget⟩
      exact .capacity hvalid.1 hvalid.2 hvalid'.1 hvalid'.2 hcapacity
  · intro h
    cases h with
    | sourceNode herr => exact .inl (.inl ⟨_, herr, rfl⟩)
    | sourcePort hnode herr => exact .inl (.inr ⟨hnode, _, herr, rfl⟩)
    | targetNode hnode hport herr =>
      obtain ⟨source, hsource⟩ := exists_mirrorsEndpoint.mpr ⟨hnode, hport⟩
      exact .inr ⟨source, hsource, .inl (.inl ⟨_, herr, rfl⟩)⟩
    | targetPort hnode hport htarget herr =>
      obtain ⟨source, hsource⟩ := exists_mirrorsEndpoint.mpr ⟨hnode, hport⟩
      exact .inr ⟨source, hsource, .inl (.inr ⟨htarget, _, herr, rfl⟩)⟩
    | capacity hnode hport hnode' hport' hcapacity =>
      obtain ⟨source, hsource⟩ := exists_mirrorsEndpoint.mpr ⟨hnode, hport⟩
      obtain ⟨target, htarget⟩ := exists_mirrorsEndpoint.mpr ⟨hnode', hport'⟩
      exact .inr ⟨source, hsource, .inr ⟨target, htarget, hcapacity, rfl⟩⟩

lemma validEdge_iff : ValidEdge raw ↔ ∃ edge, MirrorsEdge raw edge := by
  constructor
  · intro h
    obtain ⟨source, hsource⟩ := exists_mirrorsEndpoint.mpr ⟨h.sourceNode, h.sourcePort⟩
    obtain ⟨target, htarget⟩ := exists_mirrorsEndpoint.mpr ⟨h.targetNode, h.targetPort⟩
    cases hcapacity : raw.capacity with
    | none => exact ⟨⟨source, target, .default⟩, hsource, htarget, by rw [hcapacity]; rfl⟩
    | some n =>
      have hpos : 0 < n.toNat := by
        by_contra hzero
        exact h.capacity (by rw [hcapacity, zero_iff.mpr hzero])
      refine ⟨⟨source, target, .explicit ⟨n.toNat, hpos⟩⟩, hsource, htarget, ?_⟩
      rw [hcapacity]
      exact ⟨_, rfl, rfl⟩
  · rintro ⟨edge, h⟩
    have hsource := exists_mirrorsEndpoint.mp ⟨_, h.source⟩
    have htarget := exists_mirrorsEndpoint.mp ⟨_, h.target⟩
    refine ⟨hsource.1, hsource.2, htarget.1, htarget.2, fun hzero => ?_⟩
    have hcapacity := h.capacity
    rw [hzero] at hcapacity
    obtain ⟨k, hk, -⟩ := hcapacity
    exact k.ne_zero hk

end Edges

section Workflows

variable {raw : RawWorkflowDefinition}

lemma validateVersion_eq_ok {version : Option String} {u : Unit} :
    validateVersion version = .ok u ↔ version = some "1" := by
  cases version with
  | none => simp [validateVersion]
  | some v =>
    by_cases h : v = "1"
    · simp [validateVersion, currentPureflowVersion, h]
    · simp [validateVersion, currentPureflowVersion, h]

lemma validateVersion_eq_error {version : Option String} {e : WorkflowFormatError} :
    validateVersion version = .error e ↔
      (version = none ∧ .missingVersion = e) ∨
      ∃ v, version = some v ∧ v ≠ "1" ∧ .unsupportedVersion v = e := by
  cases version with
  | none => simp [validateVersion]
  | some v =>
    by_cases h : v = "1"
    · simp [validateVersion, currentPureflowVersion, h]
    · simp [validateVersion, currentPureflowVersion, h]

lemma fromParts_eq_ok {id : WorkflowId} {nodes : List NodeDefinition} {edges : List EdgeDefinition}
    {w : WorkflowDefinition} :
    WorkflowDefinition.fromParts id nodes edges = .ok w ↔
      w.id = id ∧ WorkflowGraph.new nodes edges = .ok w.graph := by
  obtain ⟨id', graph⟩ := w
  simp only [WorkflowDefinition.fromParts, Result.bind_eq_ok, pure, Except.pure, Except.ok.injEq,
    WorkflowDefinition.mk.injEq]
  constructor
  · rintro ⟨graph', hgraph, rfl, rfl⟩
    exact ⟨rfl, hgraph⟩
  · rintro ⟨rfl, hgraph⟩
    exact ⟨graph, hgraph, rfl, rfl⟩

lemma fromParts_eq_error {id : WorkflowId} {nodes : List NodeDefinition}
    {edges : List EdgeDefinition} {err : WorkflowValidationError} :
    WorkflowDefinition.fromParts id nodes edges = .error err ↔
      WorkflowGraph.new nodes edges = .error err := by
  simp only [WorkflowDefinition.fromParts, Result.bind_eq_error, pure, Except.pure, reduceCtorEq,
    and_false, exists_false, or_false]

lemma graph_of_new {nodes : List NodeDefinition} {edges : List EdgeDefinition} {graph : WorkflowGraph}
    (h : WorkflowGraph.new nodes edges = .ok graph) : graph.nodes = nodes ∧ graph.edges = edges := by
  unfold WorkflowGraph.new WorkflowGraph.build at h
  split at h
  · cases h
    exact ⟨rfl, rfl⟩
  · cases h

lemma nodes_eq_ok {nodes : List NodeDefinition} :
    (raw.nodes.zipIdx.mapM fun p => rawNodeToDefinition p.2 p.1) = .ok nodes ↔
      List.Forall₂ MirrorsNode raw.nodes nodes :=
  Result.mapM_zipIdx_eq_ok fun _ _ _ => rawNode_eq_ok

lemma edges_eq_ok {edges : List EdgeDefinition} :
    (raw.edges.zipIdx.mapM fun p => rawEdgeToDefinition p.2 p.1) = .ok edges ↔
      List.Forall₂ MirrorsEdge raw.edges edges :=
  Result.mapM_zipIdx_eq_ok fun _ _ _ => rawEdge_eq_ok

lemma nodes_eq_error {e : WorkflowFormatError} :
    (raw.nodes.zipIdx.mapM fun p => rawNodeToDefinition p.2 p.1) = .error e ↔
      ∃ (i : ℕ) (node : RawNodeDefinition), raw.nodes[i]? = some node ∧ NodeDefect i node e ∧
        ∀ j < i, ∀ other, raw.nodes[j]? = some other → ValidNode other := by
  simp only [Result.mapM_zipIdx_eq_error, rawNode_eq_ok, rawNode_eq_error, validNode_iff]

lemma edges_eq_error {e : WorkflowFormatError} :
    (raw.edges.zipIdx.mapM fun p => rawEdgeToDefinition p.2 p.1) = .error e ↔
      ∃ (i : ℕ) (edge : RawEdgeDefinition), raw.edges[i]? = some edge ∧ EdgeDefect i edge e ∧
        ∀ j < i, ∀ other, raw.edges[j]? = some other → ValidEdge other := by
  simp only [Result.mapM_zipIdx_eq_error, rawEdge_eq_ok, rawEdge_eq_error, validEdge_iff]

lemma forall_validNode_iff :
    (∀ node ∈ raw.nodes, ValidNode node) ↔ ∃ nodes, List.Forall₂ MirrorsNode raw.nodes nodes := by
  simp only [Result.exists_forall₂, validNode_iff]

lemma forall_validEdge_iff :
    (∀ edge ∈ raw.edges, ValidEdge edge) ↔ ∃ edges, List.Forall₂ MirrorsEdge raw.edges edges := by
  simp only [Result.exists_forall₂, validEdge_iff]

lemma toWorkflow_eq_ok {w : WorkflowDefinition} :
    raw.toWorkflow = .ok w ↔ raw.pureflowVersion = some "1" ∧ Mirrors raw w ∧
      WorkflowGraph.new w.nodes w.edges = .ok w.graph := by
  simp only [RawWorkflowDefinition.toWorkflow, Result.bind_eq_ok, Result.mapError_eq_ok,
    validateVersion_eq_ok, identifierAt_eq_ok, nodes_eq_ok, edges_eq_ok, fromParts_eq_ok]
  constructor
  · rintro ⟨-, hversion, id, hid, nodes, hnodes, edges, hedges, rfl, hgraph⟩
    obtain ⟨rfl, rfl⟩ := graph_of_new hgraph
    exact ⟨hversion, ⟨hid, hnodes, hedges⟩, hgraph⟩
  · rintro ⟨hversion, h, hgraph⟩
    exact ⟨(), hversion, w.id, h.id, w.nodes, h.nodes, w.edges, h.edges, rfl, hgraph⟩

/-- A document fails with the error of its first offending item. -/
lemma toWorkflow_eq_error {e : WorkflowFormatError} :
    raw.toWorkflow = .error e ↔ FirstDefect raw e := by
  simp only [RawWorkflowDefinition.toWorkflow, Result.bind_eq_error, Result.mapError_eq_error,
    validateVersion_eq_ok, validateVersion_eq_error, identifierAt_eq_ok, identifierAt_eq_error,
    nodes_eq_ok, nodes_eq_error, edges_eq_ok, edges_eq_error, fromParts_eq_error]
  constructor
  · rintro ((⟨hnone, rfl⟩ | ⟨v, hsome, hv, rfl⟩) | ⟨-, hversion, ⟨err, herr, rfl⟩ | ⟨id, hid,
      ⟨i, node, hnode, hdefect, hbefore⟩ | ⟨nodes, hnodes, ⟨i, edge, hedge, hdefect, hbefore⟩ |
      ⟨edges, hedges, err, herr, rfl⟩⟩⟩⟩)
    · exact .missingVersion hnone
    · exact .unsupportedVersion hsome hv
    · exact .id hversion herr
    · exact .node hversion (valid_iff.mpr ⟨id, hid⟩) hnode hdefect hbefore
    · exact .edge hversion (valid_iff.mpr ⟨id, hid⟩) (forall_validNode_iff.mpr ⟨nodes, hnodes⟩) hedge
        hdefect hbefore
    · exact .graph hversion (valid_iff.mpr ⟨id, hid⟩) hnodes hedges herr
  · intro h
    cases h with
    | missingVersion hnone => exact .inl (.inl ⟨hnone, rfl⟩)
    | unsupportedVersion hsome hv => exact .inl (.inr ⟨_, hsome, hv, rfl⟩)
    | id hversion herr => exact .inr ⟨(), hversion, .inl ⟨_, herr, rfl⟩⟩
    | node hversion hid hnode hdefect hbefore =>
      obtain ⟨id, hid⟩ := valid_iff.mp hid
      exact .inr ⟨(), hversion, .inr ⟨id, hid, .inl ⟨_, _, hnode, hdefect, hbefore⟩⟩⟩
    | edge hversion hid hnodes hedge hdefect hbefore =>
      obtain ⟨id, hid⟩ := valid_iff.mp hid
      obtain ⟨nodes, hnodes⟩ := forall_validNode_iff.mp hnodes
      exact .inr ⟨(), hversion, .inr ⟨id, hid, .inr ⟨nodes, hnodes,
        .inl ⟨_, _, hedge, hdefect, hbefore⟩⟩⟩⟩
    | graph hversion hid hnodes hedges herr =>
      obtain ⟨id, hid⟩ := valid_iff.mp hid
      exact .inr ⟨(), hversion, .inr ⟨id, hid, .inr ⟨_, hnodes, .inr ⟨_, hedges, _, herr, rfl⟩⟩⟩⟩

lemma exists_toWorkflow : (∃ w, raw.toWorkflow = .ok w) ↔ Convertible raw := by
  simp only [toWorkflow_eq_ok]
  constructor
  · rintro ⟨w, hversion, h, hgraph⟩
    refine ⟨hversion, valid_iff.mpr ⟨_, h.id⟩, forall_validNode_iff.mpr ⟨_, h.nodes⟩,
      forall_validEdge_iff.mpr ⟨_, h.edges⟩, fun nodes edges hnodes hedges => ⟨w.graph, ?_⟩⟩
    -- the lists that mirror a document are what its conversion returns
    obtain rfl := Except.ok.inj ((nodes_eq_ok.mpr hnodes).symm.trans (nodes_eq_ok.mpr h.nodes))
    obtain rfl := Except.ok.inj ((edges_eq_ok.mpr hedges).symm.trans (edges_eq_ok.mpr h.edges))
    exact hgraph
  · intro h
    obtain ⟨id, hid⟩ := valid_iff.mp h.id
    obtain ⟨nodes, hnodes⟩ := forall_validNode_iff.mp h.nodes
    obtain ⟨edges, hedges⟩ := forall_validEdge_iff.mp h.edges
    obtain ⟨graph, hgraph⟩ := h.graph nodes edges hnodes hedges
    obtain ⟨rfl, rfl⟩ := graph_of_new hgraph
    exact ⟨⟨id, graph⟩, h.version, ⟨hid, hnodes, hedges⟩, hgraph⟩

/-- **Conversion is exact.** The documents that convert are those with version 1 whose identifiers
are valid, whose capacities are not zero, and whose port lists and graph are accepted; a workflow
mirrors its document; and any other document gives the error of its first offending item. -/
theorem toWorkflow_exact (raw : RawWorkflowDefinition) :
    ((∃ w, raw.toWorkflow = .ok w) ↔ Convertible raw) ∧
    (∀ w, raw.toWorkflow = .ok w → Mirrors raw w) ∧
    ∀ e, raw.toWorkflow = .error e ↔ FirstDefect raw e :=
  ⟨exists_toWorkflow, fun _ h => (toWorkflow_eq_ok.mp h).2.1, fun _ => toWorkflow_eq_error⟩

end Workflows

end Pureflow.Format
