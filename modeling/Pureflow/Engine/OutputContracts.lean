import Pureflow.Contract.Validation
import Pureflow.Engine.Setup

/-!
The two validators of contracts agree: contracts that pass validation give every output port of
the workflow its contract, with the schema that was compared on the edges leaving the port, and a
run with them does not fail for lack of one.
-/

namespace Pureflow.Engine

open Std Pureflow.Types Pureflow.Core Pureflow.Lib Pureflow.Lib.Grouping Pureflow.Workflow
  Pureflow.Contract

section Collecting

variable {workflow : WorkflowDefinition} {node : NodeDefinition} {contract : NodeContract}
  {contractMap : ExtTreeMap NodeId NodeContract}

/-- The output ports of a node, with the schemas of its contract. -/
def outputSchemas (node : NodeDefinition) (contract : NodeContract) :
    ExtTreeMap PortId (Option SchemaRef) :=
  ofEntries (node.outputPorts.map fun portId => (portId, contract.schemaOf portId))

lemma outputSchemas_getElem? {portId : PortId} (h : portId ∈ node.outputPorts) :
    (outputSchemas node contract)[portId]? = some (contract.schemaOf portId) := by
  have hnd : node.outputPorts.Nodup := (List.nodup_append.mp (ports_nodup node)).2.1
  rw [outputSchemas, ofEntries_eq_some_iff]
  · exact List.mem_map.mpr ⟨portId, h, rfl⟩
  · simpa [Function.comp_def] using hnd

lemma mem_outputSchemas {portId : PortId} :
    portId ∈ outputSchemas node contract ↔ portId ∈ node.outputPorts := by
  rw [← ExtTreeMap.isSome_getElem?_iff_mem]
  constructor
  · intro h
    obtain ⟨schema, hschema⟩ := Option.isSome_iff_exists.mp h
    obtain ⟨other, hother, heq⟩ := List.mem_map.mp (mem_of_ofEntries hschema)
    cases heq
    exact hother
  · intro h
    rw [outputSchemas_getElem? h]
    rfl

lemma collectOutputs_ok {ports : List PortId} (h : ∀ portId ∈ ports, HasPort contract portId .output)
    (collected : ExtTreeMap PortId (Option SchemaRef)) :
    WorkflowOutputContracts.collectOutputs node contract ports collected =
      .ok ((ports.map fun portId => (portId, contract.schemaOf portId)).foldl
        (fun m entry => m.insert entry.1 entry.2) collected) := by
  induction ports generalizing collected with
  | nil => rfl
  | cons portId rest ih =>
    obtain ⟨port, hport, hid, hdirection⟩ := h portId List.mem_cons_self
    have hfind := find_port_eq_some.mpr ⟨hport, hid⟩
    have hschema : contract.schemaOf portId = port.schema := by
      rw [NodeContract.schemaOf, hfind]
      rfl
    rw [WorkflowOutputContracts.collectOutputs, hfind]
    simp only [hdirection, ne_eq, not_true_eq_false, if_false, List.map_cons, List.foldl_cons]
    rw [ih (fun other hother => h other (List.mem_cons_of_mem _ hother)), hschema]

lemma forNode_ok (hcontract : contractMap[node.id]? = some contract)
    (hmatches : MatchesNode node contract) :
    WorkflowOutputContracts.forNode contractMap node = .ok (outputSchemas node contract) := by
  have hcollect : WorkflowOutputContracts.collectOutputs node contract node.outputPorts ∅ =
      .ok (outputSchemas node contract) :=
    collectOutputs_ok (fun portId hportId => (hmatches portId .output).mpr hportId) ∅
  have hcheck : contract.ports.forM (WorkflowOutputContracts.checkOutput node) = .ok () := by
    rw [Result.forM_eq_ok]
    intro port hport
    have hdeclared := (hmatches port.portId port.direction).mp ⟨port, hport, rfl, rfl⟩
    unfold WorkflowOutputContracts.checkOutput
    rw [if_neg]
    rintro ⟨hdirection, hunknown⟩
    rw [hdirection] at hdeclared
    exact hunknown hdeclared
  rw [WorkflowOutputContracts.forNode, hcontract]
  change (WorkflowOutputContracts.collectOutputs node contract node.outputPorts ∅ >>= _) = _
  rw [hcollect]
  change (contract.ports.forM (WorkflowOutputContracts.checkOutput node) >>= _) = _
  rw [hcheck]
  rfl

lemma collectNodes_ok {nodes : List NodeDefinition}
    {outputsOf : NodeDefinition → ExtTreeMap PortId (Option SchemaRef)}
    (h : ∀ node ∈ nodes, WorkflowOutputContracts.forNode contractMap node = .ok (outputsOf node))
    (collected : ExtTreeMap NodeId (ExtTreeMap PortId (Option SchemaRef))) :
    WorkflowOutputContracts.collectNodes contractMap nodes collected =
      .ok ((nodes.map fun node => (node.id, outputsOf node)).foldl
        (fun m entry => m.insert entry.1 entry.2) collected) := by
  induction nodes generalizing collected with
  | nil => rfl
  | cons node rest ih =>
    rw [WorkflowOutputContracts.collectNodes, h node List.mem_cons_self]
    exact ih (fun other hother => h other (List.mem_cons_of_mem _ hother)) _

end Collecting

section Agreement

variable {workflow : WorkflowDefinition} {contracts : List NodeContract}
  {capabilities : List NodeCapabilities}

/-- The schema by which an edge is compared at one of its ends. -/
def edgeSchema (contractMap : ExtTreeMap NodeId NodeContract) (endpoint : EdgeEndpoint) :
    Option (Option SchemaRef) :=
  contractMap[endpoint.nodeId]?.map (·.schemaOf endpoint.portId)

/-- **What the check of an edge compares**: the schemas at its two ends. -/
lemma validateEdgeSchema_eq (contractMap : ExtTreeMap NodeId NodeContract) (edge : EdgeDefinition)
    (edgeIndex : ℕ) :
    validateEdgeSchema contractMap (edge, edgeIndex) =
      match edgeSchema contractMap edge.source, edgeSchema contractMap edge.target with
      | none, _ => .error (.unknownWorkflowNode edge.source.nodeId)
      | some _, none => .error (.unknownWorkflowNode edge.target.nodeId)
      | some (some sourceSchema), some (some targetSchema) =>
        if sourceSchema ≠ targetSchema then
          .error (.schemaMismatch edgeIndex edge.source.nodeId edge.source.portId
            edge.target.nodeId edge.target.portId)
        else .ok ()
      | some _, some _ => .ok () := by
  simp only [validateEdgeSchema, edgeSchema]
  cases contractMap[edge.source.nodeId]? with
  | none => simp
  | some source =>
    cases contractMap[edge.target.nodeId]? with
    | none => simp
    | some target =>
      simp only [Option.map_some]
      cases source.schemaOf edge.source.portId with
      | none => cases target.schemaOf edge.target.portId <;> rfl
      | some sourceSchema => cases target.schemaOf edge.target.portId <;> rfl

lemma fromNodeContracts_ok (h : Validated workflow contracts capabilities) :
    ∃ outputs, WorkflowOutputContracts.fromNodeContracts workflow contracts = .ok outputs ∧
      ∀ node ∈ workflow.nodes, ∃ contract,
        (index NodeContract.id contracts)[node.id]? = some contract ∧
        outputs.outputContractsFor node.id = some (outputSchemas node contract) := by
  let outputsOf (node : NodeDefinition) : ExtTreeMap PortId (Option SchemaRef) :=
    ((index NodeContract.id contracts)[node.id]?.map (outputSchemas node)).getD ∅
  have hnode : ∀ node ∈ workflow.nodes,
      WorkflowOutputContracts.forNode (index NodeContract.id contracts) node =
        .ok (outputsOf node) := by
    intro node hmem
    obtain ⟨contract, -, hcontract, -, hmatches, -⟩ := h.nodes node hmem
    rw [forNode_ok hcontract hmatches]
    simp only [outputsOf, hcontract, Option.map_some, Option.getD_some]
  have hknown : contracts.forM (WorkflowOutputContracts.checkNode workflow) = .ok () := by
    rw [Result.forM_eq_ok]
    intro contract hcontract
    obtain ⟨node, hmem, hid⟩ := h.known contract hcontract
    unfold WorkflowOutputContracts.checkNode
    rw [if_neg]
    intro hall
    exact absurd hid (by simpa using List.all_eq_true.mp hall node hmem)
  refine ⟨⟨ofEntries (workflow.nodes.map fun node => (node.id, outputsOf node))⟩, ?_,
    fun node hmem => ?_⟩
  · rw [WorkflowOutputContracts.fromNodeContracts, collectNodes_ok hnode]
    change (contracts.forM (WorkflowOutputContracts.checkNode workflow) >>= _) = _
    rw [hknown]
    rfl
  · obtain ⟨contract, -, hcontract, -⟩ := h.nodes node hmem
    refine ⟨contract, hcontract, ?_⟩
    have hnd := (graph_valid workflow).1
    rw [WorkflowOutputContracts.outputContractsFor, ofEntries_eq_some_iff]
    · exact List.mem_map.mpr ⟨node, hmem, by simp only [outputsOf, hcontract]; rfl⟩
    · rw [List.map_map]
      exact hnd

lemma schema_eq_of_validated (h : Validated workflow contracts capabilities) {edge : EdgeDefinition}
    (hedge : edge ∈ workflow.edges) {sourceSchema targetSchema : SchemaRef}
    (hsource : edgeSchema (index NodeContract.id contracts) edge.source = some (some sourceSchema))
    (htarget : edgeSchema (index NodeContract.id contracts) edge.target =
      some (some targetSchema)) :
    sourceSchema = targetSchema := by
  obtain ⟨i, hi⟩ := List.mem_iff_getElem?.mp hedge
  have hpassed := Result.forM_eq_ok.mp h.edges (edge, i) (List.mem_zipIdx_iff_getElem?.mpr hi)
  by_contra hne
  rw [validateEdgeSchema_eq, hsource, htarget] at hpassed
  simp only [ne_eq, hne, not_false_eq_true, if_true] at hpassed
  cases hpassed

/-- Every node has contracts for exactly its output ports, with the schemas by which the edges
leaving them are compared. -/
def OutputsAgree (workflow : WorkflowDefinition) (contracts : List NodeContract)
    (outputs : WorkflowOutputContracts) : Prop :=
  ∀ node ∈ workflow.nodes, ∃ stored, outputs.outputContractsFor node.id = some stored ∧
    (∀ portId, portId ∈ stored ↔ portId ∈ node.outputPorts) ∧
    ∀ portId ∈ node.outputPorts,
      stored[portId]? = edgeSchema (index NodeContract.id contracts) ⟨node.id, portId⟩

/-- **The two validators agree.** Contracts that pass validation give every output port its
contract, with the schema that was compared on the edges leaving the port, and the same one where
the other end of the edge declares one; and the setup of a run with them fails only where that of
a run without contracts does. -/
theorem validators_agree (workflow : WorkflowDefinition) (contracts : List NodeContract)
    (capabilities : List NodeCapabilities)
    (h : validateWorkflowContracts workflow contracts capabilities = .ok ()) :
    ∃ outputs, WorkflowOutputContracts.fromNodeContracts workflow contracts = .ok outputs ∧
      OutputsAgree workflow contracts outputs ∧
      (∀ edge ∈ workflow.edges, ∀ sourceSchema targetSchema,
        edgeSchema (index NodeContract.id contracts) edge.source = some (some sourceSchema) →
        edgeSchema (index NodeContract.id contracts) edge.target = some (some targetSchema) →
          sourceSchema = targetSchema) ∧
      ∀ (Executor : Type) (execution : ExecutionMetadata)
        (registry : NodeId → Except PureflowError Executor) (policy : WorkflowRunPolicy)
        (err : PureflowError),
        SetupFailure workflow execution registry policy (some outputs) err →
          validateWorkflowRunPolicy workflow policy = .error err ∨
            ∃ node ∈ workflow.nodes, registry node.id = .error err := by
  have hvalid := validateWorkflowContracts_ok.mp h
  obtain ⟨outputs, houtputs, hstored⟩ := fromNodeContracts_ok hvalid
  refine ⟨outputs, houtputs, fun node hmem => ?_,
    fun edge hedge _ _ => schema_eq_of_validated hvalid hedge, ?_⟩
  · obtain ⟨contract, hcontract, hnode⟩ := hstored node hmem
    refine ⟨_, hnode, fun portId => mem_outputSchemas, fun portId hportId => ?_⟩
    rw [outputSchemas_getElem? hportId, edgeSchema, hcontract]
    rfl
  · rintro Executor execution registry policy err (hpolicy | ⟨node, hmem, hexecutor | hcontracts⟩)
    · exact .inl hpolicy
    · exact .inr ⟨node, hmem, hexecutor⟩
    · -- its contracts are there
      obtain ⟨contract, -, hnode⟩ := hstored node hmem
      have herror := hcontracts (.fromHandles [] [])
      rw [withOutputContracts, hnode] at herror
      cases herror

lemma sender_valid :
    rejectDuplicatePorts ⟨"a", node_a_valid⟩ [] [⟨"out", port_out_valid⟩] = .ok () := by
  decide

lemma taker_valid :
    rejectDuplicatePorts ⟨"b", node_b_valid⟩ [⟨"in", port_in_valid⟩] [] = .ok () := by
  decide

/-- A node that sends orders to another. -/
def orderNodes : List NodeDefinition :=
  [⟨⟨"a", node_a_valid⟩, [], [⟨"out", port_out_valid⟩], sender_valid⟩,
    ⟨⟨"b", node_b_valid⟩, [⟨"in", port_in_valid⟩], [], taker_valid⟩]

def orderEdge : EdgeDefinition where
  source := ⟨⟨"a", node_a_valid⟩, ⟨"out", port_out_valid⟩⟩
  target := ⟨⟨"b", node_b_valid⟩, ⟨"in", port_in_valid⟩⟩
  capacity := .default

def orderWorkflow : WorkflowDefinition :=
  ⟨⟨"flow", workflow_flow_valid⟩, ⟨orderNodes, [orderEdge], by decide +kernel⟩⟩

def orderSchema : SchemaRef := ⟨"order.v1", by decide⟩

/-- The contracts of the two nodes, with the schema of orders at both ends of the edge. -/
def orderContracts : List NodeContract :=
  [⟨⟨"a", node_a_valid⟩, [⟨⟨"out", port_out_valid⟩, .output, some orderSchema⟩], .native,
      .deterministic, .safe, by decide⟩,
    ⟨⟨"b", node_b_valid⟩, [⟨⟨"in", port_in_valid⟩, .input, some orderSchema⟩], .native,
      .deterministic, .safe, by decide⟩]

def orderCapabilities : List NodeCapabilities :=
  [⟨⟨"a", node_a_valid⟩, [⟨⟨"out", port_out_valid⟩, .emit⟩], [], by decide +kernel⟩,
    ⟨⟨"b", node_b_valid⟩, [⟨⟨"in", port_in_valid⟩, .receive⟩], [], by decide +kernel⟩]

/-- The schema of orders is stored, and it is the one that was compared. -/
theorem validators_agree_sample : ∃ outputs,
    WorkflowOutputContracts.fromNodeContracts orderWorkflow orderContracts = .ok outputs ∧
      OutputsAgree orderWorkflow orderContracts outputs ∧
      ∃ stored, outputs.outputContractsFor orderEdge.source.nodeId = some stored ∧
        stored[orderEdge.source.portId]? = some (some orderSchema) := by
  have h : validateWorkflowContracts orderWorkflow orderContracts orderCapabilities = .ok () := by
    decide +kernel
  obtain ⟨outputs, houtputs, hagree, -⟩ := validators_agree _ _ _ h
  obtain ⟨stored, hstored, -, hschemas⟩ := hagree orderNodes[0] List.mem_cons_self
  refine ⟨outputs, houtputs, hagree, stored, hstored, ?_⟩
  have hschema : edgeSchema (index NodeContract.id orderContracts) orderEdge.source =
      some (some orderSchema) := by decide +kernel
  rw [← hschema]
  exact hschemas _ List.mem_cons_self

end Agreement

end Pureflow.Engine
