import Pureflow.Cli.Loading
import Pureflow.Introspection.Json
import Pureflow.Introspection.Rules

/-!
The commands that show a workflow: `validate`, `inspect` and `explain`.

None of them fails on a workflow that is loaded: the contracts and the descriptors that `inspect`
makes up for the nodes are valid ones, and introspection accepts them.
-/

namespace Pureflow.Cli

open Std Pureflow.Types Pureflow.Core Pureflow.Workflow Pureflow.Contract Pureflow.Rules
  Pureflow.Introspection Pureflow.Format Pureflow.Lib Pureflow.Lib.Grouping

section Passive

def passiveNativeContractForNode (node : NodeDefinition) : Except CommandError NodeContract :=
  (NodeContract.new node.id
    (node.inputPorts.map (⟨·, .input, none⟩) ++ node.outputPorts.map (⟨·, .output, none⟩))
    .native .unknown .unknown).mapError .contract

/-- A descriptor without effects. -/
def nativePassive (nodeId : NodeId) (ports : List PortCapability) :
    Except CapabilityValidationError NodeCapabilities :=
  NodeCapabilities.new nodeId ports []

def passiveNativeCapabilitiesForNode (node : NodeDefinition) :
    Except CommandError NodeCapabilities :=
  (nativePassive node.id
    (node.inputPorts.map (⟨·, .receive⟩) ++ node.outputPorts.map (⟨·, .emit⟩))).mapError .capability

def passiveNativeContractsForWorkflow (workflow : WorkflowDefinition) :
    Except CommandError (List NodeContract × List NodeCapabilities) := do
  let contracts ← workflow.nodes.mapM passiveNativeContractForNode
  let capabilities ← workflow.nodes.mapM passiveNativeCapabilitiesForNode
  return (contracts, capabilities)

end Passive

section Explanation

def strategyLabel : EvaluationStrategy → String
  | .firstMatch => "first-match"
  | .allMatches => "all-matches"
  | .score => "score"

/-- The packet surfaces a condition draws from. -/
def surfaceLabel (surfaces : ConditionSurfaceSummary) : String :=
  let parts := (if surfaces.payload then ["payload"] else []) ++
    (if surfaces.tag then ["tag"] else []) ++
    (if surfaces.provenance then ["provenance"] else []) ++
    (if surfaces.executionContext then ["execution"] else [])
  "+".intercalate (if parts.isEmpty then ["constant"] else parts)

def unreachableReasonLabel : UnreachableReason → String
  | .conditionIsNever => "condition is never true"
  | .shadowedByAlways shadowingRuleId => s!"shadowed by always-matching rule `{shadowingRuleId}`"
  | .exactFieldEqSubsumed shadowingRuleId =>
    s!"duplicate condition already covered by rule `{shadowingRuleId}`"

mutual

/-- A condition as an expression in plain English. -/
def formatCondition : Condition → String
  | .fieldEq path value => s!"{path} == {value}"
  | .fieldNeq path value => s!"{path} != {value}"
  | .fieldGt path value => s!"{path} > {value}"
  | .fieldLt path value => s!"{path} < {value}"
  | .fieldGte path value => s!"{path} >= {value}"
  | .fieldLte path value => s!"{path} <= {value}"
  | .fieldIn path values => s!"{path} in [" ++ ", ".intercalate (values.map toString) ++ "]"
  | .fieldExists path => s!"{path} exists"
  | .fieldAbsent path => s!"{path} absent"
  | .fieldMatches path pattern => s!"{path} matches {pattern}"
  | .tagEq key value => s!"tag {key}={value}"
  | .tagExists key => s!"tag {key} exists"
  | .tagAbsent key => s!"tag {key} absent"
  | .sourceNode nodeId => s!"from source node {nodeId}"
  | .arrivedOnPort portId => s!"arrived on port {portId}"
  | .hopCountGt n => s!"hop count > {n}"
  | .hopCountLte n => s!"hop count <= {n}"
  | .workflowIs workflowId => s!"workflow is {workflowId}"
  | .executionMetadataEq key value => s!"exec metadata {key}={value}"
  | .and children => "(" ++ " and ".intercalate (formatConditions children) ++ ")"
  | .or children => "(" ++ " or ".intercalate (formatConditions children) ++ ")"
  | .not inner => s!"not ({formatCondition inner})"
  | .always => "always"
  | .never => "never"

def formatConditions : List Condition → List String
  | [] => []
  | condition :: rest => formatCondition condition :: formatConditions rest

end

def explainRule (rule : Rule) (view : RuleIntrospection) : String :=
  s!"    rule {rule.id} (priority {rule.priority}) — if {formatCondition rule.condition} " ++
    s!"[{surfaceLabel view.conditionSurfaces}] → {rule.action}\n"

def explainUnreachable (unreachable : UnreachableRule) : String :=
  s!"    ! unreachable: rule {unreachable.ruleId} — {unreachableReasonLabel unreachable.reason}\n"

/-- The routing of one node in plain text. -/
def explainRuleSet (nodeId : NodeId) (ruleSet : RuleSet) : String :=
  let introspection := introspectRuleSet ruleSet
  s!"  node {nodeId}: rule set `{ruleSet.id}` strategy {strategyLabel ruleSet.strategy}\n" ++
    String.join ((ruleSet.rules.zip introspection.rules).map fun (rule, view) =>
      explainRule rule view) ++
    s!"    default → {ruleSet.defaultAction}\n" ++
    String.join (introspection.unreachableRules.map explainUnreachable)

def explainNode (node : NodeDefinition) : String :=
  s!"  - {node.id} inputs={node.inputPorts.length} outputs={node.outputPorts.length}\n"

def explainEdge (edge : EdgeDefinition) : String :=
  let capacity := match edge.capacity with
    | .default => "default"
    | .explicit capacity => toString (capacity : ℕ)
  s!"  - {edge.source.nodeId}.{edge.source.portId} -> {edge.target.nodeId}.{edge.target.portId} " ++
    s!"capacity={capacity}\n"

def explanation (loaded : LoadedWorkflow) : String :=
  let workflow := loaded.workflow
  s!"workflow `{workflow.id}`\nstatus: valid\nnodes: {workflow.nodes.length}\n" ++
    s!"edges: {workflow.edges.length}\nexecution: native-registry\n" ++
    "metadata: jsonl lifecycle, message, and queue-pressure records with tiered control-only " ++
    "policy\nnode order:\n" ++ String.join (workflow.nodes.map explainNode) ++
    "edges:\n" ++ String.join (workflow.edges.map explainEdge) ++
    if loaded.ruleSets.isEmpty then "rule routing: none\n"
    else "rule routing:\n" ++ String.join (loaded.ruleSets.toList.map fun (nodeId, ruleSet) =>
      explainRuleSet nodeId ruleSet)

end Explanation

section Commands

variable (json : JsonLibrary) (paths : Paths) (formats : FormatLibraries)

def validateWorkflowJson (input path : String) : Except CommandError String := do
  let workflow ← loadWorkflow json paths formats input path
  return s!"valid workflow `{workflow.id}`\nnodes: {workflow.nodes.length}\n" ++
    s!"edges: {workflow.edges.length}\n"

/-- Render a view as pretty JSON. -/
def workflowIntrospectionToJsonString (introspection : WorkflowIntrospection) :
    Except String String :=
  json.toStringPretty (workflowIntrospectionToJsonValue introspection)

def inspectWorkflowJson (input path : String) : Except CommandError String := do
  let workflow ← loadWorkflow json paths formats input path
  let (contracts, capabilities) ← passiveNativeContractsForWorkflow workflow
  let introspection ← (introspectWorkflow workflow contracts capabilities).mapError .contract
  let output ← (workflowIntrospectionToJsonString json introspection).mapError .introspectionJson
  return output ++ "\n"

def explainWorkflowJson (host : Host) (input path : String) : Except CommandError String := do
  let loaded ← loadWorkflowWithRules json paths formats host input path
  return explanation loaded

end Commands

section Descriptors

/-- The contract that is made up for a node. -/
structure PassiveContract (node : NodeDefinition) (contract : NodeContract) : Prop where
  id : contract.id = node.id
  mode : contract.executionMode = .native
  schemas : ∀ port ∈ contract.ports, port.schema = none
  ports : MatchesNode node contract

/-- The descriptor that is made up for a node. -/
structure PassiveCapabilities (node : NodeDefinition) (capability : NodeCapabilities) : Prop where
  id : capability.nodeId = node.id
  declared : ∀ port ∈ capability.ports, Declares node port.portId port.direction
  claims : ∀ port ∈ declaredPorts node, Claims capability port.1

variable (node : NodeDefinition)

lemma passiveContract_spec : ∃ contract, passiveNativeContractForNode node = .ok contract ∧
    PassiveContract node contract := by
  have hports : ((node.inputPorts.map fun portId => PortContract.mk portId .input none) ++
      node.outputPorts.map fun portId => PortContract.mk portId .output none).map
        PortContract.portId = node.inputPorts ++ node.outputPorts := by
    simp [Function.comp_def]
  have hvalid : Contract.rejectDuplicatePorts node.id
      ((node.inputPorts.map fun portId => PortContract.mk portId .input none) ++
        node.outputPorts.map fun portId => PortContract.mk portId .output none) = .ok () := by
    refine (Contract.rejectDuplicatePorts_go ∅).mpr (fresh_empty.mpr ?_)
    rw [hports]
    exact ports_nodup node
  refine ⟨⟨node.id, _, .native, .unknown, .unknown, hvalid⟩, ?_, rfl, rfl, ?_, ?_⟩
  · rw [passiveNativeContractForNode, NodeContract.new]
    split
    · rfl
    · next err herr => cases hvalid.symm.trans herr
  · simp only [List.mem_append, List.mem_map]
    rintro port (⟨portId, -, rfl⟩ | ⟨portId, -, rfl⟩)
    · rfl
    · rfl
  · intro portId direction
    constructor
    · rintro ⟨port, hport, rfl, rfl⟩
      rcases List.mem_append.mp hport with hinput | houtput
      · obtain ⟨portId, hportId, rfl⟩ := List.mem_map.mp hinput
        exact hportId
      · obtain ⟨portId, hportId, rfl⟩ := List.mem_map.mp houtput
        exact hportId
    · intro hdeclared
      cases direction with
      | input => exact ⟨_, List.mem_append_left _ (List.mem_map_of_mem hdeclared), rfl, rfl⟩
      | output => exact ⟨_, List.mem_append_right _ (List.mem_map_of_mem hdeclared), rfl, rfl⟩

lemma rejectInvalid_receive {nodeId : NodeId} {inputs : List PortId} {rest : List PortCapability}
    {receives emits : ExtTreeSet PortId} (hfresh : Fresh receives inputs) :
    ∃ receives', rejectInvalidPortCapabilities.go nodeId
        (inputs.map (⟨·, .receive⟩) ++ rest) receives emits =
      rejectInvalidPortCapabilities.go nodeId rest receives' emits ∧
      ∀ portId, portId ∈ receives' ↔ portId ∈ receives ∨ portId ∈ inputs := by
  induction inputs generalizing receives with
  | nil => exact ⟨receives, rfl, by simp⟩
  | cons portId inputs ih =>
    obtain ⟨hnew, hrest⟩ := fresh_cons.mp hfresh
    obtain ⟨receives', hgo, hmem⟩ := ih hrest
    refine ⟨receives', ?_, fun other => ?_⟩
    · rw [List.map_cons, List.cons_append, rejectInvalidPortCapabilities.go, if_neg hnew, hgo]
    · rw [hmem, ExtTreeSet.mem_insert, Std.compare_eq_iff_eq, List.mem_cons]
      tauto

lemma rejectInvalid_emit {nodeId : NodeId} {outputs : List PortId}
    {receives emits : ExtTreeSet PortId} (hfresh : Fresh emits outputs) :
    ∃ emits', rejectInvalidPortCapabilities.go nodeId (outputs.map (⟨·, .emit⟩)) receives emits =
        .ok (receives, emits') ∧
      ∀ portId, portId ∈ emits' ↔ portId ∈ emits ∨ portId ∈ outputs := by
  induction outputs generalizing emits with
  | nil => exact ⟨emits, rfl, by simp⟩
  | cons portId outputs ih =>
    obtain ⟨hnew, hrest⟩ := fresh_cons.mp hfresh
    obtain ⟨emits', hgo, hmem⟩ := ih hrest
    refine ⟨emits', ?_, fun other => ?_⟩
    · rw [List.map_cons, rejectInvalidPortCapabilities.go, if_neg hnew, hgo]
    · rw [hmem, ExtTreeSet.mem_insert, Std.compare_eq_iff_eq, List.mem_cons]
      tauto

lemma passiveClaims_valid : checkCapabilities node.id
    (node.inputPorts.map (⟨·, .receive⟩) ++ node.outputPorts.map (⟨·, .emit⟩)) [] = .ok () := by
  have hnodup := ports_nodup node
  have hinputs : Fresh (∅ : ExtTreeSet PortId) node.inputPorts := fresh_empty.mpr hnodup.of_append_left
  have houtputs : Fresh (∅ : ExtTreeSet PortId) node.outputPorts :=
    fresh_empty.mpr hnodup.of_append_right
  obtain ⟨receives, hreceives, hmem⟩ := rejectInvalid_receive hinputs
  obtain ⟨emits, hemits, hmem'⟩ := rejectInvalid_emit houtputs
  have hclash : receives.toList.find? (· ∈ emits) = none := by
    rw [List.find?_eq_none]
    intro portId hportId
    rw [ExtTreeSet.mem_toList, hmem] at hportId
    rw [decide_eq_true_iff, hmem']
    have hinput : portId ∈ node.inputPorts := by simpa using hportId
    rintro (hempty | houtput)
    · simp at hempty
    · exact List.disjoint_of_nodup_append hnodup hinput houtput
  have hports : rejectInvalidPortCapabilities node.id
      (node.inputPorts.map (⟨·, .receive⟩) ++ node.outputPorts.map (⟨·, .emit⟩)) = .ok () := by
    rw [rejectInvalidPortCapabilities, Result.bind_eq_ok]
    exact ⟨(receives, emits), hreceives.trans hemits, by simp only [hclash]⟩
  exact hports

lemma passiveCapabilities_spec : ∃ capability,
    passiveNativeCapabilitiesForNode node = .ok capability ∧ PassiveCapabilities node capability := by
  refine ⟨⟨node.id, _, [], passiveClaims_valid node⟩, ?_, rfl, ?_, ?_⟩
  · rw [passiveNativeCapabilitiesForNode, nativePassive, NodeCapabilities.new]
    split
    · rfl
    · next err herr => cases (passiveClaims_valid node).symm.trans herr
  · simp only [List.mem_append, List.mem_map]
    rintro port (⟨portId, hportId, rfl⟩ | ⟨portId, hportId, rfl⟩)
    · exact hportId
    · exact hportId
  · simp only [declaredPorts, List.mem_append, List.mem_map]
    rintro port (⟨portId, hportId, rfl⟩ | ⟨portId, hportId, rfl⟩)
    · exact ⟨⟨portId, .receive⟩, by simp [hportId], rfl⟩
    · exact ⟨⟨portId, .emit⟩, by simp [hportId], rfl⟩

end Descriptors

section Inspection

variable {workflow : WorkflowDefinition} {contracts : List NodeContract}
  {capabilities : List NodeCapabilities}

/-- Every node has the contract and the descriptor that are made up for it. -/
structure Described (workflow : WorkflowDefinition) (contracts : List NodeContract)
    (capabilities : List NodeCapabilities) : Prop where
  contracts : List.Forall₂ PassiveContract workflow.nodes contracts
  capabilities : List.Forall₂ PassiveCapabilities workflow.nodes capabilities

lemma passive_described (workflow : WorkflowDefinition) : ∃ contracts capabilities,
    passiveNativeContractsForWorkflow workflow = .ok (contracts, capabilities) ∧
      Described workflow contracts capabilities := by
  obtain ⟨contracts, hcontracts⟩ := Result.exists_forall₂.mpr fun node (_ : node ∈ workflow.nodes) =>
    passiveContract_spec node
  obtain ⟨capabilities, hcapabilities⟩ :=
    Result.exists_forall₂.mpr fun node (_ : node ∈ workflow.nodes) => passiveCapabilities_spec node
  have hmap : workflow.nodes.mapM passiveNativeContractForNode = .ok contracts :=
    Result.mapM_eq_ok.mpr (hcontracts.imp fun _ _ h => h.1)
  have hmap' : workflow.nodes.mapM passiveNativeCapabilitiesForNode = .ok capabilities :=
    Result.mapM_eq_ok.mpr (hcapabilities.imp fun _ _ h => h.1)
  refine ⟨contracts, capabilities, ?_, hcontracts.imp fun _ _ h => h.2,
    hcapabilities.imp fun _ _ h => h.2⟩
  rw [passiveNativeContractsForWorkflow, hmap, hmap']
  rfl

namespace Described

variable (h : Described workflow contracts capabilities)

include h

lemma contract_ids : contracts.map NodeContract.id = nodeIds workflow.nodes := by
  rw [nodeIds, ← List.forall₂_eq_eq_eq, List.forall₂_map_left_iff, List.forall₂_map_right_iff]
  exact h.contracts.flip.imp fun _ _ hcontract => hcontract.id

lemma capability_ids : capabilities.map NodeCapabilities.nodeId = nodeIds workflow.nodes := by
  rw [nodeIds, ← List.forall₂_eq_eq_eq, List.forall₂_map_left_iff, List.forall₂_map_right_iff]
  exact h.capabilities.flip.imp fun _ _ hcapability => hcapability.id

lemma contract_found {node : NodeDefinition} (hnode : node ∈ workflow.nodes) : ∃ contract,
    (index NodeContract.id contracts)[node.id]? = some contract ∧ PassiveContract node contract := by
  obtain ⟨contract, hmem, hcontract⟩ := Result.exists_mem_left h.contracts.flip hnode
  refine ⟨contract, (index_eq_some_iff ?_).mpr ⟨hmem, hcontract.id⟩, hcontract⟩
  rw [h.contract_ids]
  exact (graph_valid workflow).1

lemma capability_found {node : NodeDefinition} (hnode : node ∈ workflow.nodes) : ∃ capability,
    (index NodeCapabilities.nodeId capabilities)[node.id]? = some capability ∧
      PassiveCapabilities node capability := by
  obtain ⟨capability, hmem, hcapability⟩ := Result.exists_mem_left h.capabilities.flip hnode
  refine ⟨capability, (index_eq_some_iff ?_).mpr ⟨hmem, hcapability.id⟩, hcapability⟩
  rw [h.capability_ids]
  exact (graph_valid workflow).1

lemma unschemed {node : NodeDefinition} (hnode : node ∈ workflow.nodes) (portId : PortId) :
    ∃ contract, (index NodeContract.id contracts)[node.id]? = some contract ∧
      contract.schemaOf portId = none := by
  obtain ⟨contract, hfound, hcontract⟩ := h.contract_found hnode
  refine ⟨contract, hfound, ?_⟩
  rw [NodeContract.schemaOf, Option.bind_eq_none_iff]
  exact fun port hport => hcontract.schemas port (List.mem_of_find?_eq_some hport)

lemma edges_compatible :
    validateEdgeSchemaCompatibility workflow (index NodeContract.id contracts) = .ok () := by
  rw [validateEdgeSchemaCompatibility, Result.forM_eq_ok]
  rintro ⟨edge, edgeIndex⟩ hedge
  have hmem : edge ∈ workflow.edges := by
    have hfst := List.mem_map_of_mem (f := Prod.fst) hedge
    rwa [List.zipIdx_map_fst] at hfst
  obtain ⟨⟨source, hsource, hsourceId, -⟩, target, htarget, htargetId, -⟩ :=
    (graph_valid workflow).2 edge hmem
  obtain ⟨sourceContract, hsourceFound, hsourceSchema⟩ := h.unschemed hsource edge.source.portId
  obtain ⟨targetContract, htargetFound, -⟩ := h.unschemed htarget edge.target.portId
  rw [hsourceId] at hsourceFound
  rw [htargetId] at htargetFound
  simp only [validateEdgeSchema, hsourceFound, htargetFound, hsourceSchema]

lemma validated : validateWorkflowContracts workflow contracts capabilities = .ok () := by
  refine validateWorkflowContracts_ok.mpr ⟨?_, ?_, ?_, h.edges_compatible⟩
  · intro capability hcapability
    obtain ⟨node, hnode, hpassive⟩ := Result.exists_mem_left h.capabilities hcapability
    exact ⟨node, hnode, hpassive.id.symm, hpassive.declared⟩
  · intro node hnode
    obtain ⟨contract, hcontract, hpassive⟩ := h.contract_found hnode
    obtain ⟨capability, hcapability, -⟩ := h.capability_found hnode
    exact ⟨contract, capability, hcontract, hcapability, hpassive.ports,
      fun hmode => absurd hpassive.mode hmode⟩
  · intro contract hcontract
    obtain ⟨node, hnode, hpassive⟩ := Result.exists_mem_left h.contracts hcontract
    exact ⟨node, hnode, hpassive.id.symm⟩

lemma exists_view : ∃ view, introspectWorkflow workflow contracts capabilities = .ok view := by
  refine (exists_view_iff h.validated).mpr fun node hnode capability hcapability => ?_
  obtain ⟨other, hother, hpassive⟩ := h.capability_found hnode
  cases hcapability.symm.trans hother
  exact hpassive.claims

end Described

end Inspection

section Results

variable {json : JsonLibrary} {paths : Paths} {formats : FormatLibraries}
  {input path : String} {workflow : WorkflowDefinition}

lemma inspect_of_loaded (h : loadWorkflow json paths formats input path = .ok workflow) :
    ∃ view, Lists workflow view ∧ inspectWorkflowJson json paths formats input path =
      ((workflowIntrospectionToJsonString json view).mapError .introspectionJson).map
        (· ++ "\n") := by
  obtain ⟨contracts, capabilities, hpassive, hdescribed⟩ := passive_described workflow
  obtain ⟨view, hview⟩ := hdescribed.exists_view
  refine ⟨view, lists_of_ok hview, ?_⟩
  rw [inspectWorkflowJson, h]
  calc (passiveNativeContractsForWorkflow workflow >>= fun made =>
        (introspectWorkflow workflow made.1 made.2).mapError .contract >>= fun introspection =>
          (workflowIntrospectionToJsonString json introspection).mapError .introspectionJson >>=
            fun output => pure (output ++ "\n"))
      = (introspectWorkflow workflow contracts capabilities).mapError .contract >>=
          fun introspection =>
            (workflowIntrospectionToJsonString json introspection).mapError .introspectionJson >>=
              fun output => pure (output ++ "\n") := by rw [hpassive]; rfl
    _ = (workflowIntrospectionToJsonString json view).mapError .introspectionJson >>=
          fun output => pure (output ++ "\n") := by rw [hview]; rfl
    _ = ((workflowIntrospectionToJsonString json view).mapError .introspectionJson).map
          (· ++ "\n") := rfl

lemma shown_of_ok {text : String} (h : inspectWorkflowJson json paths formats input path = .ok text) :
    ∃ workflow, loadWorkflow json paths formats input path = .ok workflow ∧
      ∃ view output, Lists workflow view ∧
        workflowIntrospectionToJsonString json view = .ok output ∧ text = output ++ "\n" := by
  cases hload : loadWorkflow json paths formats input path with
  | error err =>
    rw [inspectWorkflowJson, hload] at h
    cases h
  | ok workflow =>
    obtain ⟨view, hlists, hinspect⟩ := inspect_of_loaded hload
    rw [hinspect] at h
    simp only [Result.map_eq_ok, Result.mapError_eq_ok] at h
    obtain ⟨output, houtput, rfl⟩ := h
    exact ⟨workflow, rfl, view, output, hlists, houtput, rfl⟩

/-- **The commands load alike.** What is not loaded is an error of each of them. What is loaded is
validated and inspected, where only the encoder can fail, and the view that is shown lists it; and
it is explained with the rule sets of its nodes if all of them are resolved, and otherwise the
error is that of the first node whose rule set is not. -/
theorem commands_agree (json : JsonLibrary) (paths : Paths) (formats : FormatLibraries)
    (host : Host) (input path : String) :
    (∀ err, loadWorkflow json paths formats input path = .error err →
      validateWorkflowJson json paths formats input path = .error err ∧
      inspectWorkflowJson json paths formats input path = .error err ∧
      ∃ other, explainWorkflowJson json paths formats host input path = .error other) ∧
    ∀ workflow, loadWorkflow json paths formats input path = .ok workflow →
      (∃ text, validateWorkflowJson json paths formats input path = .ok text) ∧
      (∃ view, Lists workflow view ∧ inspectWorkflowJson json paths formats input path =
        ((workflowIntrospectionToJsonString json view).mapError .introspectionJson).map
          (· ++ "\n")) ∧
      ∃ raw, rawWorkflow json paths formats input path = .ok raw ∧
        ((∀ i node, raw.nodes[i]? = some node →
            Resolves host (withBaseDir (baseDir paths path)) i node) →
          ∃ ruleSets, RuleSetsOf host (withBaseDir (baseDir paths path)) raw ruleSets ∧
            explainWorkflowJson json paths formats host input path =
              .ok (explanation ⟨workflow, ruleSets⟩)) ∧
        ((¬ ∀ i node, raw.nodes[i]? = some node →
            Resolves host (withBaseDir (baseDir paths path)) i node) →
          ∃ nodeIndex source,
            FirstUnresolved host (withBaseDir (baseDir paths path)) raw nodeIndex source) ∧
        ∀ nodeIndex source,
          FirstUnresolved host (withBaseDir (baseDir paths path)) raw nodeIndex source →
          explainWorkflowJson json paths formats host input path =
            .error (.workflowFormat (toString (WorkflowFormatError.ruleSet nodeIndex source))) := by
  constructor
  · intro err h
    obtain ⟨other, hother⟩ := loadWorkflowWithRules_of_error host h
    refine ⟨?_, ?_, other, ?_⟩
    · rw [validateWorkflowJson, h]
      rfl
    · rw [inspectWorkflowJson, h]
      rfl
    · rw [explainWorkflowJson, hother]
      rfl
  · intro workflow h
    obtain ⟨raw, hraw, hworkflow⟩ := loadWorkflow_ok.mp h
    refine ⟨?_, inspect_of_loaded h, raw, hraw, ?_⟩
    · rw [validateWorkflowJson, h]
      exact ⟨_, rfl⟩
    rcases loadWorkflowWithRules_cases host hraw hworkflow with
      ⟨ruleSets, hof, hloaded⟩ | ⟨nodeIndex, source, hfirst, hfailed⟩
    · have hall (i : ℕ) (node : RawNodeDefinition) (hnode : raw.nodes[i]? = some node) :=
        hof.resolves hnode
      refine ⟨fun _ => ⟨ruleSets, hof, ?_⟩, fun hnot => absurd hall hnot,
        fun nodeIndex source hfirst => absurd hall hfirst.not_resolves⟩
      rw [explainWorkflowJson, hloaded]
      rfl
    · refine ⟨fun hall => absurd hall hfirst.not_resolves, fun _ => ⟨nodeIndex, source, hfirst⟩,
        fun nodeIndex' source' hfirst' => ?_⟩
      obtain ⟨rfl, rfl⟩ := hfirst.unique hfirst'
      rw [explainWorkflowJson, hfailed]
      rfl

lemma loaded_inWords (h : loadWorkflow json paths formats input path = .ok workflow) :
    ∀ edge ∈ workflow.edges, CapacityInWord edge.capacity := by
  obtain ⟨raw, -, hworkflow⟩ := loadWorkflow_ok.mp h
  intro edge hedge
  obtain ⟨rawEdge, -, hmirrors⟩ :=
    Result.exists_mem_left (toWorkflow_eq_ok.mp hworkflow).2.1.edges hedge
  have hcapacity := hmirrors.capacity
  cases hraw : rawEdge.capacity with
  | none =>
    rw [hraw, MirrorsCapacity] at hcapacity
    rw [hcapacity]
    trivial
  | some n =>
    rw [hraw, MirrorsCapacity] at hcapacity
    obtain ⟨k, hk, hexplicit⟩ := hcapacity
    rw [hexplicit, CapacityInWord, hk]
    exact n.toNat_lt

/-- What is printed for a view is read back as its JSON. -/
def ReadsViews (json : JsonLibrary) : Prop := ∀ view text,
  workflowIntrospectionToJsonString json view = .ok text →
    json.fromStr text = .ok (workflowIntrospectionToJsonValue view)

/-- **Inspection tells workflows apart**: files for which the same text is shown load as the same
workflow. -/
theorem inspect_tells_apart (json : JsonLibrary) (paths : Paths) (formats : FormatLibraries)
    (hreads : ReadsViews json) {input path input' path' text : String}
    (h : inspectWorkflowJson json paths formats input path = .ok text)
    (h' : inspectWorkflowJson json paths formats input' path' = .ok text) :
    ∃ workflow, loadWorkflow json paths formats input path = .ok workflow ∧
      loadWorkflow json paths formats input' path' = .ok workflow := by
  obtain ⟨workflow, hload, view, output, hlists, hshown, rfl⟩ := shown_of_ok h
  obtain ⟨workflow', hload', view', output', hlists', hshown', htext⟩ := shown_of_ok h'
  obtain rfl : output = output' := by
    simpa using htext
  have hjson : workflowIntrospectionToJsonValue view = workflowIntrospectionToJsonValue view' :=
    Except.ok.inj ((hreads view output hshown).symm.trans (hreads view' output hshown'))
  obtain rfl : view = view' := workflowIntrospectionToJsonValue_inj
    (hlists.inWords (loaded_inWords hload)) (hlists'.inWords (loaded_inWords hload')) hjson
  obtain rfl : workflow = workflow' := hlists.unique hlists'
  exact ⟨workflow, hload, hload'⟩

/-- The document of a workflow of two nodes and an edge, with its first entries in some order. -/
def linkedDocument (entries : List (String × Json.Value)) : Json.Value := .object (entries ++ [
  ("nodes", .array [
    .object [("id", .string "a"), ("inputs", .array []), ("outputs", .array [.string "out"])],
    .object [("id", .string "b"), ("inputs", .array [.string "in"]), ("outputs", .array [])]]),
  ("edges", .array [.object [
    ("source", .object [("node", .string "a"), ("port", .string "out")]),
    ("target", .object [("node", .string "b"), ("port", .string "in")]),
    ("capacity", .number (.posInt 4))]])])

/-- The text of that document, with the text of these entries. -/
def linkedText (entries : String) : String :=
  "\x7b" ++ entries ++ ",\"nodes\":[\x7b\"id\":\"a\",\"inputs\":[],\"outputs\":[\"out\"]\x7d," ++
  "\x7b\"id\":\"b\",\"inputs\":[\"in\"],\"outputs\":[]\x7d]," ++
  "\"edges\":[\x7b\"source\":\x7b\"node\":\"a\",\"port\":\"out\"\x7d," ++
  "\"target\":\x7b\"node\":\"b\",\"port\":\"in\"\x7d,\"capacity\":4\x7d]\x7d"

def firstText : String := linkedText "\"id\":\"flow\",\"pureflow_version\":\"1\""

def secondText : String := linkedText "\"pureflow_version\":\"1\",\"id\":\"flow\""

/-- What is shown of one end of the edge. -/
def linkedNode (nodeId capability direction portId : String) : Json.Value := .object [
  ("determinism", .string "unknown"), ("effects", .array []), ("enforcement", .string "advisory"),
  ("execution_mode", .string "native"), ("node_id", .string nodeId),
  ("ports", .array [.object [("capability", .string capability), ("direction", .string direction),
    ("port_id", .string portId), ("schema", .null)]]),
  ("retry", .string "unknown")]

def linkedView : Json.Value := .object [
  ("edges", .array [.object [
    ("capacity", .object [("kind", .string "explicit"), ("value", .number (.posInt 4))]),
    ("source", .object [("node_id", .string "a"), ("port_id", .string "out")]),
    ("source_schema", .null),
    ("target", .object [("node_id", .string "b"), ("port_id", .string "in")]),
    ("target_schema", .null)]]),
  ("nodes", .array [linkedNode "a" "emit" "output" "out", linkedNode "b" "receive" "input" "in"]),
  ("workflow_id", .string "flow")]

def linkedViewText : String :=
  "\x7b\n  \"edges\": [\n    \x7b\n      \"capacity\": \x7b\n" ++
  "        \"kind\": \"explicit\",\n        \"value\": 4\n      \x7d,\n" ++
  "      \"source\": \x7b\n        \"node_id\": \"a\",\n        \"port_id\": \"out\"\n" ++
  "      \x7d,\n      \"source_schema\": null,\n      \"target\": \x7b\n" ++
  "        \"node_id\": \"b\",\n        \"port_id\": \"in\"\n      \x7d,\n" ++
  "      \"target_schema\": null\n    \x7d\n  ],\n  \"nodes\": [\n    \x7b\n" ++
  "      \"determinism\": \"unknown\",\n      \"effects\": [],\n" ++
  "      \"enforcement\": \"advisory\",\n      \"execution_mode\": \"native\",\n" ++
  "      \"node_id\": \"a\",\n      \"ports\": [\n        \x7b\n" ++
  "          \"capability\": \"emit\",\n          \"direction\": \"output\",\n" ++
  "          \"port_id\": \"out\",\n          \"schema\": null\n        \x7d\n      ],\n" ++
  "      \"retry\": \"unknown\"\n    \x7d,\n    \x7b\n" ++
  "      \"determinism\": \"unknown\",\n      \"effects\": [],\n" ++
  "      \"enforcement\": \"advisory\",\n      \"execution_mode\": \"native\",\n" ++
  "      \"node_id\": \"b\",\n      \"ports\": [\n        \x7b\n" ++
  "          \"capability\": \"receive\",\n          \"direction\": \"input\",\n" ++
  "          \"port_id\": \"in\",\n          \"schema\": null\n        \x7d\n      ],\n" ++
  "      \"retry\": \"unknown\"\n    \x7d\n  ],\n  \"workflow_id\": \"flow\"\n\x7d"

/-- What the JSON library does with the two documents and the view. -/
def linkedJson : JsonLibrary where
  toStringPretty v :=
    if v = linkedView then .ok linkedViewText else .error "no view of this workflow"
  fromStr input :=
    if input = linkedViewText then .ok linkedView
    else if input = firstText then
      .ok (linkedDocument [("id", .string "flow"), ("pureflow_version", .string "1")])
    else if input = secondText then
      .ok (linkedDocument [("pureflow_version", .string "1"), ("id", .string "flow")])
    else .error "expected value at line 1 column 1"
  rejection _ := "invalid type"

lemma linkedJson_readsViews : ReadsViews linkedJson := by
  intro view text h
  simp only [workflowIntrospectionToJsonString, linkedJson] at h
  split_ifs at h with hview
  obtain rfl : linkedViewText = text := Except.ok.inj h
  rw [hview]
  simp only [linkedJson, ↓reduceIte]

def linkedPaths : Paths := ⟨fun _ => none, fun _ => none, fun _ => true⟩

/-- Two files of one workflow, shown as the same text. -/
theorem inspect_tells_apart_sample : ∃ workflow,
    loadWorkflow linkedJson linkedPaths noFormats firstText "a" = .ok workflow ∧
      loadWorkflow linkedJson linkedPaths noFormats secondText "b" = .ok workflow := by
  have h : inspectWorkflowJson linkedJson linkedPaths noFormats firstText "a" =
      .ok (linkedViewText ++ "\n") := by
    decide +kernel
  have h' : inspectWorkflowJson linkedJson linkedPaths noFormats secondText "b" =
      .ok (linkedViewText ++ "\n") := by
    decide +kernel
  exact inspect_tells_apart linkedJson linkedPaths noFormats linkedJson_readsViews h h'

end Results

end Pureflow.Cli
