import Pureflow.Contract.Contracts
import Pureflow.Workflow.Topology

/-!
What the validation of contracts accepts.

Every descriptor is checked against the topology, but a contract is checked, and a descriptor
compared with it, only where it is the last entry of its node. Entries that a later one replaces
are accepted as they are.
-/

namespace Pureflow.Contract

open Std Pureflow.Types Pureflow.Core Pureflow.Workflow Pureflow.Lib Pureflow.Lib.Grouping

section Ports

variable {node : NodeDefinition} {contract : NodeContract} {portId : PortId}
  {direction : PortDirection}

/-- The node declares the port in this direction. -/
def DeclaresPort (node : NodeDefinition) (portId : PortId) : PortDirection → Prop
  | .input => portId ∈ node.inputPorts
  | .output => portId ∈ node.outputPorts

/-- The contract has the port in this direction. -/
def HasPort (contract : NodeContract) (portId : PortId) (direction : PortDirection) : Prop :=
  ∃ port ∈ contract.ports, port.portId = portId ∧ port.direction = direction

/-- The ports of the contract are the declared ones, with their directions. -/
def MatchesNode (node : NodeDefinition) (contract : NodeContract) : Prop :=
  ∀ portId direction, HasPort contract portId direction ↔ DeclaresPort node portId direction

lemma rejectDuplicatePorts_go {nodeId : NodeId} {ports : List PortContract}
    (seen : ExtTreeSet PortId) :
    rejectDuplicatePorts.go nodeId ports seen = .ok () ↔
      Fresh seen (ports.map PortContract.portId) := by
  induction ports generalizing seen with
  | nil => simp [rejectDuplicatePorts.go, fresh_nil]
  | cons port rest ih =>
    unfold rejectDuplicatePorts.go
    rw [List.map_cons, fresh_cons, ← ih]
    by_cases hs : port.portId ∈ seen
    · simp [hs]
    · simp [hs]

lemma contract_ports_nodup (contract : NodeContract) :
    (contract.ports.map PortContract.portId).Nodup :=
  fresh_empty.mp ((rejectDuplicatePorts_go ∅).mp contract.valid)

lemma portMap_eq_some {port : PortContract} :
    contract.portMap[portId]? = some port ↔ port ∈ contract.ports ∧ port.portId = portId :=
  index_eq_some_iff (contract_ports_nodup contract)

lemma find_port_eq_some {port : PortContract} :
    contract.ports.find? (·.portId = portId) = some port ↔
      port ∈ contract.ports ∧ port.portId = portId := by
  constructor
  · intro h
    exact ⟨List.mem_of_find?_eq_some h, by simpa using List.find?_some h⟩
  · rintro ⟨hmem, hid⟩
    obtain ⟨other, hother⟩ : ∃ other, contract.ports.find? (·.portId = portId) = some other := by
      rw [← Option.isSome_iff_exists, List.find?_isSome]
      exact ⟨port, hmem, by simpa using hid⟩
    have hotherId : other.portId = portId := by simpa using List.find?_some hother
    rw [hother, List.inj_on_of_nodup_map (contract_ports_nodup contract)
      (List.mem_of_find?_eq_some hother) hmem (hotherId.trans hid.symm)]

lemma HasPort.unique {other : PortDirection} (h : HasPort contract portId direction)
    (h' : HasPort contract portId other) : direction = other := by
  obtain ⟨port, hmem, hid, rfl⟩ := h
  obtain ⟨port', hmem', hid', rfl⟩ := h'
  rw [List.inj_on_of_nodup_map (contract_ports_nodup contract) hmem hmem' (hid.trans hid'.symm)]

lemma workflowPorts_eq_some :
    (workflowPorts node)[portId]? = some direction ↔ DeclaresPort node portId direction := by
  have hnd := ports_nodup node
  rw [workflowPorts, ofEntries_eq_some_iff]
  · cases direction with
    | input => simp [DeclaresPort]
    | output => simp [DeclaresPort]
  · simpa [Function.comp_def] using hnd

lemma validateContractPort_ok {port : PortContract} :
    validateContractPort node (workflowPorts node) (portId, port) = .ok () ↔
      ∃ d, DeclaresPort node portId d := by
  simp only [← workflowPorts_eq_some]
  rw [← Option.isSome_iff_exists, ExtTreeMap.isSome_getElem?_iff_mem, validateContractPort]
  by_cases h : portId ∈ workflowPorts node
  · simp [h]
  · simp [h]

lemma validateWorkflowPort_ok :
    validateWorkflowPort node contract.portMap (portId, direction) = .ok () ↔
      HasPort contract portId direction := by
  unfold validateWorkflowPort
  cases hport : contract.portMap[portId]? with
  | none =>
    simp only [hport, reduceCtorEq, false_iff]
    rintro ⟨port, hmem, hid, -⟩
    rw [portMap_eq_some.mpr ⟨hmem, hid⟩] at hport
    cases hport
  | some port =>
    obtain ⟨hmem, hid⟩ := portMap_eq_some.mp hport
    have hhas : HasPort contract portId port.direction := ⟨port, hmem, hid, rfl⟩
    by_cases hdirection : port.direction = direction
    · subst hdirection
      simp [hport, hhas]
    · simp only [hport, ne_eq, hdirection, not_false_eq_true, if_true, reduceCtorEq, false_iff]
      exact fun hother => hdirection (hhas.unique hother)

/-- **A contract is accepted for a node** exactly if its ports are the declared ones. -/
theorem validateNodeContract_ok :
    validateNodeContract node contract = .ok () ↔ MatchesNode node contract := by
  simp only [validateNodeContract, Result.check_bind_eq_ok, Result.forM_eq_ok, Prod.forall,
    ExtTreeMap.mem_toList_iff_getElem?_eq_some, workflowPorts_eq_some, validateWorkflowPort_ok,
    portMap_eq_some, validateContractPort_ok]
  constructor
  · rintro ⟨hdeclared, hcontract⟩ portId direction
    refine ⟨?_, hdeclared portId direction⟩
    rintro ⟨port, hmem, hid, rfl⟩
    obtain ⟨d, hd⟩ := hcontract portId port ⟨hmem, hid⟩
    rwa [HasPort.unique ⟨port, hmem, hid, rfl⟩ (hdeclared portId d hd)]
  · intro h
    refine ⟨fun portId d => (h portId d).mpr, fun portId port ⟨hmem, hid⟩ => ?_⟩
    exact ⟨_, (h portId port.direction).mp ⟨port, hmem, hid, rfl⟩⟩

end Ports

section Entries

variable {workflow : WorkflowDefinition} {contracts : List NodeContract}
  {capabilities : List NodeCapabilities} {contract : NodeContract} {capability : NodeCapabilities}

/-- The descriptor is of a node and claims only its declared ports, in their directions. -/
def ClaimsDeclared (workflow : WorkflowDefinition) (capability : NodeCapabilities) : Prop :=
  ∃ node ∈ workflow.nodes, node.id = capability.nodeId ∧
    ∀ port ∈ capability.ports, Declares node port.portId port.direction

/-- The contract is of a node and has its declared ports, in their directions. -/
def ContractMatches (workflow : WorkflowDefinition) (contract : NodeContract) : Prop :=
  ∃ node ∈ workflow.nodes, node.id = contract.id ∧ MatchesNode node contract

/-- No effect of the descriptor is one that the mode of the contract forbids. -/
def Enforceable (contract : NodeContract) (capability : NodeCapabilities) : Prop :=
  contract.executionMode ≠ .native →
    ∀ effect ∈ capability.effects, strictBoundarySupportsEffect contract.executionMode effect = true

lemma find_node_eq_some {node : NodeDefinition} {nodeId : NodeId} :
    workflow.nodes.find? (·.id = nodeId) = some node ↔
      node ∈ workflow.nodes ∧ node.id = nodeId := by
  constructor
  · intro h
    exact ⟨List.mem_of_find?_eq_some h, by simpa using List.find?_some h⟩
  · rintro ⟨hmem, hid⟩
    obtain ⟨other, hother⟩ : ∃ other, workflow.nodes.find? (·.id = nodeId) = some other := by
      rw [← Option.isSome_iff_exists, List.find?_isSome]
      exact ⟨node, hmem, by simpa using hid⟩
    have hotherId : other.id = nodeId := by simpa using List.find?_some hother
    rw [hother, List.inj_on_of_nodup_map (graph_valid workflow).1
      (List.mem_of_find?_eq_some hother) hmem (hotherId.trans hid.symm)]

lemma workflowDirectionFor_eq_some {node : NodeDefinition} {portId : PortId}
    {direction : PortCapabilityDirection} :
    workflowDirectionFor node portId = some direction ↔ Declares node portId direction := by
  have hdisjoint := List.disjoint_of_nodup_append (ports_nodup node)
  unfold workflowDirectionFor
  by_cases hinput : portId ∈ node.inputPorts
  · have houtput : portId ∉ node.outputPorts := fun h => hdisjoint hinput h
    cases direction with
    | receive => simp [hinput, Declares]
    | emit => simp [hinput, houtput, Declares]
  · by_cases houtput : portId ∈ node.outputPorts
    · cases direction with
      | receive => simp [hinput, houtput, Declares]
      | emit => simp [hinput, houtput, Declares]
    · cases direction with
      | receive => simp [hinput, houtput, Declares]
      | emit => simp [hinput, houtput, Declares]

lemma validatePortCapability_ok {node : NodeDefinition} {port : PortCapability} :
    validatePortCapability capability node port = .ok () ↔
      Declares node port.portId port.direction := by
  rw [← workflowDirectionFor_eq_some, validatePortCapability]
  cases hdeclared : workflowDirectionFor node port.portId with
  | none => simp
  | some declared =>
    by_cases h : port.direction = declared
    · simp [h]
    · simp [h, Ne.symm h]

lemma validateNodeCapabilities_ok :
    validateNodeCapabilities workflow capability = .ok () ↔ ClaimsDeclared workflow capability := by
  unfold validateNodeCapabilities ClaimsDeclared
  cases hfind : workflow.nodes.find? (·.id = capability.nodeId) with
  | none =>
    simp only [reduceCtorEq, false_iff]
    rintro ⟨node, hmem, hid, -⟩
    rw [find_node_eq_some.mpr ⟨hmem, hid⟩] at hfind
    cases hfind
  | some node =>
    obtain ⟨hmem, hid⟩ := find_node_eq_some.mp hfind
    simp only [Result.forM_eq_ok, validatePortCapability_ok]
    constructor
    · intro h
      exact ⟨node, hmem, hid, h⟩
    · rintro ⟨other, hother, hotherId, h⟩
      rw [find_node_eq_some.mpr ⟨hother, hotherId⟩] at hfind
      cases hfind
      exact h

/-- **Every descriptor is checked** against the topology. -/
theorem validateWorkflowCapabilities_ok :
    validateWorkflowCapabilities workflow capabilities = .ok () ↔
      ∀ capability ∈ capabilities, ClaimsDeclared workflow capability := by
  simp only [validateWorkflowCapabilities, Result.forM_eq_ok, validateNodeCapabilities_ok]

lemma validateEffect_ok {effect : EffectCapability} :
    validateEffect contract capability effect = .ok () ↔
      strictBoundarySupportsEffect contract.executionMode effect = true := by
  unfold validateEffect
  cases strictBoundarySupportsEffect contract.executionMode effect with
  | true => simp
  | false => simp

lemma validateEnforceableCapabilities_ok :
    validateEnforceableCapabilities contract capability = .ok () ↔
      Enforceable contract capability := by
  unfold validateEnforceableCapabilities Enforceable
  split
  · next hmode => simp [hmode]
  · next hmode =>
    rw [Result.forM_eq_ok]
    simp [validateEffect_ok, hmode]
  · next hmode =>
    rw [Result.forM_eq_ok]
    simp [validateEffect_ok, hmode]

lemma validateContractNode_ok :
    validateContractNode workflow contract = .ok () ↔
      ∃ node ∈ workflow.nodes, node.id = contract.id := by
  unfold validateContractNode
  by_cases h : ∃ node ∈ workflow.nodes, node.id = contract.id
  · simp [h]
  · simp [h]

/-- One node of the workflow passes exactly if its last contract and its last descriptor do. -/
lemma validateNode_ok {node : NodeDefinition} :
    validateNode (index NodeContract.id contracts) (index NodeCapabilities.nodeId capabilities)
        node = .ok () ↔
      ∃ contract capability, (index NodeContract.id contracts)[node.id]? = some contract ∧
        (index NodeCapabilities.nodeId capabilities)[node.id]? = some capability ∧
        MatchesNode node contract ∧ Enforceable contract capability := by
  unfold validateNode
  cases (index NodeContract.id contracts)[node.id]? with
  | none => simp
  | some contract =>
    cases (index NodeCapabilities.nodeId capabilities)[node.id]? with
    | none => simp
    | some capability =>
      simp only [Result.check_bind_eq_ok, validateNodeContract_ok,
        validateEnforceableCapabilities_ok]
      simp

/-- What validation has checked. -/
structure Validated (workflow : WorkflowDefinition) (contracts : List NodeContract)
    (capabilities : List NodeCapabilities) : Prop where
  claims : ∀ capability ∈ capabilities, ClaimsDeclared workflow capability
  nodes : ∀ node ∈ workflow.nodes, ∃ contract capability,
    (index NodeContract.id contracts)[node.id]? = some contract ∧
      (index NodeCapabilities.nodeId capabilities)[node.id]? = some capability ∧
      MatchesNode node contract ∧ Enforceable contract capability
  known : ∀ contract ∈ contracts, ∃ node ∈ workflow.nodes, node.id = contract.id
  edges : validateEdgeSchemaCompatibility workflow (index NodeContract.id contracts) = .ok ()

/-- **What validation accepts.** -/
theorem validateWorkflowContracts_ok :
    validateWorkflowContracts workflow contracts capabilities = .ok () ↔
      Validated workflow contracts capabilities := by
  simp only [validateWorkflowContracts, Result.check_bind_eq_ok, Result.mapError_eq_ok,
    validateWorkflowCapabilities_ok, Result.forM_eq_ok, validateNode_ok, validateContractNode_ok]
  constructor
  · rintro ⟨hclaims, hnodes, hcontracts, hedges⟩
    exact ⟨hclaims, hnodes, hcontracts, hedges⟩
  · rintro ⟨hclaims, hnodes, hcontracts, hedges⟩
    exact ⟨hclaims, hnodes, hcontracts, hedges⟩

/-- Of every entry's node the last contract and the last descriptor have been checked. -/
lemma Validated.last {node : NodeDefinition} (h : Validated workflow contracts capabilities)
    (hnode : node ∈ workflow.nodes) {contract : NodeContract}
    (hcontract : (index NodeContract.id contracts)[node.id]? = some contract) :
    MatchesNode node contract ∧ ∀ capability,
      (index NodeCapabilities.nodeId capabilities)[node.id]? = some capability →
        Enforceable contract capability := by
  obtain ⟨other, descriptor, hother, hdescriptor, hmatches, henforceable⟩ := h.nodes node hnode
  cases hcontract.symm.trans hother
  refine ⟨hmatches, fun capability hcapability => ?_⟩
  cases hcapability.symm.trans hdescriptor
  exact henforceable

end Entries

section Duplicates

variable {workflow : WorkflowDefinition} {contracts : List NodeContract}
  {capabilities : List NodeCapabilities}

/-- Every entry is consistent with the workflow, and every descriptor with every contract of its
node. -/
structure EntriesConsistent (workflow : WorkflowDefinition) (contracts : List NodeContract)
    (capabilities : List NodeCapabilities) : Prop where
  ports : ∀ contract ∈ contracts, ContractMatches workflow contract
  claims : ∀ capability ∈ capabilities, ClaimsDeclared workflow capability
  effects : ∀ contract ∈ contracts, ∀ capability ∈ capabilities,
    capability.nodeId = contract.id → Enforceable contract capability

/-- A contract has the ports of the last one of its node, and a descriptor with effects stands
beside a contract with a strict mode only where both are the last ones of their node. -/
structure ReplacedAgree (contracts : List NodeContract) (capabilities : List NodeCapabilities) :
    Prop where
  ports : ∀ contract ∈ contracts, ∀ last,
    (index NodeContract.id contracts)[contract.id]? = some last →
      ∀ portId direction, HasPort contract portId direction ↔ HasPort last portId direction
  effects : ∀ contract ∈ contracts, ∀ capability ∈ capabilities,
    capability.nodeId = contract.id → contract.executionMode ≠ .native →
      capability.effects ≠ [] →
        (index NodeContract.id contracts)[contract.id]? = some contract ∧
          (index NodeCapabilities.nodeId capabilities)[capability.nodeId]? = some capability

lemma enforceable_iff {contract : NodeContract} {capability : NodeCapabilities} :
    Enforceable contract capability ↔
      (contract.executionMode ≠ .native → capability.effects = []) := by
  unfold Enforceable strictBoundarySupportsEffect
  refine imp_congr_right fun _ => ?_
  rw [List.eq_nil_iff_forall_not_mem]
  simp

/-- **Accepted entries are all consistent exactly if the replaced ones agree with the last.** -/
theorem validated_consistent_iff (workflow : WorkflowDefinition) (contracts : List NodeContract)
    (capabilities : List NodeCapabilities)
    (h : validateWorkflowContracts workflow contracts capabilities = .ok ()) :
    EntriesConsistent workflow contracts capabilities ↔
      ReplacedAgree contracts capabilities := by
  have hvalid := validateWorkflowContracts_ok.mp h
  constructor
  · intro hall
    refine ⟨fun contract hcontract last hlast portId direction => ?_,
      fun contract hcontract capability hcapability hid hmode heffects => ?_⟩
    · -- both have exactly the ports their node declares
      obtain ⟨node, hnode, hid, hmatches⟩ := hall.ports contract hcontract
      rw [← hid] at hlast
      have hlastMatches := (hvalid.last hnode hlast).1
      rw [hmatches portId direction, hlastMatches portId direction]
    · have henforceable := hall.effects contract hcontract capability hcapability hid
      exact absurd (enforceable_iff.mp henforceable hmode) heffects
  · intro hagree
    refine ⟨fun contract hcontract => ?_, hvalid.claims,
      fun contract hcontract capability hcapability hid => ?_⟩
    · obtain ⟨node, hnode, hid⟩ := hvalid.known contract hcontract
      obtain ⟨last, hlast⟩ : ∃ last, (index NodeContract.id contracts)[contract.id]? = some last :=
        index_isSome hcontract
      have hports := hagree.ports contract hcontract last hlast
      rw [← hid] at hlast
      have hlastMatches := (hvalid.last hnode hlast).1
      exact ⟨node, hnode, hid, fun portId direction =>
        (hports portId direction).trans (hlastMatches portId direction)⟩
    · rw [enforceable_iff]
      intro hmode
      by_contra heffects
      obtain ⟨hlast, hlastCapability⟩ :=
        hagree.effects contract hcontract capability hcapability hid hmode heffects
      obtain ⟨node, hnode, hnodeId⟩ := hvalid.known contract hcontract
      rw [← hnodeId] at hlast
      rw [hid, ← hnodeId] at hlastCapability
      have henforceable := (hvalid.last hnode hlast).2 capability hlastCapability
      exact heffects (enforceable_iff.mp henforceable hmode)

/-- A node with one output port. -/
def sampleNode : NodeDefinition := ⟨⟨"a", node_a_valid⟩, [], [⟨"out", port_out_valid⟩], by decide⟩

def sampleWorkflow : WorkflowDefinition :=
  ⟨⟨"flow", workflow_flow_valid⟩, ⟨[sampleNode], [], by decide +kernel⟩⟩

/-- The contract of the node, run as a WASM component. -/
def sampleContract : NodeContract where
  id := ⟨"a", node_a_valid⟩
  ports := [⟨⟨"out", port_out_valid⟩, .output, none⟩]
  executionMode := .wasm
  determinism := .deterministic
  retry := .safe
  valid := by decide

/-- A descriptor of the node with the given effects. -/
def sampleCapabilities (effects : List EffectCapability)
    (h : checkCapabilities ⟨"a", node_a_valid⟩ [⟨⟨"out", port_out_valid⟩, .emit⟩] effects =
      .ok ()) :
    NodeCapabilities :=
  ⟨⟨"a", node_a_valid⟩, [⟨⟨"out", port_out_valid⟩, .emit⟩], effects, h⟩

lemma no_effects_valid :
    checkCapabilities ⟨"a", node_a_valid⟩ [⟨⟨"out", port_out_valid⟩, .emit⟩] [] = .ok () := by
  decide +kernel

/-- Two contracts for the node, the first of them for a native one. -/
def sampleContracts : List NodeContract :=
  [{ sampleContract with executionMode := .native, determinism := .unknown }, sampleContract]

/-- Two contracts and two descriptors for the node, with the same ports and without effects: all
that is accepted is consistent. -/
theorem validated_consistent_sample :
    validateWorkflowContracts sampleWorkflow sampleContracts
        [sampleCapabilities [] no_effects_valid, sampleCapabilities [] no_effects_valid] = .ok () ∧
      EntriesConsistent sampleWorkflow sampleContracts
        [sampleCapabilities [] no_effects_valid, sampleCapabilities [] no_effects_valid] := by
  have h : validateWorkflowContracts sampleWorkflow sampleContracts
      [sampleCapabilities [] no_effects_valid, sampleCapabilities [] no_effects_valid] =
        .ok () := by decide +kernel
  have hlast : (index NodeContract.id sampleContracts)[sampleContract.id]? =
      some sampleContract := by decide +kernel
  refine ⟨h, (validated_consistent_iff _ _ _ h).mpr
    ⟨fun contract hcontract last hfound => ?_, fun _ _ capability hcapability _ _ heffects => ?_⟩⟩
  · simp only [sampleContracts, List.mem_cons, List.not_mem_nil, or_false] at hcontract
    obtain rfl | rfl := hcontract
    · cases hlast.symm.trans hfound
      exact fun _ _ => Iff.rfl
    · cases hlast.symm.trans hfound
      exact fun _ _ => Iff.rfl
  · simp only [List.mem_cons, List.not_mem_nil, or_false, or_self] at hcapability
    obtain rfl := hcapability
    exact absurd rfl heffects

/-- **A descriptor with an effect is accepted for a WASM node** when one without effects
follows. -/
theorem replaced_effect_accepted : ¬ ∀ (workflow : WorkflowDefinition)
    (contracts : List NodeContract) (capabilities : List NodeCapabilities),
      validateWorkflowContracts workflow contracts capabilities = .ok () →
        EntriesConsistent workflow contracts capabilities := by
  intro hall
  have hconsistent := hall sampleWorkflow [sampleContract]
    [sampleCapabilities [.networkOutbound] (by decide +kernel),
      sampleCapabilities [] (by decide +kernel)] (by decide +kernel)
  have heffects := hconsistent.effects sampleContract (by simp)
    (sampleCapabilities [.networkOutbound] (by decide +kernel)) (by simp) rfl
  exact absurd (heffects (by decide) .networkOutbound (by simp [sampleCapabilities])) (by decide)

end Duplicates

end Pureflow.Contract
