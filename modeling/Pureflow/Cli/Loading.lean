import Pureflow.Cli.Registry
import Pureflow.Contract.Contracts
import Pureflow.Format.Conversion
import Pureflow.Format.Documents
import Pureflow.Format.Formats
import Pureflow.Format.Loading

/-!
How the commands load a workflow: all but one load the workflow alone, and `explain` loads the rule
sets of its nodes with it.

Both choose the format by the extension of the file. What `explain` loads the others load too, and
it fails on a workflow that they load only over the rule set of a node.
-/

namespace Pureflow.Cli

open Std Pureflow.Types Pureflow.Core Pureflow.Workflow Pureflow.Contract Pureflow.Rules
  Pureflow.Format Pureflow.Lib

/-- The errors of the commands; those of a registry are among them. -/
inductive CommandError
  | cli (source : CliError)
  | workflowJson (source : WorkflowJsonError)
  | workflowToml (source : WorkflowTomlError)
  | workflowYaml (source : WorkflowYamlError)
  | workflowFormat (message : String)
  | contract (source : ContractValidationError)
  | capability (source : CapabilityValidationError)
  | introspectionJson (source : String)
  | wasmManifestJson (path source : String)
  deriving DecidableEq

def CommandError.wasmManifest (message : String) : CommandError := .cli (.wasmManifest message)

/-- What the commands see of paths: the directory and the extension of one, and whether there is
something at it. -/
structure Paths where
  parent : String → Option String
  extension : String → Option String
  pathExists : String → Bool

section Loading

variable (json : JsonLibrary) (paths : Paths) (formats : FormatLibraries)

def unsupportedExtension (ext : String) : CommandError := .workflowFormat
  s!"unsupported workflow file extension `.{ext}`; supported: .json, .toml, .yaml, .yml"

def loadWorkflow (input path : String) : Except CommandError WorkflowDefinition :=
  match paths.extension path with
  | some "toml" => (workflowFromTomlStr formats input).mapError .workflowToml
  | some "yaml" | some "yml" => (workflowFromYamlStr formats input).mapError .workflowYaml
  | some "json" | none => (workflowFromJsonStr json input).mapError .workflowJson
  | some ext => .error (unsupportedExtension ext)

/-- The document of a workflow, by the extension of its file. -/
def rawWorkflow (input path : String) : Except CommandError RawWorkflowDefinition :=
  match paths.extension path with
  | some "toml" => (rawWorkflowFromTomlStr formats input).mapError .workflowToml
  | some "yaml" | some "yml" => (rawWorkflowFromYamlStr formats input).mapError .workflowYaml
  | some "json" | none => (rawWorkflowFromJsonStr json input).mapError .workflowJson
  | some ext => .error (unsupportedExtension ext)

/-- The directory of a workflow file, where its references are resolved. -/
def baseDir (path : String) : String :=
  ((paths.parent path).filter (· ≠ "")).getD "."

/-- A registry of no sources, with a base for plain paths. -/
def withBaseDir (baseDir : String) : SourceRegistry := ⟨[], some baseDir⟩

def loadWorkflowWithRules (host : Host) (input path : String) :
    Except CommandError LoadedWorkflow := do
  let raw ← rawWorkflow json paths formats input path
  let registry := withBaseDir (baseDir paths path)
  (raw.loadWorkflow host registry).mapError fun source => .workflowFormat (toString source)

end Loading

section Agreement

variable {json : JsonLibrary} {paths : Paths} {formats : FormatLibraries} {host : Host}
  {registry : SourceRegistry} {raw : RawWorkflowDefinition} {input path : String}
  {workflow : WorkflowDefinition}

lemma loadWorkflow_ok : loadWorkflow json paths formats input path = .ok workflow ↔
    ∃ raw, rawWorkflow json paths formats input path = .ok raw ∧ raw.toWorkflow = .ok workflow := by
  unfold loadWorkflow rawWorkflow
  split
  · simp [workflowFromTomlStr, Result.bind_eq_ok, Result.mapError_eq_ok]
  · simp [workflowFromYamlStr, Result.bind_eq_ok, Result.mapError_eq_ok]
  · simp [workflowFromYamlStr, Result.bind_eq_ok, Result.mapError_eq_ok]
  · simp [workflowFromJsonStr, Result.bind_eq_ok, Result.mapError_eq_ok]
  · simp [workflowFromJsonStr, Result.bind_eq_ok, Result.mapError_eq_ok]
  · simp

/-- The rule set of the node is there, or the node has none. -/
def Resolves (host : Host) (registry : SourceRegistry) (nodeIndex : ℕ) (node : RawNodeDefinition) :
    Prop :=
  ∃ ruleSet, resolveNodeRuleSet host registry nodeIndex node = .ok ruleSet

/-- The first node of the document whose rule set is not resolved, and what is wrong with it. -/
structure FirstUnresolved (host : Host) (registry : SourceRegistry) (raw : RawWorkflowDefinition)
    (nodeIndex : ℕ) (source : RuleSetBindingError) : Prop where
  fails : ∃ node, raw.nodes[nodeIndex]? = some node ∧
    resolveNodeRuleSet host registry nodeIndex node = .error (.ruleSet nodeIndex source)
  before : ∀ j < nodeIndex, ∀ node, raw.nodes[j]? = some node → Resolves host registry j node

/-- The rule sets of the nodes of a document, by their ids. -/
structure RuleSetsOf (host : Host) (registry : SourceRegistry) (raw : RawWorkflowDefinition)
    (ruleSets : ExtTreeMap NodeId RuleSet) : Prop where
  resolved : ∀ i node, raw.nodes[i]? = some node → ∃ nodeId : NodeId, nodeId.value = node.id ∧
    resolveNodeRuleSet host registry i node = .ok ruleSets[nodeId]?
  only : ∀ nodeId : NodeId, (∀ node ∈ raw.nodes, nodeId.value ≠ node.id) → ruleSets[nodeId]? = none

lemma resolveNodeRuleSet_error {nodeIndex : ℕ} {node : RawNodeDefinition} {err : WorkflowFormatError}
    (h : resolveNodeRuleSet host registry nodeIndex node = .error err) :
    ∃ source, err = .ruleSet nodeIndex source := by
  unfold resolveNodeRuleSet at h
  split at h
  · exact ⟨_, (Except.error.inj h).symm⟩
  · next inline _ _ =>
    cases hinline : host.fromValue inline with
    | error reason => exact ⟨_, (Except.error.inj (by rwa [hinline] at h)).symm⟩
    | ok ruleSet =>
      rw [hinline] at h
      cases h
  · next refUri _ _ =>
    cases href : registry.load host refUri with
    | error source => exact ⟨_, (Except.error.inj (by rwa [href] at h)).symm⟩
    | ok ruleSet =>
      rw [href] at h
      cases h
  · cases h

/-- The loop over the nodes ends at the first that is not resolved; the ids have been read before,
and reading them again does not fail. -/
lemma loadWorkflow_go_cases {nodes : List RawNodeDefinition}
    (hids : ∀ node ∈ nodes, ∃ nodeId : NodeId, nodeId.value = node.id) (n : ℕ)
    (ruleSets : ExtTreeMap NodeId RuleSet) :
    (∃ result, RawWorkflowDefinition.loadWorkflow.go host registry (nodes.zipIdx n) ruleSets =
      .ok result) ∨
    ∃ i node err, nodes[i]? = some node ∧
      resolveNodeRuleSet host registry (n + i) node = .error err ∧
      (∀ j < i, ∀ other, nodes[j]? = some other → Resolves host registry (n + j) other) ∧
      RawWorkflowDefinition.loadWorkflow.go host registry (nodes.zipIdx n) ruleSets =
        .error err := by
  induction nodes generalizing n ruleSets with
  | nil => exact .inl ⟨ruleSets, rfl⟩
  | cons node rest ih =>
    rw [List.forall_mem_cons] at hids
    rw [List.zipIdx_cons, RawWorkflowDefinition.loadWorkflow.go]
    cases hnode : resolveNodeRuleSet host registry n node with
    | error err =>
      refine .inr ⟨0, node, err, rfl, hnode, fun j hj => absurd hj (Nat.not_lt_zero j), rfl⟩
    | ok resolved =>
      -- what is left of the loop, with the rule sets collected so far
      have hrest (collected : ExtTreeMap NodeId RuleSet) :
          (∃ result, RawWorkflowDefinition.loadWorkflow.go host registry (rest.zipIdx (n + 1))
            collected = .ok result) ∨
          ∃ i other err, (node :: rest)[i]? = some other ∧
            resolveNodeRuleSet host registry (n + i) other = .error err ∧
            (∀ j < i, ∀ other, (node :: rest)[j]? = some other →
              Resolves host registry (n + j) other) ∧
            RawWorkflowDefinition.loadWorkflow.go host registry (rest.zipIdx (n + 1)) collected =
              .error err := by
        rcases ih hids.2 (n + 1) collected with hok | ⟨i, other, err, hother, herr, hbefore, hgo⟩
        · exact .inl hok
        · have hshift (j : ℕ) : n + 1 + j = n + (j + 1) := by omega
          rw [hshift] at herr
          refine .inr ⟨i + 1, other, err, hother, herr, fun j hj before hj' => ?_, hgo⟩
          cases j with
          | zero =>
            obtain rfl := Option.some.inj hj'
            exact ⟨resolved, hnode⟩
          | succ j =>
            rw [← hshift]
            exact hbefore j (Nat.lt_of_succ_lt_succ hj) before hj'
      cases resolved with
      | none => exact hrest ruleSets
      | some ruleSet =>
        obtain ⟨nodeId, hid⟩ := hids.1
        have hidentifier : identifierAt (.node n) .node node.id = .ok nodeId :=
          identifierAt_eq_ok.mpr hid
        simp only [hidentifier]
        exact hrest (ruleSets.insert nodeId ruleSet)

lemma loadWorkflow_go_collects {nodes : List RawNodeDefinition} {n : ℕ}
    {ruleSets result : ExtTreeMap NodeId RuleSet}
    (hids : ∀ node ∈ nodes, ∃ nodeId : NodeId, nodeId.value = node.id)
    (hnodup : (nodes.map (·.id)).Nodup)
    (hfresh : ∀ node ∈ nodes, ∀ nodeId : NodeId, nodeId.value = node.id → ruleSets[nodeId]? = none)
    (h : RawWorkflowDefinition.loadWorkflow.go host registry (nodes.zipIdx n) ruleSets =
      .ok result) :
    (∀ i node, nodes[i]? = some node → ∃ nodeId : NodeId, nodeId.value = node.id ∧
      resolveNodeRuleSet host registry (n + i) node = .ok result[nodeId]?) ∧
    ∀ nodeId : NodeId, (∀ node ∈ nodes, nodeId.value ≠ node.id) →
      result[nodeId]? = ruleSets[nodeId]? := by
  induction nodes generalizing n ruleSets with
  | nil =>
    cases h
    exact ⟨fun i node hnode => by simp at hnode, fun nodeId _ => rfl⟩
  | cons node rest ih =>
    rw [List.map_cons, List.nodup_cons] at hnodup
    rw [List.forall_mem_cons] at hids hfresh
    obtain ⟨⟨nodeId, hid⟩, hids⟩ := hids
    have hother : ∀ other ∈ rest, nodeId.value ≠ other.id := fun other hmem heq =>
      hnodup.1 (List.mem_map.mpr ⟨other, hmem, heq.symm.trans hid⟩)
    rw [List.zipIdx_cons, RawWorkflowDefinition.loadWorkflow.go, Result.bind_eq_ok] at h
    obtain ⟨resolved, hresolved, h⟩ := h
    -- what is collected for this node, and then for the rest
    obtain ⟨collected, hgo, hself, hkeeps⟩ : ∃ collected : ExtTreeMap NodeId RuleSet,
        RawWorkflowDefinition.loadWorkflow.go host registry (rest.zipIdx (n + 1)) collected =
          .ok result ∧ collected[nodeId]? = resolved ∧
        ∀ other : NodeId, other.value ≠ node.id → collected[other]? = ruleSets[other]? := by
      cases resolved with
      | none => exact ⟨ruleSets, h, hfresh.1 nodeId hid, fun _ _ => rfl⟩
      | some ruleSet =>
        have hidentifier : identifierAt (.node n) .node node.id = .ok nodeId :=
          identifierAt_eq_ok.mpr hid
        simp only [hidentifier] at h
        refine ⟨ruleSets.insert nodeId ruleSet, h, by simp, fun other hne => ?_⟩
        rw [ExtTreeMap.getElem?_insert, if_neg]
        intro heq
        exact hne ((congrArg Identifier.value (Std.compare_eq_iff_eq.mp heq)).symm.trans hid)
    have hlater : ∀ other ∈ rest, ∀ otherId : NodeId, otherId.value = other.id →
        collected[otherId]? = none := by
      intro other hmem otherId hotherId
      rw [hkeeps otherId fun heq => hother other hmem ((hid.trans heq.symm).trans hotherId)]
      exact hfresh.2 other hmem otherId hotherId
    obtain ⟨hrest, houtside⟩ := ih hids hnodup.2 hlater hgo
    refine ⟨fun i found hfound => ?_, fun otherId hnone => ?_⟩
    · cases i with
      | zero =>
        obtain rfl := Option.some.inj hfound
        refine ⟨nodeId, hid, ?_⟩
        rw [houtside nodeId hother, hself]
        exact hresolved
      | succ i =>
        have hshift : n + (i + 1) = n + 1 + i := by omega
        rw [hshift]
        exact hrest i found hfound
    · obtain ⟨hfirst, hnone⟩ := List.forall_mem_cons.mp hnone
      rw [houtside otherId hnone, hkeeps otherId hfirst]

/-- What the other commands do not load `explain` does not load. -/
lemma loadWorkflowWithRules_of_error (host : Host) {err : CommandError}
    (h : loadWorkflow json paths formats input path = .error err) :
    ∃ other, loadWorkflowWithRules json paths formats host input path = .error other := by
  cases hloaded : loadWorkflowWithRules json paths formats host input path with
  | error other => exact ⟨other, rfl⟩
  | ok loaded =>
    simp only [loadWorkflowWithRules, RawWorkflowDefinition.loadWorkflow, Result.bind_eq_ok,
      Result.mapError_eq_ok] at hloaded
    obtain ⟨raw, hraw, workflow, hworkflow, -⟩ := hloaded
    rw [loadWorkflow_ok.mpr ⟨raw, hraw, hworkflow⟩] at h
    cases h

/-- **What the other commands load** `explain` loads too, with the rule sets of its nodes, unless
that of some node is not resolved. -/
lemma loadWorkflowWithRules_cases (host : Host) {raw : RawWorkflowDefinition}
    (hraw : rawWorkflow json paths formats input path = .ok raw)
    (hworkflow : raw.toWorkflow = .ok workflow) :
    (∃ ruleSets, RuleSetsOf host (withBaseDir (baseDir paths path)) raw ruleSets ∧
      loadWorkflowWithRules json paths formats host input path = .ok ⟨workflow, ruleSets⟩) ∨
    ∃ nodeIndex source, FirstUnresolved host (withBaseDir (baseDir paths path)) raw nodeIndex source ∧
      loadWorkflowWithRules json paths formats host input path =
        .error (.workflowFormat (toString (WorkflowFormatError.ruleSet nodeIndex source))) := by
  have hids : ∀ node ∈ raw.nodes, ∃ nodeId : NodeId, nodeId.value = node.id := by
    intro node hnode
    obtain ⟨definition, -, hmirrors⟩ :=
      Result.exists_mem_left (toWorkflow_eq_ok.mp hworkflow).2.1.nodes.flip hnode
    exact ⟨definition.id, hmirrors.id⟩
  have hload : raw.loadWorkflow host (withBaseDir (baseDir paths path)) =
      (RawWorkflowDefinition.loadWorkflow.go host (withBaseDir (baseDir paths path))
        raw.nodes.zipIdx ∅).map (LoadedWorkflow.mk workflow) := by
    rw [RawWorkflowDefinition.loadWorkflow, hworkflow]
    rfl
  have hrules : loadWorkflowWithRules json paths formats host input path =
      (raw.loadWorkflow host (withBaseDir (baseDir paths path))).mapError
        fun source => .workflowFormat (toString source) := by
    rw [loadWorkflowWithRules, hraw]
    rfl
  rw [hrules, hload]
  rcases loadWorkflow_go_cases hids 0 ∅ with ⟨ruleSets, hgo⟩ | ⟨i, node, err, hnode, herr, hbefore, hgo⟩
  · obtain ⟨hresolved, honly⟩ :=
      loadWorkflow_go_collects hids (nodup_of_toWorkflow hworkflow) (by simp) hgo
    simp only [Nat.zero_add] at hresolved
    refine .inl ⟨ruleSets, ⟨hresolved, fun nodeId hnone => ?_⟩, ?_⟩
    · rw [honly nodeId hnone]
      simp
    · rw [hgo]
      rfl
  · simp only [Nat.zero_add] at herr hbefore
    obtain ⟨source, rfl⟩ := resolveNodeRuleSet_error herr
    refine .inr ⟨i, source, ⟨⟨node, hnode, herr⟩, hbefore⟩, ?_⟩
    rw [hgo]
    rfl

lemma RuleSetsOf.resolves {ruleSets : ExtTreeMap NodeId RuleSet}
    (h : RuleSetsOf host registry raw ruleSets) {i : ℕ} {node : RawNodeDefinition}
    (hnode : raw.nodes[i]? = some node) : Resolves host registry i node := by
  obtain ⟨nodeId, -, hresolved⟩ := h.resolved i node hnode
  exact ⟨_, hresolved⟩

lemma FirstUnresolved.not_resolves {nodeIndex : ℕ} {source : RuleSetBindingError}
    (h : FirstUnresolved host registry raw nodeIndex source) :
    ¬ ∀ i node, raw.nodes[i]? = some node → Resolves host registry i node := by
  intro hall
  obtain ⟨node, hnode, hfails⟩ := h.fails
  obtain ⟨ruleSet, hresolved⟩ := hall nodeIndex node hnode
  cases hfails.symm.trans hresolved

lemma FirstUnresolved.unique {nodeIndex nodeIndex' : ℕ} {source source' : RuleSetBindingError}
    (h : FirstUnresolved host registry raw nodeIndex source)
    (h' : FirstUnresolved host registry raw nodeIndex' source') :
    nodeIndex = nodeIndex' ∧ source = source' := by
  have hle {j j' : ℕ} {err err' : RuleSetBindingError}
      (h : FirstUnresolved host registry raw j err) (h' : FirstUnresolved host registry raw j' err') :
      j ≤ j' := by
    by_contra hlt
    obtain ⟨node, hnode, hfails⟩ := h'.fails
    obtain ⟨ruleSet, hresolved⟩ := h.before j' (by omega) node hnode
    cases hfails.symm.trans hresolved
  obtain rfl := Nat.le_antisymm (hle h h') (hle h' h)
  obtain ⟨node, hnode, hfails⟩ := h.fails
  obtain ⟨node', hnode', hfails'⟩ := h'.fails
  obtain rfl := Option.some.inj (hnode.symm.trans hnode')
  cases hfails.symm.trans hfails'
  exact ⟨rfl, rfl⟩

/-- Libraries that read nothing. -/
def noFormats : FormatLibraries := ⟨fun _ => .error "not supported", fun _ => .error "not supported"⟩

end Agreement

end Pureflow.Cli
