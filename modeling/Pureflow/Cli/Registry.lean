import Pureflow.Core.Metadata
import Pureflow.Lib.Grouping
import Pureflow.Lib.Turns
import Pureflow.Wasm.Isolation
import Pureflow.Workflow.Graph

/-!
The executors the command line runs a workflow with: a passive native one for each node, or the
WASM component that a manifest names for it.

Reading the bytes of a component is a call on the environment, and compiling them is a parameter.
Two specs for one node are noticed before any component is read, a spec for a node the workflow
does not have only after all others were.
-/

namespace Pureflow.Cli

open Std Pureflow.Types Pureflow.Core Pureflow.Lib Pureflow.Workflow Pureflow.Wasm

/-- The errors these functions end with. -/
inductive CliError
  | io (action path source : String)
  | runtime (source : PureflowError)
  | wasmManifest (message : String)
  deriving DecidableEq

/-- Executors by node. -/
structure StaticNodeExecutorRegistry (Executor : Type) where
  executors : ExtTreeMap NodeId Executor

structure CliNativeExecutor where
  inputPorts : List PortId
  outputRoutes : ExtTreeMap PortId (List MessageEndpoint)

inductive CliNodeExecutor (Component : Type)
  | native (executor : CliNativeExecutor)
  | wasm (component : Component)

structure CliWasmComponentSpec where
  nodeId : NodeId
  componentPath : String
  limits : WasmtimeExecutionLimits

section Native

/-- The targets of each output port of each node. -/
def routesByNode (workflow : WorkflowDefinition) :
    ExtTreeMap NodeId (ExtTreeMap PortId (List MessageEndpoint)) :=
  workflow.edges.foldl (fun routes edge =>
    routes.insert edge.source.nodeId (Grouping.push (routes[edge.source.nodeId]?.getD ∅)
      edge.source.portId ⟨edge.target.nodeId, edge.target.portId⟩)) ∅

def nativeExecutor (workflow : WorkflowDefinition) (node : NodeDefinition) : CliNativeExecutor :=
  let targets (outputPort : PortId) : List MessageEndpoint :=
    ((routesByNode workflow)[node.id]?.bind (·[outputPort]?)).getD []
  ⟨node.inputPorts, Grouping.ofEntries (node.outputPorts.map fun port => (port, targets port))⟩

def nativeRegistryForWorkflow (workflow : WorkflowDefinition) :
    StaticNodeExecutorRegistry CliNativeExecutor :=
  ⟨Grouping.ofEntries (workflow.nodes.map fun node => (node.id, nativeExecutor workflow node))⟩

lemma nativeRegistry_isSome {workflow : WorkflowDefinition} {node : NodeDefinition}
    (h : node ∈ workflow.nodes) :
    ∃ executor, (nativeRegistryForWorkflow workflow).executors[node.id]? = some executor :=
  Grouping.ofEntries_isSome (List.mem_map_of_mem h)

end Native

/-- The one call the registry makes on its environment. -/
inductive ReadOp
  | readBytes (path : String)

def ReadOp.Answer : ReadOp → Type
  | .readBytes _ => Except CliError (List UInt8)

instance (op : ReadOp) : Nonempty op.Answer := by
  cases op
  exact ⟨(.ok [] : Except CliError (List UInt8))⟩

/-- A computation that reads files. -/
abbrev CliM := Prog ReadOp ReadOp.Answer

def readBytes (path : String) : CliM (Except CliError (List UInt8)) := Prog.perform (ReadOp.readBytes path)

section Mixed

variable {Component : Type}
  (compile : List UInt8 → WasmtimeExecutionLimits → Except PureflowError Component)

/-- The loop over the specs, with those so far by their nodes. -/
def componentsByNode : List CliWasmComponentSpec → ExtTreeMap NodeId CliWasmComponentSpec →
    Except CliError (ExtTreeMap NodeId CliWasmComponentSpec)
  | [], components => .ok components
  | component :: rest, components =>
    if component.nodeId ∈ components then
      .error (.wasmManifest s!"duplicate WASM component entry for node `{component.nodeId}`")
    else componentsByNode rest (components.insert component.nodeId component)

/-- The executor of a node, given its component. -/
def executorFor (registry : StaticNodeExecutorRegistry CliNativeExecutor) (nodeId : NodeId) :
    Option CliWasmComponentSpec → CliM (Except CliError (CliNodeExecutor Component))
  | some component => do
    match ← readBytes component.componentPath with
    | .error err => return .error err
    | .ok componentBytes =>
      match compile componentBytes component.limits with
      | .error err => return .error (.runtime err)
      | .ok wasmComponent => return .ok (.wasm wasmComponent)
  | none =>
    match registry.executors[nodeId]? with
    | none => return .error (.wasmManifest
        s!"failed to construct native executor for workflow node `{nodeId}`")
    | some executor => return .ok (.native executor)

/-- The loop over the nodes, with the components that are left and the executors so far. -/
def buildExecutors (registry : StaticNodeExecutorRegistry CliNativeExecutor) :
    List NodeDefinition → ExtTreeMap NodeId CliWasmComponentSpec →
    ExtTreeMap NodeId (CliNodeExecutor Component) →
    CliM (Except CliError
      (ExtTreeMap NodeId CliWasmComponentSpec × ExtTreeMap NodeId (CliNodeExecutor Component)))
  | [], components, executors => return .ok (components, executors)
  | node :: rest, components, executors => do
    match ← executorFor compile registry node.id components[node.id]? with
    | .error err => return .error err
    | .ok executor =>
      buildExecutors registry rest (components.erase node.id) (executors.insert node.id executor)

def mixedRegistryForWorkflow (workflow : WorkflowDefinition)
    (components : List CliWasmComponentSpec) :
    CliM (Except CliError (StaticNodeExecutorRegistry (CliNodeExecutor Component))) :=
  match componentsByNode components ∅ with
  | .error err => return .error err
  | .ok components => do
    match ← buildExecutors compile (nativeRegistryForWorkflow workflow) workflow.nodes
        components ∅ with
    | .error err => return .error err
    | .ok (left, executors) =>
      match left.keys.head? with
      | some nodeId => return .error (.wasmManifest
          s!"WASM component manifest references unknown workflow node `{nodeId}`")
      | none => return .ok ⟨executors⟩

end Mixed

section Components

variable {specs : List CliWasmComponentSpec}
  {components left : ExtTreeMap NodeId CliWasmComponentSpec} {k : NodeId}

lemma mem_insert_component {m : ExtTreeMap NodeId CliWasmComponentSpec}
    {c : CliWasmComponentSpec} : k ∈ m.insert c.nodeId c ↔ c.nodeId = k ∨ k ∈ m := by
  rw [ExtTreeMap.mem_insert, Std.compare_eq_iff_eq]

lemma mem_componentsByNode (h : componentsByNode specs components = .ok left) :
    k ∈ left ↔ k ∈ components ∨ ∃ spec ∈ specs, spec.nodeId = k := by
  induction specs generalizing components with
  | nil =>
    cases h
    simp
  | cons spec rest ih =>
    rw [componentsByNode] at h
    split_ifs at h with hmem
    rw [ih h, mem_insert_component]
    simp only [List.mem_cons, exists_eq_or_imp]
    tauto

lemma componentsByNode_ok_iff : (∃ left, componentsByNode specs components = .ok left) ↔
    (specs.map (·.nodeId)).Nodup ∧ ∀ spec ∈ specs, spec.nodeId ∉ components := by
  induction specs generalizing components with
  | nil => simp [componentsByNode]
  | cons spec rest ih =>
    rw [componentsByNode, List.map_cons, List.nodup_cons, List.forall_mem_cons]
    split_ifs with hmem
    · simp [hmem]
    · rw [ih]
      simp only [mem_insert_component, List.mem_map, not_exists, not_and, not_or]
      constructor
      · rintro ⟨hnodup, hfresh⟩
        exact ⟨⟨fun other hother heq => (hfresh other hother).1 heq.symm, hnodup⟩, hmem,
          fun other hother => (hfresh other hother).2⟩
      · rintro ⟨⟨hspec, hnodup⟩, -, hfresh⟩
        exact ⟨hnodup, fun other hother => ⟨fun heq => hspec other hother heq.symm,
          hfresh other hother⟩⟩

end Components

section Building

variable {Component : Type}
  {compile : List UInt8 → WasmtimeExecutionLimits → Except PureflowError Component}
  {registry : StaticNodeExecutorRegistry CliNativeExecutor} {nodes : List NodeDefinition}
  {components : ExtTreeMap NodeId CliWasmComponentSpec}
  {executors : ExtTreeMap NodeId (CliNodeExecutor Component)}
  {events : List (Prog.Event ReadOp.Answer)}

lemma executorFor_none {nodeId : NodeId} {result : Except CliError (CliNodeExecutor Component)}
    (h : Prog.Yields (executorFor compile registry nodeId none) events result) : events = [] := by
  rw [executorFor] at h
  cases hexecutor : registry.executors[nodeId]? with
  | none =>
    rw [hexecutor] at h
    exact (Prog.yields_ret.mp h).1
  | some executor =>
    rw [hexecutor] at h
    exact (Prog.yields_ret.mp h).1

lemma executorFor_some {nodeId : NodeId} {component : CliWasmComponentSpec}
    {result : Except CliError (CliNodeExecutor Component)}
    (h : Prog.Yields (executorFor compile registry nodeId (some component)) events result) :
    events ≠ [] := by
  rw [executorFor] at h
  obtain ⟨answer, rest, rfl, -⟩ := Prog.yields_call.mp h
  exact List.cons_ne_nil _ _

lemma buildExecutors_cons {node : NodeDefinition}
    {result : Except CliError
      (ExtTreeMap NodeId CliWasmComponentSpec × ExtTreeMap NodeId (CliNodeExecutor Component))}
    (h : Prog.Yields (buildExecutors compile registry (node :: nodes) components executors) events
      result) :
    ∃ answer before after, events = before ++ after ∧
      Prog.Yields (executorFor compile registry node.id components[node.id]?) before answer ∧
      ((∃ err, answer = .error err ∧ result = .error err ∧ after = []) ∨
        ∃ executor, answer = .ok executor ∧
          Prog.Yields (buildExecutors compile registry nodes (components.erase node.id)
            (executors.insert node.id executor)) after result) := by
  rw [buildExecutors] at h
  obtain ⟨answer, before, after, rfl, hbefore, hafter⟩ := Prog.yields_bind.mp h
  refine ⟨answer, before, after, rfl, hbefore, ?_⟩
  cases answer with
  | error err =>
    obtain ⟨rfl, rfl⟩ := Prog.yields_ret.mp hafter
    exact .inl ⟨err, rfl, rfl, rfl⟩
  | ok executor => exact .inr ⟨executor, rfl, hafter⟩

lemma mem_erase_component {k j : NodeId} : k ∈ components.erase j ↔ k ≠ j ∧ k ∈ components := by
  rw [ExtTreeMap.mem_erase, ne_eq, Std.compare_eq_iff_eq, eq_comm]

lemma mem_left {left : ExtTreeMap NodeId CliWasmComponentSpec}
    {built : ExtTreeMap NodeId (CliNodeExecutor Component)}
    (h : Prog.Yields (buildExecutors compile registry nodes components executors) events
      (.ok (left, built))) (k : NodeId) :
    k ∈ left ↔ k ∈ components ∧ ∀ node ∈ nodes, node.id ≠ k := by
  induction nodes generalizing components executors events with
  | nil =>
    obtain ⟨-, heq⟩ := Prog.yields_ret.mp h
    cases heq
    simp
  | cons node nodes ih =>
    obtain ⟨answer, before, after, -, -, herr | hok⟩ := buildExecutors_cons h
    · obtain ⟨err, -, heq, -⟩ := herr
      cases heq
    · obtain ⟨executor, -, hrest⟩ := hok
      rw [ih hrest, mem_erase_component, List.forall_mem_cons]
      tauto

lemma buildExecutors_quiet (hnodes : ∀ node ∈ nodes, node.id ∉ components)
    {result : Except CliError
      (ExtTreeMap NodeId CliWasmComponentSpec × ExtTreeMap NodeId (CliNodeExecutor Component))}
    (h : Prog.Yields (buildExecutors compile registry nodes components executors) events result) :
    events = [] := by
  induction nodes generalizing components executors events with
  | nil => exact (Prog.yields_ret.mp h).1
  | cons node nodes ih =>
    obtain ⟨hnode, hnodes⟩ := List.forall_mem_cons.mp hnodes
    obtain ⟨answer, before, after, rfl, hbefore, hcases⟩ := buildExecutors_cons h
    rw [ExtTreeMap.getElem?_eq_none hnode] at hbefore
    rw [executorFor_none hbefore, List.nil_append]
    rcases hcases with ⟨err, -, -, rfl⟩ | ⟨executor, -, hrest⟩
    · rfl
    · exact ih (fun other hother hmem => hnodes other hother (mem_erase_component.mp hmem).2) hrest

lemma buildExecutors_reads
    (hnative : ∀ node ∈ nodes, ∃ executor, registry.executors[node.id]? = some executor)
    (hnode : ∃ node ∈ nodes, node.id ∈ components)
    {result : Except CliError
      (ExtTreeMap NodeId CliWasmComponentSpec × ExtTreeMap NodeId (CliNodeExecutor Component))}
    (h : Prog.Yields (buildExecutors compile registry nodes components executors) events result) :
    events ≠ [] := by
  induction nodes generalizing components executors events with
  | nil =>
    obtain ⟨node, hmem, -⟩ := hnode
    cases hmem
  | cons node nodes ih =>
    obtain ⟨⟨native, hexecutor⟩, hnative⟩ := List.forall_mem_cons.mp hnative
    obtain ⟨answer, before, after, rfl, hbefore, hcases⟩ := buildExecutors_cons h
    cases hcomponent : components[node.id]? with
    | some component =>
      rw [hcomponent] at hbefore
      exact List.append_ne_nil_of_left_ne_nil (executorFor_some hbefore) _
    | none =>
      rw [hcomponent, executorFor, hexecutor] at hbefore
      obtain ⟨-, rfl⟩ := Prog.yields_ret.mp hbefore
      obtain ⟨err, heq, -⟩ | ⟨executor, -, hrest⟩ := hcases
      · cases heq
      · refine List.append_ne_nil_of_right_ne_nil _ (ih hnative ?_ hrest)
        obtain ⟨other, hother, hmem⟩ := hnode
        have hne : other.id ≠ node.id := by
          intro heq
          rw [heq, ExtTreeMap.mem_iff_isSome_getElem?, hcomponent] at hmem
          cases hmem
        rcases List.mem_cons.mp hother with rfl | hother
        · exact absurd rfl hne
        · exact ⟨other, hother, mem_erase_component.mpr ⟨hne, hmem⟩⟩

end Building

section Results

variable {Component : Type}
  {compile : List UInt8 → WasmtimeExecutionLimits → Except PureflowError Component}
  {workflow : WorkflowDefinition} {specs : List CliWasmComponentSpec}

/-- A spec names a node that the workflow has. -/
def Known (workflow : WorkflowDefinition) (spec : CliWasmComponentSpec) : Prop :=
  ∃ node ∈ workflow.nodes, node.id = spec.nodeId

/-- A spec names a node that the workflow does not have, or two specs name the same node. -/
def ManifestError (workflow : WorkflowDefinition) (specs : List CliWasmComponentSpec) : Prop :=
  (∃ spec ∈ specs, ¬ Known workflow spec) ∨ ¬ (specs.map (·.nodeId)).Nodup

/-- An error in the manifest is found before any component is read. -/
def RejectsUnread
    (compile : List UInt8 → WasmtimeExecutionLimits → Except PureflowError Component)
    (workflow : WorkflowDefinition) (specs : List CliWasmComponentSpec) : Prop :=
  ManifestError workflow specs → ∀ events result,
    Prog.Yields (mixedRegistryForWorkflow compile workflow specs) events result →
      (∃ err, result = .error err) ∧ events = []

lemma rejects_duplicate (hdup : ¬ (specs.map (·.nodeId)).Nodup) :
    RejectsUnread compile workflow specs := by
  intro _ events result h
  rw [mixedRegistryForWorkflow] at h
  cases hcomponents : componentsByNode specs ∅ with
  | error err =>
    rw [hcomponents] at h
    obtain ⟨rfl, rfl⟩ := Prog.yields_ret.mp h
    exact ⟨⟨err, rfl⟩, rfl⟩
  | ok components => exact absurd (componentsByNode_ok_iff.mp ⟨components, hcomponents⟩).1 hdup

lemma exists_components (hnodup : (specs.map (·.nodeId)).Nodup) :
    ∃ components, componentsByNode specs ∅ = .ok components ∧
      ∀ k, k ∈ components ↔ ∃ spec ∈ specs, spec.nodeId = k := by
  obtain ⟨components, hcomponents⟩ := componentsByNode_ok_iff.mpr ⟨hnodup,
    fun _ _ => ExtTreeMap.not_mem_empty⟩
  refine ⟨components, hcomponents, fun k => ?_⟩
  rw [mem_componentsByNode hcomponents]
  simp

lemma yields_mixed {components : ExtTreeMap NodeId CliWasmComponentSpec}
    (hcomponents : componentsByNode specs ∅ = .ok components)
    {events : List (Prog.Event ReadOp.Answer)}
    {result : Except CliError (StaticNodeExecutorRegistry (CliNodeExecutor Component))}
    (h : Prog.Yields (mixedRegistryForWorkflow compile workflow specs) events result) :
    ∃ built, Prog.Yields (buildExecutors compile (nativeRegistryForWorkflow workflow)
        workflow.nodes components ∅) events built ∧
      ∀ registry, result = .ok registry → ∃ left executors, built = .ok (left, executors) ∧
        ∀ k, k ∉ left := by
  rw [mixedRegistryForWorkflow, hcomponents] at h
  obtain ⟨built, before, after, rfl, hbefore, hafter⟩ := Prog.yields_bind.mp h
  cases built with
  | error err =>
    obtain ⟨rfl, hresult⟩ := Prog.yields_ret.mp hafter
    rw [List.append_nil]
    exact ⟨_, hbefore, fun registry heq => by rw [hresult] at heq; cases heq⟩
  | ok pair =>
    obtain ⟨left, executors⟩ := pair
    simp only at hafter
    cases hhead : left.keys.head? with
    | some k =>
      rw [hhead] at hafter
      obtain ⟨rfl, hresult⟩ := Prog.yields_ret.mp hafter
      rw [List.append_nil]
      exact ⟨_, hbefore, fun registry heq => by rw [hresult] at heq; cases heq⟩
    | none =>
      rw [hhead] at hafter
      obtain ⟨rfl, -⟩ := Prog.yields_ret.mp hafter
      rw [List.append_nil]
      refine ⟨_, hbefore, fun registry _ => ⟨left, executors, rfl, fun k hk => ?_⟩⟩
      rw [← ExtTreeMap.mem_keys, List.head?_eq_none_iff.mp hhead] at hk
      cases hk

/-- **Every manifest error is an error**, whatever is read before it is found. -/
theorem manifestError_rejected (h : ManifestError workflow specs)
    {events : List (Prog.Event ReadOp.Answer)}
    {result : Except CliError (StaticNodeExecutorRegistry (CliNodeExecutor Component))}
    (hrun : Prog.Yields (mixedRegistryForWorkflow compile workflow specs) events result) :
    ∃ err, result = .error err := by
  by_cases hnodup : (specs.map (·.nodeId)).Nodup
  · obtain ⟨spec, hspec, hunknown⟩ := h.resolve_right (not_not_intro hnodup)
    obtain ⟨components, hcomponents, hmem⟩ := exists_components hnodup
    obtain ⟨built, hbuilt, hok⟩ := yields_mixed hcomponents hrun
    cases result with
    | error err => exact ⟨err, rfl⟩
    | ok registry =>
      obtain ⟨left, executors, rfl, hleft⟩ := hok registry rfl
      refine absurd ((mem_left hbuilt spec.nodeId).mpr ⟨?_, ?_⟩) (hleft _)
      · exact (hmem _).mpr ⟨spec, hspec, rfl⟩
      · exact fun node hnode heq => hunknown ⟨node, hnode, heq⟩
  · exact (rejects_duplicate hnodup h events result hrun).1

lemma reads_known (hnodup : (specs.map (·.nodeId)).Nodup) {spec : CliWasmComponentSpec}
    (hspec : spec ∈ specs) (hknown : Known workflow spec)
    {events : List (Prog.Event ReadOp.Answer)}
    {result : Except CliError (StaticNodeExecutorRegistry (CliNodeExecutor Component))}
    (hrun : Prog.Yields (mixedRegistryForWorkflow compile workflow specs) events result) :
    events ≠ [] := by
  obtain ⟨node, hnode, hid⟩ := hknown
  obtain ⟨components, hcomponents, hmem⟩ := exists_components hnodup
  obtain ⟨built, hbuilt, -⟩ := yields_mixed hcomponents hrun
  refine buildExecutors_reads (fun _ => nativeRegistry_isSome) ⟨node, hnode, ?_⟩ hbuilt
  exact (hmem _).mpr ⟨spec, hspec, hid.symm⟩

/-- **Components are read before an unknown node is found**, exactly when there is one to read:
no node is named twice, and specs for nodes of the workflow stand beside ones for others. -/
theorem rejectsUnread_iff
    (compile : List UInt8 → WasmtimeExecutionLimits → Except PureflowError Component)
    (workflow : WorkflowDefinition) (specs : List CliWasmComponentSpec) :
    RejectsUnread compile workflow specs ↔
      ((specs.map (·.nodeId)).Nodup → (∃ spec ∈ specs, ¬ Known workflow spec) →
        ∀ spec ∈ specs, ¬ Known workflow spec) := by
  constructor
  · intro hrejects hnodup hunknown spec hspec hknown
    obtain ⟨events, result, hrun⟩ :=
      Prog.exists_yields (mixedRegistryForWorkflow compile workflow specs)
    obtain ⟨-, hevents⟩ := hrejects (.inl hunknown) events result hrun
    exact reads_known hnodup hspec hknown hrun hevents
  · intro hcondition
    by_cases hnodup : (specs.map (·.nodeId)).Nodup
    · intro herror events result hrun
      refine ⟨manifestError_rejected herror hrun, ?_⟩
      have hunknown := hcondition hnodup (herror.resolve_right (not_not_intro hnodup))
      obtain ⟨components, hcomponents, hmem⟩ := exists_components hnodup
      obtain ⟨built, hbuilt, -⟩ := yields_mixed hcomponents hrun
      refine buildExecutors_quiet (fun node hnode hcomponent => ?_) hbuilt
      obtain ⟨spec, hspec, hid⟩ := (hmem _).mp hcomponent
      exact hunknown spec hspec ⟨node, hnode, hid.symm⟩
    · exact rejects_duplicate hnodup

/-! ### A manifest with one spec too many -/

lemma passiveNode_valid : rejectDuplicatePorts ⟨"a", node_a_valid⟩ [] [] = .ok () := rfl

def passiveNode : NodeDefinition := ⟨⟨"a", node_a_valid⟩, [], [], passiveNode_valid⟩

lemma passiveGraph_valid : validate [passiveNode] [] true = .ok () := by decide +kernel

def passiveWorkflow : WorkflowDefinition :=
  ⟨⟨"flow", workflow_flow_valid⟩, ⟨[passiveNode], [], passiveGraph_valid⟩⟩

lemma node_missing_valid : validateIdentifier .node "missing" = .ok () := by decide

def sampleSpecs : List CliWasmComponentSpec :=
  [⟨⟨"missing", node_missing_valid⟩, "missing.wasm", ⟨100000000, 1⟩⟩,
    ⟨⟨"a", node_a_valid⟩, "a.wasm", ⟨100000000, 1⟩⟩]

/-- **An unknown node does not always come before the reads**: the component of the node there is
was read. -/
theorem not_rejectsUnread : ¬ ∀ (Component : Type)
    (compile : List UInt8 → WasmtimeExecutionLimits → Except PureflowError Component)
    (workflow : WorkflowDefinition) (specs : List CliWasmComponentSpec),
      RejectsUnread compile workflow specs := by
  intro hall
  have hrejects := hall Unit (fun _ _ => .ok ()) passiveWorkflow sampleSpecs
  have hunknown : ManifestError passiveWorkflow sampleSpecs := by
    refine .inl ⟨_, List.mem_cons_self, ?_⟩
    rintro ⟨node, hnode, hid⟩
    obtain rfl := List.mem_singleton.mp hnode
    exact absurd hid (by decide)
  have hnodup : (sampleSpecs.map (·.nodeId)).Nodup := by decide
  obtain ⟨events, result, hrun⟩ := Prog.exists_yields
    (mixedRegistryForWorkflow (fun _ _ => .ok ()) passiveWorkflow sampleSpecs)
  obtain ⟨-, hevents⟩ := hrejects hunknown events result hrun
  have hmem : sampleSpecs[1] ∈ sampleSpecs := List.getElem_mem _
  exact reads_known hnodup hmem ⟨passiveNode, List.mem_singleton.mpr rfl, rfl⟩ hrun hevents

end Results

end Pureflow.Cli
