import Pureflow.Cli.Loading

/-!
WASM component manifests: the command that validates one, and the executors a run has with it.

Both commands read the manifest alike. The one that validates it looks at all that the other one
can find wrong before it has read a component, so that a run with a valid manifest fails in its
setup only where a component is not read or not compiled.
-/

namespace Pureflow.Cli

open Std Pureflow.Types Pureflow.Core Pureflow.Workflow Pureflow.Wasm Pureflow.Format Pureflow.Lib
  Pureflow.Lib.Serde Pureflow.Lib.Json

section Specs

def RawWasmComponentSpec.fields : List String := ["node", "component", "fuel"]

structure RawWasmComponentSpec where
  node : String
  component : String
  fuel : Option UInt64

structure RawWasmComponentManifest where
  components : List RawWasmComponentSpec

def readRawSpec (v : Value) : Option RawWasmComponentSpec := do
  guard (isStrictRecord RawWasmComponentSpec.fields 3 v)
  return {
    node := ← field RawWasmComponentSpec.fields "node" readString v
    component := ← field RawWasmComponentSpec.fields "component" readString v
    fuel := ← optionalField RawWasmComponentSpec.fields "fuel" readUsize v }

def readRawManifest (v : Value) : Option RawWasmComponentManifest := do
  guard (isStrictRecord ["components"] 1 v)
  return { components := ← field ["components"] "components" (readList readRawSpec) v }

def defaultGuestFuel : UInt64 := 100000000

def defaultCancellationEpochDeadline : UInt64 := 1

/-- Limits with a fuel budget for each invocation. -/
def executionLimits (fuel : UInt64) : WasmtimeExecutionLimits :=
  ⟨fuel, defaultCancellationEpochDeadline⟩

def resolveManifestComponentPath (manifestDir component : String) : String :=
  if isAbsolute component.toList then component
  else .ofList (joinPath manifestDir.toList component.toList)

variable (json : JsonLibrary) (paths : Paths)

/-- The spec of one entry. -/
def componentSpec (manifestDir : String) (raw : RawWasmComponentSpec) :
    Except CommandError CliWasmComponentSpec :=
  match Identifier.new .node raw.node with
  | .error e => .error (.cli (.runtime (.ofIdentifier e)))
  | .ok nodeId => .ok {
      nodeId := nodeId
      componentPath := resolveManifestComponentPath manifestDir raw.component
      limits := executionLimits (raw.fuel.getD defaultGuestFuel) }

def wasmComponentSpecsFromManifest (input manifestPath : String) :
    Except CommandError (List CliWasmComponentSpec) := do
  let v ← (json.fromStr input).mapError (.wasmManifestJson manifestPath)
  match readRawManifest v with
  | none => .error (.wasmManifestJson manifestPath (json.rejection v))
  | some manifest =>
    manifest.components.mapM (componentSpec ((paths.parent manifestPath).getD ""))

/-- The loop that notices a node with two components. -/
def rejectDuplicateComponents : List CliWasmComponentSpec → ExtTreeSet NodeId →
    Except CommandError Unit
  | [], _ => .ok ()
  | spec :: rest, seenNodes =>
    if spec.nodeId ∈ seenNodes then
      .error (.wasmManifest s!"duplicate component entry for node `{spec.nodeId}`")
    else rejectDuplicateComponents rest (seenNodes.insert spec.nodeId)

def requireComponentPath (spec : CliWasmComponentSpec) : Except CommandError Unit :=
  if paths.pathExists spec.componentPath then .ok ()
  else .error (.wasmManifest
    s!"component path `{spec.componentPath}` for node `{spec.nodeId}` is not readable")

def requireWorkflowNode (workflow : WorkflowDefinition) (workflowNodes : ExtTreeSet NodeId)
    (spec : CliWasmComponentSpec) : Except CommandError Unit :=
  if spec.nodeId ∈ workflowNodes then .ok ()
  else .error (.wasmManifest
    s!"manifest node `{spec.nodeId}` does not exist in workflow `{workflow.id}`")

def validateWasmComponentManifest (manifestInput manifestPath : String)
    (workflowInput : Option String) : Except CommandError String := do
  let specs ← wasmComponentSpecsFromManifest json paths manifestInput manifestPath
  rejectDuplicateComponents specs ∅
  specs.forM (requireComponentPath paths)
  match workflowInput with
  | some input =>
    let workflow ← (workflowFromJsonStr json input).mapError .workflowJson
    specs.forM (requireWorkflowNode workflow (.ofList (workflow.nodes.map (·.id))))
    return s!"valid manifest `{manifestPath}`\ncomponents: {specs.length}\nworkflow: `{workflow.id}`\n"
  | none => return s!"valid manifest `{manifestPath}`\ncomponents: {specs.length}\n"

/-- What a run with components has loaded and built before its first node starts. -/
def setUpRun {Component : Type}
    (compile : List UInt8 → WasmtimeExecutionLimits → Except PureflowError Component)
    (formats : FormatLibraries) (manifestInput manifestPath input path : String) :
    CliM (Except CommandError
      (WorkflowDefinition × StaticNodeExecutorRegistry (CliNodeExecutor Component))) :=
  match wasmComponentSpecsFromManifest json paths manifestInput manifestPath with
  | .error err => return .error err
  | .ok components =>
    match loadWorkflow json paths formats input path with
    | .error err => return .error err
    | .ok workflow => do
      match ← mixedRegistryForWorkflow compile workflow components with
      | .error err => return .error (.cli err)
      | .ok registry => return .ok (workflow, registry)

end Specs

section Validation

variable {json : JsonLibrary} {paths : Paths} {specs : List CliWasmComponentSpec}
  {workflow : WorkflowDefinition} {manifestInput manifestPath input : String}

lemma rejectDuplicateComponents_ok {seen : ExtTreeSet NodeId} :
    rejectDuplicateComponents specs seen = .ok () ↔
      Grouping.Fresh seen (specs.map (·.nodeId)) := by
  induction specs generalizing seen with
  | nil => simp [rejectDuplicateComponents, Grouping.fresh_nil]
  | cons spec rest ih =>
    rw [List.map_cons, Grouping.fresh_cons, ← ih, rejectDuplicateComponents]
    split_ifs with hseen
    · simp [hseen]
    · simp [hseen]

lemma requireComponentPath_ok {spec : CliWasmComponentSpec} :
    requireComponentPath paths spec = .ok () ↔ paths.pathExists spec.componentPath = true := by
  unfold requireComponentPath
  split_ifs with hexists
  · simp [hexists]
  · simp [hexists]

lemma requireWorkflowNode_ok {spec : CliWasmComponentSpec} :
    requireWorkflowNode workflow (.ofList (workflow.nodes.map (·.id))) spec = .ok () ↔
      Known workflow spec := by
  have hmem : spec.nodeId ∈ ExtTreeSet.ofList (workflow.nodes.map (·.id)) ↔
      Known workflow spec := by
    rw [ExtTreeSet.mem_ofList, List.contains_iff_mem, List.mem_map]
    rfl
  unfold requireWorkflowNode
  split_ifs with hknown
  · simp [hmem.mp hknown]
  · simp [mt hmem.mpr hknown]

/-- **What the validation accepts**: a manifest that is read, names no node twice and none that the
workflow does not have, and components that are there. -/
lemma validateManifest_ok :
    (∃ text, validateWasmComponentManifest json paths manifestInput manifestPath (some input) =
      .ok text) ↔
    ∃ specs workflow,
      wasmComponentSpecsFromManifest json paths manifestInput manifestPath = .ok specs ∧
      workflowFromJsonStr json input = .ok workflow ∧ ¬ ManifestError workflow specs ∧
      ∀ spec ∈ specs, paths.pathExists spec.componentPath = true := by
  have herror (specs : List CliWasmComponentSpec) (workflow : WorkflowDefinition) :
      ¬ ManifestError workflow specs ↔
        (specs.map (·.nodeId)).Nodup ∧ ∀ spec ∈ specs, Known workflow spec := by
    rw [ManifestError, not_or, not_not, and_comm]
    simp
  simp only [validateWasmComponentManifest, Result.bind_eq_ok, Unique.exists_iff,
    PUnit.default_eq_unit, rejectDuplicateComponents_ok, Grouping.fresh_empty, Result.forM_eq_ok,
    requireComponentPath_ok, Result.mapError_eq_ok, requireWorkflowNode_ok, herror]
  constructor
  · rintro ⟨text, specs, hspecs, hnodup, hexist, workflow, hworkflow, hknown, -⟩
    exact ⟨specs, workflow, hspecs, hworkflow, ⟨hnodup, hknown⟩, hexist⟩
  · rintro ⟨specs, workflow, hspecs, hworkflow, ⟨hnodup, hknown⟩, hexist⟩
    exact ⟨_, specs, hspecs, hnodup, hexist, workflow, hworkflow, hknown, rfl⟩

end Validation

section Registry

variable {Component : Type}
  {compile : List UInt8 → WasmtimeExecutionLimits → Except PureflowError Component}
  {registry : StaticNodeExecutorRegistry CliNativeExecutor}
  {components : ExtTreeMap NodeId CliWasmComponentSpec} {specs : List CliWasmComponentSpec}
  {executors : ExtTreeMap NodeId (CliNodeExecutor Component)}
  {events : List (Prog.Event ReadOp.Answer)} {workflow : WorkflowDefinition}

/-- The spec of a node. -/
def specFor (specs : List CliWasmComponentSpec) (nodeId : NodeId) : Option CliWasmComponentSpec :=
  specs.find? (·.nodeId = nodeId)

/-- A read of a component that succeeds. -/
def readOf (bytes : List UInt8) (spec : CliWasmComponentSpec) : Prog.Event ReadOp.Answer :=
  ⟨.readBytes spec.componentPath, .ok bytes⟩

/-- The executor of a node: its component, compiled from the bytes read for it, or else the passive
native one. -/
def Provides (compile : List UInt8 → WasmtimeExecutionLimits → Except PureflowError Component)
    (native : CliNativeExecutor) (bytes : List UInt8) (executor : CliNodeExecutor Component) :
    Option CliWasmComponentSpec → Prop
  | some spec => ∃ component, compile bytes spec.limits = .ok component ∧ executor = .wasm component
  | none => executor = .native native

/-- The components of these nodes are read in the order of the nodes, once each, and compiled. -/
structure Reads (compile : List UInt8 → WasmtimeExecutionLimits → Except PureflowError Component)
    (specOf : NodeId → Option CliWasmComponentSpec) (bytes : NodeId → List UInt8)
    (nodes : List NodeDefinition) (events : List (Prog.Event ReadOp.Answer)) : Prop where
  events_eq : events = nodes.flatMap fun node =>
    ((specOf node.id).map (readOf (bytes node.id))).toList
  compiled : ∀ node ∈ nodes, ∀ spec, specOf node.id = some spec →
    ∃ component, compile (bytes node.id) spec.limits = .ok component

/-- This component is the first, in the order of the nodes, that is not read or not compiled:
those of the nodes before were, and nothing is read after it. -/
def Spoilt (compile : List UInt8 → WasmtimeExecutionLimits → Except PureflowError Component)
    (specOf : NodeId → Option CliWasmComponentSpec) (nodes : List NodeDefinition)
    (spec : CliWasmComponentSpec) (events : List (Prog.Event ReadOp.Answer)) (err : CliError) :
    Prop :=
  ∃ before node after bytes earlier answer, nodes = before ++ node :: after ∧
    specOf node.id = some spec ∧ Reads compile specOf bytes before earlier ∧
    events = earlier ++ [⟨.readBytes spec.componentPath, answer⟩] ∧
    (answer = .error err ∨ ∃ bytes source, answer = .ok bytes ∧
      compile bytes spec.limits = .error source ∧ err = .runtime source)

lemma Reads.congr {specOf specOf' : NodeId → Option CliWasmComponentSpec}
    {bytes : NodeId → List UInt8} {nodes : List NodeDefinition}
    (h : Reads compile specOf bytes nodes events)
    (hspecs : ∀ node ∈ nodes, specOf' node.id = specOf node.id) :
    Reads compile specOf' bytes nodes events where
  events_eq := by
    rw [h.events_eq]
    exact List.flatMap_congr fun node hnode => by rw [hspecs node hnode]
  compiled node hnode spec hspec := by
    rw [hspecs node hnode] at hspec
    exact h.compiled node hnode spec hspec

lemma Reads.cons {specOf : NodeId → Option CliWasmComponentSpec} {bytes : NodeId → List UInt8}
    {node : NodeDefinition} {nodes : List NodeDefinition} {first : List UInt8}
    (h : Reads compile specOf bytes nodes events) (hnew : ∀ other ∈ nodes, other.id ≠ node.id)
    (hfirst : ∀ spec, specOf node.id = some spec →
      ∃ component, compile first spec.limits = .ok component) :
    Reads compile specOf (Function.update bytes node.id first) (node :: nodes)
      (((specOf node.id).map (readOf first)).toList ++ events) := by
  have hread : ∀ other ∈ nodes, Function.update bytes node.id first other.id = bytes other.id :=
    fun other hmem => Function.update_of_ne (hnew other hmem) _ _
  constructor
  · rw [List.flatMap_cons, Function.update_self, h.events_eq]
    congr 1
    exact List.flatMap_congr fun other hmem => by rw [hread other hmem]
  · refine List.forall_mem_cons.mpr ⟨?_, fun other hmem => ?_⟩
    · rwa [Function.update_self]
    · rw [hread other hmem]
      exact h.compiled other hmem

lemma yields_readBytes {α : Type} {path : String} {k : Except CliError (List UInt8) → CliM α} {a : α} :
    Prog.Yields (readBytes path >>= k) events a ↔
      ∃ answer rest, events = ⟨.readBytes path, answer⟩ :: rest ∧ Prog.Yields (k answer) rest a :=
  Prog.yields_call

/-- **One node**: its component is read and compiled, unless that fails. -/
lemma executorFor_cases {native : CliNativeExecutor} {nodeId : NodeId}
    {spec : Option CliWasmComponentSpec} (hnative : registry.executors[nodeId]? = some native)
    {result : Except CliError (CliNodeExecutor Component)}
    (h : Prog.Yields (executorFor compile registry nodeId spec) events result) :
    (∃ component err answer, spec = some component ∧ result = .error err ∧
      events = [⟨.readBytes component.componentPath, answer⟩] ∧
      (answer = .error err ∨ ∃ bytes source, answer = .ok bytes ∧
        compile bytes component.limits = .error source ∧ err = .runtime source)) ∨
    ∃ bytes executor, result = .ok executor ∧ events = (spec.map (readOf bytes)).toList ∧
      Provides compile native bytes executor spec := by
  cases spec with
  | none =>
    rw [executorFor, hnative] at h
    obtain ⟨rfl, rfl⟩ := Prog.yields_ret.mp h
    exact .inr ⟨[], _, rfl, rfl, rfl⟩
  | some component =>
    rw [executorFor, yields_readBytes] at h
    obtain ⟨answer, rest, rfl, h⟩ := h
    rcases answer with err | bytes
    · obtain ⟨rfl, rfl⟩ := Prog.yields_ret.mp h
      exact .inl ⟨component, err, _, rfl, rfl, rfl, .inl rfl⟩
    · cases hcompile : compile bytes component.limits with
      | error source =>
        simp only [hcompile] at h
        obtain ⟨rfl, rfl⟩ := Prog.yields_ret.mp h
        exact .inl ⟨component, _, _, rfl, rfl, rfl, .inr ⟨bytes, source, rfl, hcompile, rfl⟩⟩
      | ok wasmComponent =>
        simp only [hcompile] at h
        obtain ⟨rfl, rfl⟩ := Prog.yields_ret.mp h
        exact .inr ⟨bytes, _, rfl, rfl, wasmComponent, hcompile, rfl⟩

lemma Provides.compiled {native : CliNativeExecutor} {bytes : List UInt8}
    {executor : CliNodeExecutor Component} {spec : Option CliWasmComponentSpec}
    (h : Provides compile native bytes executor spec) :
    ∀ found, spec = some found → ∃ component, compile bytes found.limits = .ok component := by
  rintro found rfl
  obtain ⟨component, hcompile, -⟩ := h
  exact ⟨component, hcompile⟩

/-- **The loop over the nodes**: it stops at the first component that is not read or not compiled,
and otherwise every node has its executor. -/
lemma buildExecutors_cases {nodes : List NodeDefinition} (native : NodeDefinition → CliNativeExecutor)
    (hnative : ∀ node ∈ nodes, registry.executors[node.id]? = some (native node))
    (hnodup : (nodes.map (·.id)).Nodup)
    {result : Except CliError
      (ExtTreeMap NodeId CliWasmComponentSpec × ExtTreeMap NodeId (CliNodeExecutor Component))}
    (h : Prog.Yields (buildExecutors compile registry nodes components executors) events result) :
    (∃ spec err, result = .error err ∧ Spoilt compile (components[·]?) nodes spec events err) ∨
    ∃ left built, ∃ bytes : NodeId → List UInt8, result = .ok (left, built) ∧
      Reads compile (components[·]?) bytes nodes events ∧
      (∀ k, (∀ node ∈ nodes, node.id ≠ k) → built[k]? = executors[k]?) ∧
      ∀ node ∈ nodes, ∃ executor, built[node.id]? = some executor ∧
        Provides compile (native node) (bytes node.id) executor components[node.id]? := by
  induction nodes generalizing components executors events with
  | nil =>
    obtain ⟨rfl, rfl⟩ := Prog.yields_ret.mp h
    exact .inr ⟨_, _, fun _ => [], rfl, ⟨rfl, List.forall_mem_nil _⟩, fun _ _ => rfl,
      List.forall_mem_nil _⟩
  | cons node nodes ih =>
    obtain ⟨hfirst, hrest⟩ := List.forall_mem_cons.mp hnative
    obtain ⟨hnew, hnodup⟩ := List.nodup_cons.mp hnodup
    have hother : ∀ other ∈ nodes, other.id ≠ node.id :=
      fun other hmem heq => hnew (List.mem_map.mpr ⟨other, hmem, heq⟩)
    have herased : ∀ other ∈ nodes, components[other.id]? = (components.erase node.id)[other.id]? := by
      intro other hmem
      rw [ExtTreeMap.getElem?_erase, if_neg]
      rw [Std.compare_eq_iff_eq]
      exact (hother other hmem).symm
    obtain ⟨answer, before, after, rfl, hbefore, hcases⟩ := buildExecutors_cons h
    rcases executorFor_cases hfirst hbefore with
      ⟨spec, err, read, hspec, rfl, rfl, hread⟩ | ⟨first, executor, rfl, rfl, hprovides⟩
    · rcases hcases with ⟨err', heq, rfl, rfl⟩ | ⟨executor, heq, -⟩
      · cases heq
        rw [List.append_nil]
        exact .inl ⟨spec, err, rfl, [], node, nodes, fun _ => [], [], read, rfl, hspec,
          ⟨rfl, List.forall_mem_nil _⟩, rfl, hread⟩
      · cases heq
    · rcases hcases with ⟨err, heq, -⟩ | ⟨executor', heq, hloop⟩
      · cases heq
      obtain rfl := Except.ok.inj heq
      rcases ih hrest hnodup hloop with
        ⟨spec, err, rfl, hspoilt⟩ | ⟨left, built, bytes, rfl, hreads, hkept, hbuilt⟩
      · obtain ⟨earlier, other, later, bytes, reads, read, rfl, hspec, hreads, rfl, hread⟩ := hspoilt
        obtain ⟨hearlier, hlater⟩ := List.forall_mem_append.mp herased
        refine .inl ⟨spec, err, rfl, node :: earlier, other, later, _, _, read, rfl,
          (hlater other List.mem_cons_self).trans hspec,
          (hreads.congr hearlier).cons (List.forall_mem_append.mp hother).1 hprovides.compiled,
          (List.append_assoc ..).symm, hread⟩
      · refine .inr ⟨left, built, _, rfl, (hreads.congr herased).cons hother hprovides.compiled,
          fun k hk => ?_, List.forall_mem_cons.mpr ⟨⟨executor, ?_, ?_⟩, fun other hmem => ?_⟩⟩
        · obtain ⟨hne, hk⟩ := List.forall_mem_cons.mp hk
          rw [hkept k hk, ExtTreeMap.getElem?_insert, if_neg]
          rwa [Std.compare_eq_iff_eq]
        · rw [hkept node.id hother, ExtTreeMap.getElem?_insert_self]
        · rw [Function.update_self]
          exact hprovides
        · rw [Function.update_of_ne (hother other hmem), herased other hmem]
          exact hbuilt other hmem

lemma getElem?_componentsByNode {left : ExtTreeMap NodeId CliWasmComponentSpec}
    (h : componentsByNode specs components = .ok left) (k : NodeId) :
    left[k]? = (specFor specs k).or components[k]? := by
  induction specs generalizing components with
  | nil =>
    cases h
    rfl
  | cons spec rest ih =>
    rw [componentsByNode] at h
    split_ifs at h with hmem
    have hfresh := (componentsByNode_ok_iff.mp ⟨left, h⟩).2
    rw [ih h, specFor, specFor, List.find?_cons, ExtTreeMap.getElem?_insert]
    by_cases hk : spec.nodeId = k
    · have hnone : rest.find? (·.nodeId = k) = none := by
        rw [List.find?_eq_none]
        intro other hother heq
        refine hfresh other hother (mem_insert_component.mpr (.inl ?_))
        rw [of_decide_eq_true heq, hk]
      simp [hnone, hk]
    · simp [hk]

lemma specFor_eq (hnodup : (specs.map (·.nodeId)).Nodup) {spec : CliWasmComponentSpec}
    (hspec : spec ∈ specs) : specFor specs spec.nodeId = some spec := by
  obtain ⟨found, hfound⟩ : ∃ found, specFor specs spec.nodeId = some found := by
    rw [← Option.isSome_iff_exists, specFor, List.find?_isSome]
    exact ⟨spec, hspec, by simp⟩
  have hid : found.nodeId = spec.nodeId := by simpa using List.find?_some hfound
  rw [hfound, List.inj_on_of_nodup_map hnodup (List.mem_of_find?_eq_some hfound) hspec hid]

/-- The executors of a run, and the reads they took: the components of the specs are read in the
order of their nodes, once each, and compiled, the other nodes have their native executors, and
there are no others. -/
structure Serves (compile : List UInt8 → WasmtimeExecutionLimits → Except PureflowError Component)
    (workflow : WorkflowDefinition) (specs : List CliWasmComponentSpec)
    (events : List (Prog.Event ReadOp.Answer))
    (executors : ExtTreeMap NodeId (CliNodeExecutor Component)) (bytes : NodeId → List UInt8) :
    Prop where
  reads : events = workflow.nodes.flatMap fun node =>
    ((specFor specs node.id).map (readOf (bytes node.id))).toList
  wasm : ∀ spec ∈ specs, ∃ component, compile (bytes spec.nodeId) spec.limits = .ok component ∧
    executors[spec.nodeId]? = some (.wasm component)
  native : ∀ node ∈ workflow.nodes, (∀ spec ∈ specs, spec.nodeId ≠ node.id) →
    executors[node.id]? = some (.native (nativeExecutor workflow node))
  others : ∀ k, (∀ node ∈ workflow.nodes, node.id ≠ k) → executors[k]? = none

lemma serves_of_built {built : ExtTreeMap NodeId (CliNodeExecutor Component)}
    {bytes : NodeId → List UInt8} (hknown : ∀ spec ∈ specs, Known workflow spec)
    (hnodup : (specs.map (·.nodeId)).Nodup)
    (hreads : Reads compile (specFor specs) bytes workflow.nodes events)
    (hkept : ∀ k, (∀ node ∈ workflow.nodes, node.id ≠ k) → built[k]? = none)
    (hbuilt : ∀ node ∈ workflow.nodes, ∃ executor, built[node.id]? = some executor ∧
      Provides compile (nativeExecutor workflow node) (bytes node.id) executor
        (specFor specs node.id)) :
    Serves compile workflow specs events built bytes := by
  refine ⟨hreads.events_eq, fun spec hspec => ?_, fun node hnode hnone => ?_, hkept⟩
  · obtain ⟨node, hnode, hid⟩ := hknown spec hspec
    obtain ⟨executor, hfound, hprovides⟩ := hbuilt node hnode
    rw [hid, specFor_eq hnodup hspec] at hprovides
    obtain ⟨component, hcompile, rfl⟩ := hprovides
    exact ⟨component, hcompile, by rw [← hid, hfound]⟩
  · obtain ⟨executor, hfound, hprovides⟩ := hbuilt node hnode
    have hspec : specFor specs node.id = none := by
      rw [specFor, List.find?_eq_none]
      exact fun spec hspec heq => hnone spec hspec (of_decide_eq_true heq)
    rw [hspec] at hprovides
    rw [hfound, hprovides]

lemma native_found {node : NodeDefinition} (hnode : node ∈ workflow.nodes) :
    (nativeRegistryForWorkflow workflow).executors[node.id]? =
      some (nativeExecutor workflow node) := by
  have hkeys : ((workflow.nodes.map fun node => (node.id, nativeExecutor workflow node)).map
      Prod.fst).Nodup := by
    rw [List.map_map]
    exact (graph_valid workflow).1
  exact (Grouping.ofEntries_eq_some_iff hkeys).mpr (List.mem_map.mpr ⟨node, hnode, rfl⟩)

/-- The first of these specs that names the node of an earlier one. -/
def FirstRepeated (specs : List CliWasmComponentSpec) (spec : CliWasmComponentSpec) : Prop :=
  ∃ before after, specs = before ++ spec :: after ∧ (before.map (·.nodeId)).Nodup ∧
    spec.nodeId ∈ before.map (·.nodeId)

/-- The least node that the workflow does not have and one of these specs names. -/
def LeastUnknown (workflow : WorkflowDefinition) (specs : List CliWasmComponentSpec)
    (k : NodeId) : Prop :=
  (∃ spec ∈ specs, ¬ Known workflow spec ∧ spec.nodeId = k) ∧
    ∀ spec ∈ specs, ¬ Known workflow spec → (compare k spec.nodeId).isLE

/-- The loop over the specs stops at the first that names the node of one before it. -/
lemma componentsByNode_error {err : CliError} (h : componentsByNode specs components = .error err) :
    ∃ before spec after, specs = before ++ spec :: after ∧ (before.map (·.nodeId)).Nodup ∧
      (spec.nodeId ∈ components ∨ spec.nodeId ∈ before.map (·.nodeId)) ∧
      (∀ other ∈ before, other.nodeId ∉ components) ∧
      err = .wasmManifest s!"duplicate WASM component entry for node `{spec.nodeId}`" := by
  induction specs generalizing components with
  | nil => cases h
  | cons first rest ih =>
    rw [componentsByNode] at h
    split_ifs at h with hmem
    · obtain rfl := Except.error.inj h
      exact ⟨[], first, rest, rfl, List.nodup_nil, .inl hmem, List.forall_mem_nil _, rfl⟩
    · obtain ⟨before, spec, after, rfl, hnodup, hrepeated, hfresh, rfl⟩ := ih h
      simp only [mem_insert_component, not_or] at hrepeated hfresh
      refine ⟨first :: before, spec, after, rfl, ?_, ?_, ?_, rfl⟩
      · rw [List.map_cons, List.nodup_cons, List.mem_map]
        refine ⟨?_, hnodup⟩
        rintro ⟨other, hother, heq⟩
        exact (hfresh other hother).1 heq.symm
      · rw [List.map_cons, List.mem_cons]
        tauto
      · exact List.forall_mem_cons.mpr ⟨hmem, fun other hother => (hfresh other hother).2⟩

lemma repeated_rejected (hdup : ¬ (specs.map (·.nodeId)).Nodup)
    {result : Except CliError (StaticNodeExecutorRegistry (CliNodeExecutor Component))}
    (hrun : Prog.Yields (mixedRegistryForWorkflow compile workflow specs) events result) :
    events = [] ∧ ∃ spec, FirstRepeated specs spec ∧ result = .error
      (.wasmManifest s!"duplicate WASM component entry for node `{spec.nodeId}`") := by
  rw [mixedRegistryForWorkflow] at hrun
  cases hcomponents : componentsByNode specs ∅ with
  | ok components => exact absurd (componentsByNode_ok_iff.mp ⟨components, hcomponents⟩).1 hdup
  | error err =>
    rw [hcomponents] at hrun
    obtain ⟨rfl, rfl⟩ := Prog.yields_ret.mp hrun
    obtain ⟨before, spec, after, hsplit, hnodup, hrepeated, -, rfl⟩ :=
      componentsByNode_error hcomponents
    exact ⟨rfl, spec, ⟨before, after, hsplit, hnodup,
      hrepeated.resolve_left ExtTreeMap.not_mem_empty⟩, rfl⟩

lemma leastUnknown_of_head {left : ExtTreeMap NodeId CliWasmComponentSpec} {k : NodeId}
    (hleft : ∀ j, j ∈ left ↔ ∃ spec ∈ specs, ¬ Known workflow spec ∧ spec.nodeId = j)
    (hhead : left.keys.head? = some k) : LeastUnknown workflow specs k := by
  obtain ⟨rest, hkeys⟩ := List.head?_eq_some_iff.mp hhead
  have hordered := ExtTreeMap.ordered_keys (t := left)
  rw [hkeys, List.pairwise_cons] at hordered
  refine ⟨(hleft k).mp ?_, fun spec hspec hunknown => ?_⟩
  · rw [← ExtTreeMap.mem_keys, hkeys]
    exact List.mem_cons_self
  · have hmem : spec.nodeId ∈ left.keys :=
      ExtTreeMap.mem_keys.mpr ((hleft _).mpr ⟨spec, hspec, hunknown, rfl⟩)
    rw [hkeys, List.mem_cons] at hmem
    rcases hmem with heq | hrest
    · rw [heq, Std.compare_self]
      rfl
    · rw [hordered.1 _ hrest]
      rfl

/-- **What becomes of specs that name no node twice**: the first component that is not read or not
compiled ends it, or else all of the workflow's nodes are read, and then a node that the workflow
does not have is an error and the executors serve the specs where there is none. -/
lemma build_cases
    {compile : List UInt8 → WasmtimeExecutionLimits → Except PureflowError Component}
    {workflow : WorkflowDefinition} {specs : List CliWasmComponentSpec}
    {events : List (Prog.Event ReadOp.Answer)}
    {result : Except CliError (StaticNodeExecutorRegistry (CliNodeExecutor Component))}
    (hnodup : (specs.map (·.nodeId)).Nodup)
    (hrun : Prog.Yields (mixedRegistryForWorkflow compile workflow specs) events result) :
    (∃ spec ∈ specs, ∃ err, result = .error err ∧
      Spoilt compile (specFor specs) workflow.nodes spec events err) ∨
    ∃ bytes, Reads compile (specFor specs) bytes workflow.nodes events ∧
      ((∃ k, LeastUnknown workflow specs k ∧ result = .error
        (.wasmManifest s!"WASM component manifest references unknown workflow node `{k}`")) ∨
      (∀ spec ∈ specs, Known workflow spec) ∧ ∃ registry, result = .ok registry ∧
        Serves compile workflow specs events registry.executors bytes) := by
  obtain ⟨components, hcomponents, hmem⟩ := exists_components hnodup
  have hspecs : (fun k : NodeId => components[k]?) = specFor specs := by
    funext k
    rw [getElem?_componentsByNode hcomponents]
    simp
  rw [mixedRegistryForWorkflow, hcomponents] at hrun
  obtain ⟨answer, before, after, rfl, hbefore, hafter⟩ := Prog.yields_bind.mp hrun
  have hcases := buildExecutors_cases (nativeExecutor workflow) (fun _ => native_found)
    (graph_valid workflow).1 hbefore
  rw [hspecs] at hcases
  rcases hcases with ⟨spec, err, rfl, hspoilt⟩ | ⟨left, built, bytes, rfl, hreads, hkept, hbuilt⟩
  · obtain ⟨rfl, rfl⟩ := Prog.yields_ret.mp hafter
    obtain ⟨-, node, -, -, -, -, -, hspec, -⟩ := id hspoilt
    rw [List.append_nil]
    exact .inl ⟨spec, List.mem_of_find?_eq_some hspec, err, rfl, hspoilt⟩
  · -- what is left are the specs of no node
    have hleft (k : NodeId) :
        k ∈ left ↔ ∃ spec ∈ specs, ¬ Known workflow spec ∧ spec.nodeId = k := by
      rw [mem_left hbefore k, hmem]
      constructor
      · rintro ⟨⟨spec, hspec, rfl⟩, hout⟩
        refine ⟨spec, hspec, ?_, rfl⟩
        rintro ⟨node, hnode, hid⟩
        exact hout node hnode hid
      · rintro ⟨spec, hspec, hunknown, rfl⟩
        exact ⟨⟨spec, hspec, rfl⟩, fun node hnode hid => hunknown ⟨node, hnode, hid⟩⟩
    simp only at hafter
    cases hhead : left.keys.head? with
    | some k =>
      rw [hhead] at hafter
      obtain ⟨rfl, rfl⟩ := Prog.yields_ret.mp hafter
      rw [List.append_nil]
      exact .inr ⟨bytes, hreads, .inl ⟨k, leastUnknown_of_head hleft hhead, rfl⟩⟩
    | none =>
      rw [hhead] at hafter
      obtain ⟨rfl, rfl⟩ := Prog.yields_ret.mp hafter
      rw [List.append_nil]
      have hknown : ∀ spec ∈ specs, Known workflow spec := by
        intro spec hspec
        by_contra hunknown
        have hin := ExtTreeMap.mem_keys.mpr ((hleft _).mpr ⟨spec, hspec, hunknown, rfl⟩)
        rw [List.head?_eq_none_iff.mp hhead] at hin
        cases hin
      refine .inr ⟨bytes, hreads, .inr ⟨hknown, ⟨built⟩, rfl, serves_of_built hknown hnodup hreads
        (fun k hk => ?_) fun node hnode => ?_⟩⟩
      · rw [hkept k hk]
        exact ExtTreeMap.getElem?_empty
      · obtain ⟨executor, hfound, hprovides⟩ := hbuilt node hnode
        rw [show components[node.id]? = specFor specs node.id from congrFun hspecs node.id]
          at hprovides
        exact ⟨executor, hfound, hprovides⟩

lemma spoilt_or_served
    {compile : List UInt8 → WasmtimeExecutionLimits → Except PureflowError Component}
    {workflow : WorkflowDefinition} {specs : List CliWasmComponentSpec}
    {events : List (Prog.Event ReadOp.Answer)}
    {result : Except CliError (StaticNodeExecutorRegistry (CliNodeExecutor Component))}
    (herror : ¬ ManifestError workflow specs)
    (hrun : Prog.Yields (mixedRegistryForWorkflow compile workflow specs) events result) :
    (∃ spec ∈ specs, ∃ err, result = .error err ∧
      Spoilt compile (specFor specs) workflow.nodes spec events err) ∨
      ∃ registry bytes, result = .ok registry ∧
        Serves compile workflow specs events registry.executors bytes := by
  obtain ⟨hknown, hnodup⟩ := not_or.mp herror
  rcases build_cases (not_not.mp hnodup) hrun with
    hspoilt | ⟨bytes, -, ⟨k, ⟨⟨spec, hspec, hunknown, -⟩, -⟩, -⟩ | ⟨-, registry, hok, hserves⟩⟩
  · exact .inl hspoilt
  · exact absurd ⟨spec, hspec, hunknown⟩ hknown
  · exact .inr ⟨registry, bytes, hok, hserves⟩

/-- **What becomes of a manifest.** Specs that name a node twice are rejected before anything is
read. Otherwise the components of the workflow's nodes are read and compiled in the order of the
nodes, and the first for which that fails ends it. When none has failed, a node that the workflow
does not have is an error, and where there is no such node the executors serve the specs. -/
theorem mixedRegistry_cases
    (compile : List UInt8 → WasmtimeExecutionLimits → Except PureflowError Component)
    (workflow : WorkflowDefinition) (specs : List CliWasmComponentSpec)
    (events : List (Prog.Event ReadOp.Answer))
    (result : Except CliError (StaticNodeExecutorRegistry (CliNodeExecutor Component)))
    (hrun : Prog.Yields (mixedRegistryForWorkflow compile workflow specs) events result) :
    (¬ (specs.map (·.nodeId)).Nodup ∧ events = [] ∧ ∃ spec, FirstRepeated specs spec ∧
      result = .error
        (.wasmManifest s!"duplicate WASM component entry for node `{spec.nodeId}`")) ∨
    (specs.map (·.nodeId)).Nodup ∧
      ((∃ spec ∈ specs, ∃ err, result = .error err ∧
        Spoilt compile (specFor specs) workflow.nodes spec events err) ∨
      ∃ bytes, Reads compile (specFor specs) bytes workflow.nodes events ∧
        ((∃ k, LeastUnknown workflow specs k ∧ result = .error
          (.wasmManifest s!"WASM component manifest references unknown workflow node `{k}`")) ∨
        (∀ spec ∈ specs, Known workflow spec) ∧ ∃ registry, result = .ok registry ∧
          Serves compile workflow specs events registry.executors bytes)) := by
  by_cases hnodup : (specs.map (·.nodeId)).Nodup
  · exact .inr ⟨hnodup, build_cases hnodup hrun⟩
  · exact .inl ⟨hnodup, repeated_rejected hnodup hrun⟩

end Registry

section Results

variable {Component : Type}

lemma yields_setUpRun {json : JsonLibrary} {paths : Paths}
    {compile : List UInt8 → WasmtimeExecutionLimits → Except PureflowError Component}
    {formats : FormatLibraries} {manifestInput manifestPath input path : String}
    {specs : List CliWasmComponentSpec} {workflow : WorkflowDefinition}
    (hspecs : wasmComponentSpecsFromManifest json paths manifestInput manifestPath = .ok specs)
    (hworkflow : loadWorkflow json paths formats input path = .ok workflow)
    {events : List (Prog.Event ReadOp.Answer)}
    {result : Except CommandError
      (WorkflowDefinition × StaticNodeExecutorRegistry (CliNodeExecutor Component))}
    (h : Prog.Yields
      (setUpRun json paths compile formats manifestInput manifestPath input path) events result) :
    ∃ built, Prog.Yields (mixedRegistryForWorkflow compile workflow specs) events built ∧
      result = (built.map (workflow, ·)).mapError .cli := by
  rw [setUpRun, hspecs] at h
  simp only [hworkflow] at h
  obtain ⟨built, before, after, rfl, hbefore, hafter⟩ := Prog.yields_bind.mp h
  rcases built with err | registry
  · obtain ⟨rfl, rfl⟩ := Prog.yields_ret.mp hafter
    exact ⟨_, by rwa [List.append_nil], rfl⟩
  · obtain ⟨rfl, rfl⟩ := Prog.yields_ret.mp hafter
    exact ⟨_, by rwa [List.append_nil], rfl⟩

/-- **A manifest that validates is one that runs.** Where it validates, a run with it fails in its
setup for a component that is not read or not compiled and for nothing else, and otherwise its
executors serve the manifest. And where the setup of a run succeeds, the manifest validates, as
long as its components were there. -/
theorem validManifest_runs (json : JsonLibrary) (paths : Paths)
    (compile : List UInt8 → WasmtimeExecutionLimits → Except PureflowError Component)
    (formats : FormatLibraries) (manifestInput manifestPath input path : String)
    (hextension : paths.extension path = none ∨ paths.extension path = some "json") :
    ((∃ text, validateWasmComponentManifest json paths manifestInput manifestPath (some input) =
        .ok text) →
      ∃ specs workflow,
        wasmComponentSpecsFromManifest json paths manifestInput manifestPath = .ok specs ∧
        ∀ events result, Prog.Yields
          (setUpRun json paths compile formats manifestInput manifestPath input path) events result →
          (∃ spec ∈ specs, ∃ err, result = .error (.cli err) ∧
            Spoilt compile (specFor specs) workflow.nodes spec events err) ∨
          ∃ registry bytes, result = .ok (workflow, registry) ∧
            Serves compile workflow specs events registry.executors bytes) ∧
    ∀ specs, wasmComponentSpecsFromManifest json paths manifestInput manifestPath = .ok specs →
      (∀ spec ∈ specs, paths.pathExists spec.componentPath = true) → ∀ events built,
        Prog.Yields (setUpRun json paths compile formats manifestInput manifestPath input path)
          events (.ok built) →
        ∃ text, validateWasmComponentManifest json paths manifestInput manifestPath (some input) =
          .ok text := by
  have hload : loadWorkflow json paths formats input path =
      (workflowFromJsonStr json input).mapError .workflowJson := by
    rcases hextension with hnone | hjson
    · rw [loadWorkflow, hnone]
    · rw [loadWorkflow, hjson]
      rfl
  constructor
  · intro hvalid
    obtain ⟨specs, workflow, hspecs, hworkflow, herror, -⟩ := validateManifest_ok.mp hvalid
    refine ⟨specs, workflow, hspecs, fun events result hrun => ?_⟩
    have hloaded : loadWorkflow json paths formats input path = .ok workflow := by
      rw [hload, hworkflow]
      rfl
    obtain ⟨built, hbuilt, rfl⟩ := yields_setUpRun hspecs hloaded hrun
    rcases spoilt_or_served herror hbuilt with hspoilt | hserves
    · obtain ⟨spec, hspec, err, rfl, hspoilt⟩ := hspoilt
      exact .inl ⟨spec, hspec, err, rfl, hspoilt⟩
    · obtain ⟨registry, bytes, rfl, hserves⟩ := hserves
      exact .inr ⟨registry, bytes, rfl, hserves⟩
  · intro specs hspecs hexist events built hrun
    cases hworkflow : workflowFromJsonStr json input with
    | error err =>
      rw [setUpRun, hspecs] at hrun
      simp only [hload, hworkflow, Except.mapError] at hrun
      obtain ⟨-, heq⟩ := Prog.yields_ret.mp hrun
      cases heq
    | ok workflow =>
      have hloaded : loadWorkflow json paths formats input path = .ok workflow := by
        rw [hload, hworkflow]
        rfl
      obtain ⟨registry, hbuilt, heq⟩ := yields_setUpRun hspecs hloaded hrun
      refine validateManifest_ok.mpr ⟨specs, workflow, hspecs, hworkflow, fun herror => ?_, hexist⟩
      obtain ⟨err, rfl⟩ := manifestError_rejected herror hbuilt
      cases heq

/-- A manifest with a component for the one node of the workflow beside it. -/
def manifestDocument : Value := .object [("components", .array [.object
  [("node", .string "a"), ("component", .string "a.wasm"), ("fuel", .number (.posInt 7))]])]

def manifestText : String :=
  "\x7b\"components\":[\x7b\"node\":\"a\",\"component\":\"a.wasm\",\"fuel\":7\x7d]\x7d"

def passiveDocument : Value := .object [
  ("pureflow_version", .string "1"), ("id", .string "flow"),
  ("nodes", .array [.object
    [("id", .string "a"), ("inputs", .array []), ("outputs", .array [])]]),
  ("edges", .array [])]

def passiveText : String :=
  "\x7b\"pureflow_version\":\"1\",\"id\":\"flow\"," ++
  "\"nodes\":[\x7b\"id\":\"a\",\"inputs\":[],\"outputs\":[]\x7d],\"edges\":[]\x7d"

/-- What the JSON library does with the two texts. -/
def manifestJson : JsonLibrary where
  toStringPretty _ := .ok passiveText
  fromStr input :=
    if input = manifestText then .ok manifestDocument
    else (libraryOf passiveText passiveDocument).fromStr input
  rejection _ := "invalid type"

def manifestPaths : Paths where
  parent _ := some "components"
  extension _ := some "json"
  pathExists path := path = "components/a.wasm"

/-- The component without anything in it, in binary. -/
def emptyComponent : List UInt8 := [0x00, 0x61, 0x73, 0x6d, 0x0d, 0x00, 0x01, 0x00]

/-- A compiler for that component alone. -/
def compileEmpty (bytes : List UInt8) (_limits : WasmtimeExecutionLimits) :
    Except PureflowError Unit :=
  if bytes = emptyComponent then .ok ()
  else .error (.execution "failed to compile component: unsupported section")

theorem validManifest_runs_sample : ∃ specs workflow,
    wasmComponentSpecsFromManifest manifestJson manifestPaths manifestText "components/m.json" =
      .ok specs ∧
    ∀ events result, Prog.Yields (setUpRun manifestJson manifestPaths compileEmpty
      noFormats manifestText "components/m.json" passiveText "flow.json") events result →
      (∃ spec ∈ specs, ∃ err, result = .error (.cli err) ∧
        Spoilt compileEmpty (specFor specs) workflow.nodes spec events err) ∨
      ∃ registry bytes, result = .ok (workflow, registry) ∧
        Serves compileEmpty workflow specs events registry.executors bytes := by
  have hvalid : (validateWasmComponentManifest manifestJson manifestPaths manifestText
      "components/m.json" (some passiveText)).toBool = true := by
    decide +kernel
  exact (validManifest_runs manifestJson manifestPaths _ noFormats _ _ _ _ (.inr rfl)).1
    (Result.exists_ok hvalid)

/-- The component of the node there is, and then the error for the other. -/
theorem mixedRegistry_cases_sample : ∃ events result,
    Prog.Yields (mixedRegistryForWorkflow compileEmpty passiveWorkflow sampleSpecs)
      events result ∧
    ((∃ spec ∈ sampleSpecs, ∃ err, result = .error err ∧
      Spoilt compileEmpty (specFor sampleSpecs) passiveWorkflow.nodes spec events err) ∨
    ∃ bytes, Reads compileEmpty (specFor sampleSpecs) bytes passiveWorkflow.nodes events ∧
      ∃ k, LeastUnknown passiveWorkflow sampleSpecs k ∧ result = .error
        (.wasmManifest s!"WASM component manifest references unknown workflow node `{k}`")) := by
  have hnodup : (sampleSpecs.map (·.nodeId)).Nodup := by decide
  have hmissing : ¬ ∀ spec ∈ sampleSpecs, Known passiveWorkflow spec := by
    intro hall
    obtain ⟨node, hnode, hid⟩ := hall _ List.mem_cons_self
    obtain rfl := List.mem_singleton.mp hnode
    exact absurd hid (by decide)
  obtain ⟨events, result, hrun⟩ := Prog.exists_yields
    (mixedRegistryForWorkflow compileEmpty passiveWorkflow sampleSpecs)
  refine ⟨events, result, hrun, ?_⟩
  rcases mixedRegistry_cases _ passiveWorkflow sampleSpecs _ result hrun with
    ⟨hdup, -⟩ | ⟨-, hspoilt | ⟨bytes, hreads, hunknown | ⟨hknown, -⟩⟩⟩
  · exact absurd hnodup hdup
  · exact .inl hspoilt
  · exact .inr ⟨bytes, hreads, hunknown⟩
  · exact absurd hknown hmissing

end Results

end Pureflow.Cli
