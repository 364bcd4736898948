import Pureflow.Core.Projection
import Pureflow.Introspection.Workflow

/-!
The JSON of the view of a workflow. Nothing of the view is lost in it.
-/

namespace Pureflow.Introspection

open Pureflow.Types Pureflow.Core Pureflow.Workflow Pureflow.Contract Pureflow.Lib.Json

section Labels

def executionModeLabel : ExecutionMode → String
  | .native => "native"
  | .wasm => "wasm"
  | .process => "process"

def enforcementLabel : EnforcementLevel → String
  | .advisory => "advisory"
  | .strict => "strict"

def determinismLabel : Determinism → String
  | .deterministic => "deterministic"
  | .nonDeterministic => "non_deterministic"
  | .unknown => "unknown"

def retryLabel : RetryDisposition → String
  | .never => "never"
  | .safe => "safe"
  | .unknown => "unknown"

def portDirectionLabel : PortDirection → String
  | .input => "input"
  | .output => "output"

def portCapabilityLabel : PortCapabilityDirection → String
  | .receive => "receive"
  | .emit => "emit"

def effectLabel (effect : EffectCapability) : String := effect.asStr

end Labels

section Shapes

def edgeCapacityToJson : EdgeCapacity → Value
  | .default => .object [("kind", .string "default")]
  | .explicit value => .object [("kind", .string "explicit"), ("value", usizeValue value)]

def endpointToJson (endpoint : EndpointIntrospection) : Value := .object [
  ("node_id", .string endpoint.nodeId.asStr),
  ("port_id", .string endpoint.portId.asStr)]

def schemaToJson (schema : Option SchemaRef) : Value := orNull (fun s => .string s.value) schema

def edgeToJson (edge : EdgeIntrospection) : Value := .object [
  ("capacity", edgeCapacityToJson edge.capacity),
  ("source", endpointToJson edge.source),
  ("source_schema", schemaToJson edge.sourceSchema),
  ("target", endpointToJson edge.target),
  ("target_schema", schemaToJson edge.targetSchema)]

def portToJson (port : PortIntrospection) : Value := .object [
  ("capability", .string (portCapabilityLabel port.capability)),
  ("direction", .string (portDirectionLabel port.direction)),
  ("port_id", .string port.portId.asStr),
  ("schema", schemaToJson port.schema)]

def nodeToJson (node : NodeIntrospection) : Value := .object [
  ("determinism", .string (determinismLabel node.determinism)),
  ("effects", .array (node.effects.map fun effect => .string (effectLabel effect))),
  ("enforcement", .string (enforcementLabel node.enforcement)),
  ("execution_mode", .string (executionModeLabel node.executionMode)),
  ("node_id", .string node.nodeId.asStr),
  ("ports", .array (node.ports.map portToJson)),
  ("retry", .string (retryLabel node.retry))]

/-- The entries of each object come in key order. -/
def workflowIntrospectionToJsonValue (introspection : WorkflowIntrospection) : Value := .object [
  ("edges", .array (introspection.edges.map edgeToJson)),
  ("nodes", .array (introspection.nodes.map nodeToJson)),
  ("workflow_id", .string introspection.workflowId.asStr)]

end Shapes

section Injectivity

lemma executionModeLabel_inj {a b : ExecutionMode} :
    executionModeLabel a = executionModeLabel b ↔ a = b := by
  cases a <;> cases b <;> decide

lemma enforcementLabel_inj {a b : EnforcementLevel} :
    enforcementLabel a = enforcementLabel b ↔ a = b := by
  cases a <;> cases b <;> decide

lemma determinismLabel_inj {a b : Determinism} : determinismLabel a = determinismLabel b ↔ a = b := by
  cases a <;> cases b <;> decide

lemma retryLabel_inj {a b : RetryDisposition} : retryLabel a = retryLabel b ↔ a = b := by
  cases a <;> cases b <;> decide

lemma portDirectionLabel_inj {a b : PortDirection} :
    portDirectionLabel a = portDirectionLabel b ↔ a = b := by
  cases a <;> cases b <;> decide

lemma portCapabilityLabel_inj {a b : PortCapabilityDirection} :
    portCapabilityLabel a = portCapabilityLabel b ↔ a = b := by
  cases a <;> cases b <;> decide

lemma schemaToJson_inj {a b : Option SchemaRef} : schemaToJson a = schemaToJson b ↔ a = b := by
  refine orNull_inj ?_ fun _ h => by cases h
  rintro ⟨value, hvalue⟩ ⟨other, hother⟩ h
  cases h
  rfl

lemma endpointToJson_inj {a b : EndpointIntrospection} :
    endpointToJson a = endpointToJson b ↔ a = b := by
  obtain ⟨nodeId, portId⟩ := a
  obtain ⟨nodeId', portId'⟩ := b
  simp [endpointToJson]

/-- A capacity that is a machine word. -/
def CapacityInWord : EdgeCapacity → Prop
  | .default => True
  | .explicit capacity => (capacity : ℕ) < 2 ^ 64

lemma edgeCapacityToJson_inj {a b : EdgeCapacity} (ha : CapacityInWord a) (hb : CapacityInWord b) :
    edgeCapacityToJson a = edgeCapacityToJson b ↔ a = b := by
  cases a with
  | default => cases b <;> simp [edgeCapacityToJson]
  | explicit n =>
    cases b with
    | default => simp [edgeCapacityToJson]
    | explicit m => simp [edgeCapacityToJson, usizeValue_inj ha hb]

lemma edgeToJson_inj {a b : EdgeIntrospection} (ha : CapacityInWord a.capacity)
    (hb : CapacityInWord b.capacity) : edgeToJson a = edgeToJson b ↔ a = b := by
  obtain ⟨source, target, capacity, sourceSchema, targetSchema⟩ := a
  obtain ⟨source', target', capacity', sourceSchema', targetSchema'⟩ := b
  simp only [edgeToJson, Value.object.injEq, List.cons.injEq, Prod.mk.injEq, true_and, and_true,
    edgeCapacityToJson_inj ha hb, endpointToJson_inj, schemaToJson_inj, EdgeIntrospection.mk.injEq]
  tauto

lemma portToJson_injective : Function.Injective portToJson := by
  rintro ⟨portId, direction, schema, capability⟩ ⟨portId', direction', schema', capability'⟩ h
  simp only [portToJson, Value.object.injEq, List.cons.injEq, Prod.mk.injEq, true_and, and_true,
    Value.string.injEq, portCapabilityLabel_inj, portDirectionLabel_inj, asStr_inj,
    schemaToJson_inj] at h
  obtain ⟨rfl, rfl, rfl, rfl⟩ := h
  rfl

lemma effects_injective :
    Function.Injective fun effect : EffectCapability => Value.string (effectLabel effect) :=
  fun _ _ h => effect_asStr_inj.mp (Value.string.inj h)

lemma nodeToJson_injective : Function.Injective nodeToJson := by
  rintro ⟨nodeId, ports, mode, enforcement, determinism, retry, effects⟩
    ⟨nodeId', ports', mode', enforcement', determinism', retry', effects'⟩ h
  simp only [nodeToJson, Value.object.injEq, List.cons.injEq, Prod.mk.injEq, true_and, and_true,
    Value.string.injEq, Value.array.injEq, determinismLabel_inj, enforcementLabel_inj,
    executionModeLabel_inj, retryLabel_inj, asStr_inj, portToJson_injective.list_map.eq_iff,
    effects_injective.list_map.eq_iff] at h
  obtain ⟨rfl, rfl, rfl, rfl, rfl, rfl, rfl⟩ := h
  rfl

/-- The edges' capacities are machine words. -/
def WorkflowIntrospection.InWords (view : WorkflowIntrospection) : Prop :=
  ∀ edge ∈ view.edges, CapacityInWord edge.capacity

lemma map_inj_on {α β : Type} {f : α → β} {P : α → Prop}
    (hf : ∀ a b, P a → P b → f a = f b → a = b) {xs ys : List α} (hxs : ∀ x ∈ xs, P x)
    (hys : ∀ y ∈ ys, P y) (h : xs.map f = ys.map f) : xs = ys := by
  induction xs generalizing ys with
  | nil => exact (List.map_eq_nil_iff.mp h.symm).symm
  | cons x xs ih =>
    obtain ⟨y, ys, rfl, hxy, hrest⟩ := List.map_eq_cons_iff.mp h.symm
    rw [List.forall_mem_cons] at hxs hys
    rw [hf x y hxs.1 hys.1 hxy.symm, ih hxs.2 hys.2 hrest.symm]

/-- **A view is known by its JSON.** -/
lemma workflowIntrospectionToJsonValue_inj {a b : WorkflowIntrospection} (ha : a.InWords)
    (hb : b.InWords)
    (h : workflowIntrospectionToJsonValue a = workflowIntrospectionToJsonValue b) : a = b := by
  obtain ⟨workflowId, nodes, edges⟩ := a
  obtain ⟨workflowId', nodes', edges'⟩ := b
  simp only [workflowIntrospectionToJsonValue, Value.object.injEq, List.cons.injEq, Prod.mk.injEq,
    true_and, and_true, Value.string.injEq, Value.array.injEq, asStr_inj,
    nodeToJson_injective.list_map.eq_iff] at h
  obtain ⟨hedges, rfl, rfl⟩ := h
  obtain rfl : edges = edges' :=
    map_inj_on (fun _ _ hx hy => (edgeToJson_inj hx hy).mp) ha hb hedges
  rfl

end Injectivity

section Recovery

lemma inputs_of_declaredPorts (node : NodeDefinition) :
    ((declaredPorts node).filter (·.2 = .input)).map Prod.fst = node.inputPorts := by
  simp [declaredPorts, List.filter_map, Function.comp_def]

lemma outputs_of_declaredPorts (node : NodeDefinition) :
    ((declaredPorts node).filter (·.2 = .output)).map Prod.fst = node.outputPorts := by
  simp [declaredPorts, List.filter_map, Function.comp_def]

lemma node_eq_of_declaredPorts {a b : NodeDefinition} (hid : a.id = b.id)
    (hports : declaredPorts a = declaredPorts b) : a = b := by
  have hinputs : a.inputPorts = b.inputPorts := by
    rw [← inputs_of_declaredPorts, hports, inputs_of_declaredPorts]
  have houtputs : a.outputPorts = b.outputPorts := by
    rw [← outputs_of_declaredPorts, hports, outputs_of_declaredPorts]
  obtain ⟨id, inputs, outputs, valid⟩ := a
  obtain ⟨id', inputs', outputs', valid'⟩ := b
  dsimp only at hid hinputs houtputs
  subst hid hinputs houtputs
  rfl

lemma edges_eq_of_endpoints {es fs : List EdgeDefinition}
    (h : (es.map fun edge => (EndpointIntrospection.fromEndpoint edge.source,
        EndpointIntrospection.fromEndpoint edge.target, edge.capacity)) =
      fs.map fun edge => (EndpointIntrospection.fromEndpoint edge.source,
        EndpointIntrospection.fromEndpoint edge.target, edge.capacity)) : es = fs := by
  refine List.map_injective_iff.mpr ?_ h
  rintro ⟨⟨node, port⟩, ⟨node', port'⟩, capacity⟩ ⟨⟨other, oport⟩, ⟨other', oport'⟩, ocapacity⟩ h
  simp only [EndpointIntrospection.fromEndpoint, Prod.mk.injEq,
    EndpointIntrospection.mk.injEq] at h
  obtain ⟨⟨rfl, rfl⟩, ⟨rfl, rfl⟩, rfl⟩ := h
  rfl

/-- **A workflow is known by any view that lists it.** -/
lemma Lists.unique {w w' : WorkflowDefinition} {view : WorkflowIntrospection} (h : Lists w view)
    (h' : Lists w' view) : w = w' := by
  obtain ⟨id, ⟨nodes, edges, valid⟩⟩ := w
  obtain ⟨id', ⟨nodes', edges', valid'⟩⟩ := w'
  obtain rfl : id = id' := h.workflowId.symm.trans h'.workflowId
  obtain rfl : edges = edges' := edges_eq_of_endpoints (h.edges.symm.trans h'.edges)
  obtain rfl : nodes = nodes' := by
    refine List.left_unique_forall₂' ?_ h.nodes h'.nodes
    rintro node view other ⟨hid, hports⟩ ⟨hid', hports'⟩
    exact node_eq_of_declaredPorts (hid.symm.trans hid') (hports.symm.trans hports')
  rfl

lemma Lists.inWords {w : WorkflowDefinition} {view : WorkflowIntrospection} (h : Lists w view)
    (hwords : ∀ edge ∈ w.edges, CapacityInWord edge.capacity) : view.InWords := by
  intro edge hedge
  have hmem : (edge.source, edge.target, edge.capacity) ∈
      view.edges.map fun edge => (edge.source, edge.target, edge.capacity) :=
    List.mem_map.mpr ⟨edge, hedge, rfl⟩
  rw [h.edges] at hmem
  obtain ⟨own, hown, heq⟩ := List.mem_map.mp hmem
  have hcapacity : own.capacity = edge.capacity := congrArg (fun p => p.2.2) heq
  exact hcapacity ▸ hwords own hown

end Recovery

end Pureflow.Introspection
