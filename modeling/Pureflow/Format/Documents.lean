import Pureflow.Format.Raw
import Pureflow.Lib.Result

/-!
Workflow documents as JSON text: what the derived deserialisers read of them and what the derived
serialisers write.

Unlike rule sets, the records of a workflow document refuse fields they do not know.
-/

namespace Pureflow.Format

open Pureflow.Workflow Pureflow.Lib Pureflow.Lib.Serde Pureflow.Lib.Json

/-- The JSON library: the pretty text of a document, the document of a text, and what is said of a
document that is not read. -/
structure JsonLibrary where
  toStringPretty : Value → Except String String
  fromStr : String → Except String Value
  rejection : Value → String

inductive WorkflowJsonError
  | decode (source : String)
  | encode (source : String)
  | format (source : WorkflowFormatError)
  deriving DecidableEq

section Reading

def nodeFields : List String := ["id", "inputs", "outputs", "rule_set", "rule_set_ref"]

def readRawNode (v : Value) : Option RawNodeDefinition := do
  guard (isStrictRecord nodeFields 3 v)
  return {
    id := ← field nodeFields "id" readString v
    inputs := ← field nodeFields "inputs" (readList readString) v
    outputs := ← field nodeFields "outputs" (readList readString) v
    ruleSet := ← optionalField nodeFields "rule_set" readValue v
    ruleSetRef := ← optionalField nodeFields "rule_set_ref" readString v }

def endpointFields : List String := ["node", "port"]

def readRawEndpoint (v : Value) : Option RawEdgeEndpoint := do
  guard (isStrictRecord endpointFields 2 v)
  return {
    node := ← field endpointFields "node" readString v
    port := ← field endpointFields "port" readString v }

def edgeFields : List String := ["source", "target", "capacity"]

def readRawEdge (v : Value) : Option RawEdgeDefinition := do
  guard (isStrictRecord edgeFields 3 v)
  return {
    source := ← field edgeFields "source" readRawEndpoint v
    target := ← field edgeFields "target" readRawEndpoint v
    capacity := ← optionalField edgeFields "capacity" readUsize v }

def workflowFields : List String := ["pureflow_version", "id", "nodes", "edges"]

def readRawWorkflow (v : Value) : Option RawWorkflowDefinition := do
  guard (isStrictRecord workflowFields 4 v)
  return {
    pureflowVersion := ← optionalField workflowFields "pureflow_version" readString v
    id := ← field workflowFields "id" readString v
    nodes := ← field workflowFields "nodes" (readList readRawNode) v
    edges := ← field workflowFields "edges" (readList readRawEdge) v }

end Reading

section Reads

variable {v : Value}

lemma readRawEndpoint_eq_some {endpoint : RawEdgeEndpoint} (h : readRawEndpoint v = some endpoint) :
    isStrictRecord endpointFields 2 v = true ∧
    field endpointFields "node" readString v = some endpoint.node ∧
    field endpointFields "port" readString v = some endpoint.port := by
  simp only [readRawEndpoint, Option.bind_eq_bind, Option.bind_eq_some_iff, Option.pure_def,
    Option.some.injEq, Option.guard_eq_some'] at h
  obtain ⟨-, hstrict, node, hnode, port, hport, rfl⟩ := h
  exact ⟨hstrict, hnode, hport⟩

lemma readRawNode_eq_some {node : RawNodeDefinition} (h : readRawNode v = some node) :
    isStrictRecord nodeFields 3 v = true ∧
    field nodeFields "id" readString v = some node.id ∧
    field nodeFields "inputs" (readList readString) v = some node.inputs ∧
    field nodeFields "outputs" (readList readString) v = some node.outputs := by
  simp only [readRawNode, Option.bind_eq_bind, Option.bind_eq_some_iff, Option.pure_def,
    Option.some.injEq, Option.guard_eq_some'] at h
  obtain ⟨-, hstrict, nodeId, hid, inputs, hinputs, outputs, houtputs, -, -, -, -, rfl⟩ := h
  exact ⟨hstrict, hid, hinputs, houtputs⟩

lemma readRawEdge_eq_some {edge : RawEdgeDefinition} (h : readRawEdge v = some edge) :
    isStrictRecord edgeFields 3 v = true ∧
    field edgeFields "source" readRawEndpoint v = some edge.source ∧
    field edgeFields "target" readRawEndpoint v = some edge.target ∧
    optionalField edgeFields "capacity" readUsize v = some edge.capacity := by
  simp only [readRawEdge, Option.bind_eq_bind, Option.bind_eq_some_iff, Option.pure_def,
    Option.some.injEq, Option.guard_eq_some'] at h
  obtain ⟨-, hstrict, source, hsource, target, htarget, capacity, hcapacity, rfl⟩ := h
  exact ⟨hstrict, hsource, htarget, hcapacity⟩

lemma readRawWorkflow_eq_some {raw : RawWorkflowDefinition} (h : readRawWorkflow v = some raw) :
    isStrictRecord workflowFields 4 v = true ∧
    optionalField workflowFields "pureflow_version" readString v = some raw.pureflowVersion ∧
    field workflowFields "id" readString v = some raw.id ∧
    field workflowFields "nodes" (readList readRawNode) v = some raw.nodes ∧
    field workflowFields "edges" (readList readRawEdge) v = some raw.edges := by
  simp only [readRawWorkflow, Option.bind_eq_bind, Option.bind_eq_some_iff, Option.pure_def,
    Option.some.injEq, Option.guard_eq_some'] at h
  obtain ⟨-, hstrict, version, hversion, workflowId, hid, nodes, hnodes, edges, hedges, rfl⟩ := h
  exact ⟨hstrict, hversion, hid, hnodes, hedges⟩

end Reads

section Writing

/-- An optional value; none is null. -/
def optionValue {α : Type} (value : α → Value) : Option α → Value
  | none => .null
  | some a => value a

/-- An optional field that is skipped when there is none. -/
def skippedEntry {α : Type} (name : String) (value : α → Value) : Option α → List (String × Value)
  | none => []
  | some a => [(name, value a)]

def stringsValue (texts : List String) : Value := .array (texts.map .string)

def rawNodeValue (node : RawNodeDefinition) : Value := .object (
  [("id", .string node.id), ("inputs", stringsValue node.inputs),
    ("outputs", stringsValue node.outputs)] ++
  skippedEntry "rule_set" id node.ruleSet ++
  skippedEntry "rule_set_ref" .string node.ruleSetRef)

def rawEndpointValue (endpoint : RawEdgeEndpoint) : Value :=
  .object [("node", .string endpoint.node), ("port", .string endpoint.port)]

def rawEdgeValue (edge : RawEdgeDefinition) : Value := .object [
  ("source", rawEndpointValue edge.source),
  ("target", rawEndpointValue edge.target),
  ("capacity", optionValue (fun n => .number (.posInt n)) edge.capacity)]

def rawWorkflowValue (raw : RawWorkflowDefinition) : Value := .object [
  ("pureflow_version", optionValue .string raw.pureflowVersion),
  ("id", .string raw.id),
  ("nodes", .array (raw.nodes.map rawNodeValue)),
  ("edges", .array (raw.edges.map rawEdgeValue))]

end Writing

section Texts

variable (json : JsonLibrary)

/-- Decode a canonical JSON workflow document into raw workflow data. -/
def rawWorkflowFromJsonStr (input : String) : Except WorkflowJsonError RawWorkflowDefinition := do
  let v ← (json.fromStr input).mapError .decode
  match readRawWorkflow v with
  | some raw => .ok raw
  | none => .error (.decode (json.rejection v))

/-- Decode a canonical JSON workflow document into a validated workflow. -/
def workflowFromJsonStr (input : String) : Except WorkflowJsonError WorkflowDefinition := do
  let raw ← rawWorkflowFromJsonStr json input
  raw.toWorkflow.mapError .format

/-- Encode raw workflow data as canonical pretty JSON. -/
def rawWorkflowToJsonString (raw : RawWorkflowDefinition) : Except WorkflowJsonError String :=
  (json.toStringPretty (rawWorkflowValue raw)).mapError .encode

end Texts

section RoundTrip

/-- An inline value as it comes back from a document. -/
def rereadInline (v : Value) : Option Value := if v.isNull then none else some v.hold

/-- A node as it comes back from a document. -/
def RawNodeDefinition.reread (node : RawNodeDefinition) : RawNodeDefinition :=
  { node with ruleSet := node.ruleSet.bind rereadInline }

def RawWorkflowDefinition.reread (raw : RawWorkflowDefinition) : RawWorkflowDefinition :=
  { raw with nodes := raw.nodes.map RawNodeDefinition.reread }

/-- Inline values are values in memory. -/
def RawWorkflowDefinition.Held (raw : RawWorkflowDefinition) : Prop :=
  ∀ node ∈ raw.nodes, ∀ v ∈ node.ruleSet, v.hold = v

lemma readOption_value (v : Value) : readOption readValue v = some (rereadInline v) := by
  cases v <;> rfl

lemma readList_strings (texts : List String) :
    readList readString (stringsValue texts) = some texts := by
  rw [stringsValue, readList, Result.mapM_eq_some, List.forall₂_map_left_iff]
  exact List.forall₂_same.mpr fun text _ => rfl

lemma isStrictRecord_rawNodeValue (node : RawNodeDefinition) :
    isStrictRecord nodeFields 3 (rawNodeValue node) = true := by
  obtain ⟨nodeId, inputs, outputs, ruleSet, ruleSetRef⟩ := node
  cases ruleSet <;> cases ruleSetRef <;> rfl

lemma member_rawNodeValue (node : RawNodeDefinition) :
    member nodeFields "id" (rawNodeValue node) = some (.string node.id) ∧
    member nodeFields "inputs" (rawNodeValue node) = some (stringsValue node.inputs) ∧
    member nodeFields "outputs" (rawNodeValue node) = some (stringsValue node.outputs) ∧
    member nodeFields "rule_set" (rawNodeValue node) = node.ruleSet ∧
    member nodeFields "rule_set_ref" (rawNodeValue node) = node.ruleSetRef.map .string := by
  obtain ⟨nodeId, inputs, outputs, ruleSet, ruleSetRef⟩ := node
  cases ruleSet <;> cases ruleSetRef <;> exact ⟨rfl, rfl, rfl, rfl, rfl⟩

lemma readRawNode_value (node : RawNodeDefinition) :
    readRawNode (rawNodeValue node) = some node.reread := by
  obtain ⟨hid, hinputs, houtputs, hruleSet, hruleSetRef⟩ := member_rawNodeValue node
  have hreread : optionalField nodeFields "rule_set" readValue (rawNodeValue node) =
      some (node.ruleSet.bind rereadInline) := by
    rw [optionalField, hruleSet]
    cases node.ruleSet with
    | none => rfl
    | some v => exact readOption_value v
  have href : optionalField nodeFields "rule_set_ref" readString (rawNodeValue node) =
      some node.ruleSetRef := by
    rw [optionalField, hruleSetRef]
    cases node.ruleSetRef <;> rfl
  simp only [readRawNode, isStrictRecord_rawNodeValue, guard_true, field, hid, hinputs, houtputs,
    hreread, href, readList_strings, readString, Option.bind_eq_bind, Option.bind_some,
    Option.pure_def]
  rfl

lemma readRawEdge_value (edge : RawEdgeDefinition) :
    readRawEdge (rawEdgeValue edge) = some edge := by
  obtain ⟨source, target, capacity⟩ := edge
  cases capacity <;> rfl

/-- **What is read of a written document** is the document, but for its inline values. -/
theorem readRawWorkflow_value (raw : RawWorkflowDefinition) :
    readRawWorkflow (rawWorkflowValue raw) = some raw.reread := by
  have hrecord : isStrictRecord workflowFields 4 (rawWorkflowValue raw) = true := rfl
  have hversion : optionalField workflowFields "pureflow_version" readString
      (rawWorkflowValue raw) = some raw.pureflowVersion := by
    obtain ⟨version, workflowId, nodes, edges⟩ := raw
    cases version <;> rfl
  have hid : field workflowFields "id" readString (rawWorkflowValue raw) = some raw.id := rfl
  have hnodes : field workflowFields "nodes" (readList readRawNode) (rawWorkflowValue raw) =
      some (raw.nodes.map RawNodeDefinition.reread) :=
    Result.mapM_map_of_decodes readRawNode_value raw.nodes
  have hedges : field workflowFields "edges" (readList readRawEdge) (rawWorkflowValue raw) =
      some raw.edges := by
    have hmap : (raw.edges.map rawEdgeValue).mapM readRawEdge = some (raw.edges.map id) :=
      Result.mapM_map_of_decodes readRawEdge_value raw.edges
    rw [List.map_id] at hmap
    exact hmap
  simp only [readRawWorkflow, hrecord, guard_true, hversion, hid, hnodes, hedges,
    Option.bind_eq_bind, Option.bind_some, Option.pure_def]
  rfl

lemma rereadInline_eq_some {v : Value} (hheld : v.hold = v) :
    rereadInline v = some v ↔ v ≠ .null := by
  unfold rereadInline
  cases v with
  | null => simp [Value.isNull]
  | _ => simp only [Value.isNull, Bool.false_eq_true, if_false, hheld, ne_eq, reduceCtorEq,
      not_false_eq_true]

lemma reread_node_eq_self {node : RawNodeDefinition} (hheld : ∀ v ∈ node.ruleSet, v.hold = v) :
    node.reread = node ↔ node.ruleSet ≠ some .null := by
  obtain ⟨nodeId, inputs, outputs, ruleSet, ruleSetRef⟩ := node
  simp only [RawNodeDefinition.reread, RawNodeDefinition.mk.injEq, true_and, and_true]
  cases ruleSet with
  | none => simp
  | some v => rw [Option.bind_some, rereadInline_eq_some (hheld v rfl), ne_eq, ne_eq,
      Option.some.injEq]

lemma reread_eq_self {raw : RawWorkflowDefinition} (hheld : raw.Held) :
    raw.reread = raw ↔ ∀ node ∈ raw.nodes, node.ruleSet ≠ some .null := by
  obtain ⟨version, workflowId, nodes, edges⟩ := raw
  simp only [RawWorkflowDefinition.reread, RawWorkflowDefinition.mk.injEq, true_and, and_true]
  calc nodes.map RawNodeDefinition.reread = nodes
      ↔ nodes.map RawNodeDefinition.reread = nodes.map id := by rw [List.map_id]
    _ ↔ ∀ node ∈ nodes, node.reread = node := List.map_inj_left
    _ ↔ ∀ node ∈ nodes, node.ruleSet ≠ some .null :=
      forall₂_congr fun node hnode => reread_node_eq_self (hheld node hnode)

section Library

variable {json : JsonLibrary} {raw : RawWorkflowDefinition} {text : String}

/-- A document that is written and parsed faithfully comes back but for its inline values. -/
lemma roundTrip_eq (hwrite : json.toStringPretty (rawWorkflowValue raw) = .ok text)
    (hparse : json.fromStr text = .ok (rawWorkflowValue raw)) :
    (rawWorkflowToJsonString json raw >>= rawWorkflowFromJsonStr json) = .ok raw.reread := by
  have hencode : rawWorkflowToJsonString json raw = .ok text := by
    rw [rawWorkflowToJsonString, hwrite]
    rfl
  rw [hencode]
  change rawWorkflowFromJsonStr json text = _
  simp only [rawWorkflowFromJsonStr, hparse, Except.mapError, bind, Except.bind,
    readRawWorkflow_value]

/-- **The round trip of raw documents**: a document that the JSON library writes and parses
faithfully is read back exactly when no node holds null as its inline rule set; null is read as
none. -/
theorem roundTrip_iff (hheld : raw.Held)
    (hwrite : json.toStringPretty (rawWorkflowValue raw) = .ok text)
    (hparse : json.fromStr text = .ok (rawWorkflowValue raw)) :
    (rawWorkflowToJsonString json raw >>= rawWorkflowFromJsonStr json) = .ok raw ↔
      ∀ node ∈ raw.nodes, node.ruleSet ≠ some .null := by
  rw [roundTrip_eq hwrite hparse, Except.ok.injEq, reread_eq_self hheld]

end Library

/-- What the JSON library does with one document, when this is its text. -/
def libraryOf (text : String) (document : Value) : JsonLibrary where
  toStringPretty _ := .ok text
  fromStr input :=
    if input = text then .ok document else .error "expected value at line 1 column 1"
  rejection _ := "invalid type"

lemma libraryOf_fromStr (text : String) (document : Value) :
    (libraryOf text document).fromStr text = .ok document :=
  if_pos rfl

/-- A workflow of one node with this inline rule set. -/
def inlineDocument (inline : Value) : RawWorkflowDefinition where
  pureflowVersion := some "1"
  id := "flow"
  nodes := [⟨"a", [], [], some inline, none⟩]
  edges := []

/-- The text of that document, with the text of its rule set. -/
def inlineText (inline : String) : String :=
  "\x7b\n  \"pureflow_version\": \"1\",\n  \"id\": \"flow\",\n  \"nodes\": [\n    \x7b\n" ++
  "      \"id\": \"a\",\n      \"inputs\": [],\n      \"outputs\": [],\n      \"rule_set\": " ++
  inline ++ "\n    \x7d\n  ],\n  \"edges\": []\n\x7d"

lemma inlineDocument_held {inline : Value} (h : inline.hold = inline) :
    (inlineDocument inline).Held := by
  intro node hnode v hv
  obtain rfl := List.mem_singleton.mp hnode
  cases hv
  exact h

/-- A rule set that is true comes back. -/
theorem roundTrip_iff_sample :
    (rawWorkflowToJsonString
        (libraryOf (inlineText "true") (rawWorkflowValue (inlineDocument (.bool true))))
        (inlineDocument (.bool true)) >>=
      rawWorkflowFromJsonStr
        (libraryOf (inlineText "true") (rawWorkflowValue (inlineDocument (.bool true))))) =
      .ok (inlineDocument (.bool true)) := by
  refine (roundTrip_iff (inlineDocument_held rfl) rfl (libraryOf_fromStr _ _)).mpr ?_
  intro node hnode
  obtain rfl := List.mem_singleton.mp hnode
  simp

/-- **Null is lost**: a node whose inline rule set is null comes back without one. -/
theorem roundTrip_null : ¬ ∀ (json : JsonLibrary) (raw : RawWorkflowDefinition) (text : String),
    raw.Held → json.toStringPretty (rawWorkflowValue raw) = .ok text →
    json.fromStr text = .ok (rawWorkflowValue raw) →
      (rawWorkflowToJsonString json raw >>= rawWorkflowFromJsonStr json) = .ok raw := by
  intro hall
  have hheld : (inlineDocument .null).Held := inlineDocument_held rfl
  have hparse := libraryOf_fromStr (inlineText "null") (rawWorkflowValue (inlineDocument .null))
  have hback := hall _ (inlineDocument .null) _ hheld rfl hparse
  rw [roundTrip_eq rfl hparse, Except.ok.injEq, reread_eq_self hheld] at hback
  exact hback _ List.mem_cons_self rfl

end RoundTrip

end Pureflow.Format
