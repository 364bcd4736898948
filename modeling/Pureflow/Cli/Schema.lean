import Pureflow.Format.Conversion
import Pureflow.Format.Documents
import Pureflow.Lib.JsonSchema

/-!
The JSON Schema that the command line emits for workflow documents, against the documents that
are read as workflows.
-/

namespace Pureflow.Cli

open Pureflow.Types Pureflow.Workflow Pureflow.Format Pureflow.Lib Pureflow.Lib.Serde
  Pureflow.Lib.Json Pureflow.Lib.JsonSchema

section Schema

def num (n : UInt64) : Value := .number (.posInt n)

def identifierSchemaJson (description : String) : Value := .object [
  ("type", .string "string"),
  ("minLength", num 1),
  ("maxLength", num 256),
  ("pattern", .string "^\\S+$"),
  ("description", .string description)]

def identifierArraySchemaJson (description : String) : Value := .object [
  ("type", .string "array"),
  ("description", .string description),
  ("items", identifierSchemaJson "Identifier value.")]

def endpointProperties : List (String × Value) := [
  ("node", identifierSchemaJson "Referenced node identifier."),
  ("port", identifierSchemaJson "Referenced port identifier.")]

def edgeEndpointSchemaJson (description : String) : Value := .object [
  ("type", .string "object"),
  ("additionalProperties", .bool false),
  ("required", .array [.string "node", .string "port"]),
  ("description", .string description),
  ("properties", .object endpointProperties)]

def nodeProperties : List (String × Value) := [
  ("id", identifierSchemaJson "Node identifier."),
  ("inputs", identifierArraySchemaJson "Declared input port identifiers."),
  ("outputs", identifierArraySchemaJson "Declared output port identifiers.")]

/-- The schema of a node, the items of `nodes`. -/
def nodeSchemaJson : Value := .object [
  ("type", .string "object"),
  ("additionalProperties", .bool false),
  ("required", .array [.string "id", .string "inputs", .string "outputs"]),
  ("properties", .object nodeProperties)]

def capacitySchemaJson : Value := .object [
  ("type", .string "integer"),
  ("minimum", num 1),
  ("description",
    .string "Optional explicit bounded capacity. Omit to use the engine default.")]

def edgeProperties : List (String × Value) := [
  ("source", edgeEndpointSchemaJson "Upstream output endpoint."),
  ("target", edgeEndpointSchemaJson "Downstream input endpoint."),
  ("capacity", capacitySchemaJson)]

/-- The schema of an edge, the items of `edges`. -/
def edgeSchemaJson : Value := .object [
  ("type", .string "object"),
  ("additionalProperties", .bool false),
  ("required", .array [.string "source", .string "target"]),
  ("properties", .object edgeProperties)]

def versionSchemaJson : Value := .object [
  ("type", .string "string"),
  ("const", .string currentPureflowVersion),
  ("description", .string "Required Pureflow workflow format version.")]

def nodesSchemaJson : Value := .object [
  ("type", .string "array"),
  ("description", .string "Declared node topology."),
  ("items", nodeSchemaJson)]

def edgesSchemaJson : Value := .object [
  ("type", .string "array"),
  ("description", .string "Declared directed edges."),
  ("items", edgeSchemaJson)]

def workflowProperties : List (String × Value) := [
  ("pureflow_version", versionSchemaJson),
  ("id", identifierSchemaJson "Workflow identifier."),
  ("nodes", nodesSchemaJson),
  ("edges", edgesSchemaJson)]

def workflowSchemaJson : Value := .object [
  ("$schema", .string "https://json-schema.org/draft/2020-12/schema"),
  ("$id", .string
    ("https://pureflow.dev/schemas/workflow-v" ++ currentPureflowVersion ++ ".schema.json")),
  ("title", .string "Pureflow workflow document"),
  ("type", .string "object"),
  ("additionalProperties", .bool false),
  ("required",
    .array [.string "pureflow_version", .string "id", .string "nodes", .string "edges"]),
  ("properties", .object workflowProperties)]

end Schema

section Meaning

variable {p : String → String → Bool} {v : Value}

lemma admits_endpoint (description : String) :
    admits p (edgeEndpointSchemaJson description) v = true ↔
      AdmitsRecord p ["node", "port"] endpointProperties v :=
  admits_record ["node", "port"] endpointProperties [] [("description", .string description)]
    (List.forall_mem_nil _) (by simp [annotations])

lemma admits_node : admits p nodeSchemaJson v = true ↔
    AdmitsRecord p ["id", "inputs", "outputs"] nodeProperties v :=
  admits_record ["id", "inputs", "outputs"] nodeProperties [] [] (List.forall_mem_nil _)
    (List.forall_mem_nil _)

lemma admits_edge : admits p edgeSchemaJson v = true ↔
    AdmitsRecord p ["source", "target"] edgeProperties v :=
  admits_record ["source", "target"] edgeProperties [] [] (List.forall_mem_nil _)
    (List.forall_mem_nil _)

lemma admits_workflow : admits p workflowSchemaJson v = true ↔
    AdmitsRecord p ["pureflow_version", "id", "nodes", "edges"] workflowProperties v :=
  admits_record ["pureflow_version", "id", "nodes", "edges"] workflowProperties [_, _, _] []
    (by simp [annotations]) (List.forall_mem_nil _)

lemma admits_items {schema : Value} (description : String) : admits p (.object [
      ("type", .string "array"), ("description", .string description), ("items", schema)]) v =
        true ↔ ∃ items, v = .array items ∧ ∀ w ∈ items, admits p schema w = true := by
  cases v with
  | array items => simp [admits, admitsKeywords, assertion, hasType, itemsAll]
  | _ => simp [admits, admitsKeywords, assertion, hasType]

lemma admits_version {s : String} :
    admits p versionSchemaJson (.string s) = true ↔ s = currentPureflowVersion := by
  simp [versionSchemaJson, admits, admitsKeywords, assertion, hasType, Value.asStr]

lemma admits_capacity : admits p capacitySchemaJson v = true ↔
    ∃ n, v = .number n ∧ isInteger n = true ∧ atLeast (.posInt 1) n = true := by
  cases v with
  | number n => simp [capacitySchemaJson, num, admits, admitsKeywords, assertion, hasType]
  | _ => simp [capacitySchemaJson, admits, admitsKeywords, assertion, hasType]

lemma admits_identifier {s : String} (description : String) :
    admits p (identifierSchemaJson description) (.string s) = true ↔
      1 ≤ s.length ∧ s.length ≤ 256 ∧ p "^\\S+$" s = true := by
  simp [identifierSchemaJson, num, admits, admitsKeywords, assertion, hasType]

end Meaning

section Identifiers

variable {p : String → String → Bool} {v : Value}

def byteOrderMark : Char := '\uFEFF'

/-- No text of the value has a byte order mark in it. -/
def Unmarked (v : Value) : Prop := ∀ s ∈ v.strings, byteOrderMark ∉ s.toList

/-- The pattern of the schema tests for texts without space. -/
def TestsNonspace (p : String → String → Bool) : Prop :=
  ∀ s, p "^\\S+$" s = true ↔ s ≠ "" ∧ ∀ c ∈ s.toList, isSpace c = false

/-- The two notions of space differ by the next line character and the byte order mark. -/
lemma isSpace_iff {c : Char} (h : Text.isWhitespace c = false) :
    isSpace c = true ↔ c = byteOrderMark := by
  have hmark : c = byteOrderMark ↔ c.toNat = 0xFEFF := by
    rw [← Char.toNat_inj]
    rfl
  rw [hmark]
  simp only [Text.isWhitespace, Bool.or_eq_false_iff, Bool.and_eq_false_iff, decide_eq_false_iff_not,
    beq_eq_false_iff_ne] at h
  simp only [isSpace, Bool.or_eq_true, Bool.and_eq_true, decide_eq_true_eq, beq_iff_eq]
  omega

lemma valid_identifier {kind : IdentifierKind} {s : String} (h : Valid kind s) :
    s ≠ "" ∧ s.length ≤ 256 ∧ ∀ c ∈ s.toList, Text.isWhitespace c = false := by
  unfold Valid validateIdentifier at h
  split_ifs at h with hlong hblank hspace hcontrol
  refine ⟨?_, ?_, by simpa using hspace⟩
  · rintro rfl
    exact hblank (by decide)
  · have := Text.length_le_utf8ByteSize s
    simp only [maxIdentifierLen] at hlong
    omega

lemma unmarked_string {s : String} : Unmarked (.string s) ↔ byteOrderMark ∉ s.toList := by
  simp [Unmarked, Value.strings]

lemma admits_valid (hp : TestsNonspace p) {kind : IdentifierKind} {s : String} (h : Valid kind s)
    (description : String) :
    admits p (identifierSchemaJson description) (.string s) = true ↔ Unmarked (.string s) := by
  obtain ⟨hne, hlength, hspace⟩ := valid_identifier h
  have hpos : 1 ≤ s.length := Nat.one_le_iff_ne_zero.mpr (by simpa using hne)
  rw [admits_identifier, hp, unmarked_string]
  simp only [hpos, hlength, ne_eq, hne, not_false_eq_true, true_and]
  constructor
  · intro hall hmark
    have := hall _ hmark
    revert this
    decide
  · intro hmark c hc
    by_contra hspaced
    obtain rfl := (isSpace_iff (hspace c hc)).mp (by simpa using hspaced)
    exact hmark hc

end Identifiers

section Records

variable {p : String → String → Bool} {v : Value}

def IsObject (v : Value) : Prop := ∃ entries, v = .object entries

lemma unmarked_array {items : List Value} :
    Unmarked (.array items) ↔ ∀ w ∈ items, Unmarked w := by
  simp only [Unmarked, Value.strings, Value.mem_stringsItems]
  exact ⟨fun h w hw s hs => h s ⟨w, hw, hs⟩, fun h s ⟨w, hw, hs⟩ => h w hw s hs⟩

lemma unmarked_object {entries : List (String × Value)} :
    Unmarked (.object entries) ↔ ∀ e ∈ entries, Unmarked e.2 := by
  simp only [Unmarked, Value.strings, Value.mem_stringsEntries]
  exact ⟨fun h e he s hs => h s ⟨e, he, hs⟩, fun h s ⟨e, he, hs⟩ => h e he s hs⟩

lemma admitsRecord_iff {required : List String} {schemas entries : List (String × Value)}
    (P : String → Value → Prop) (hrequired : ∀ name ∈ required, ∃ w, (name, w) ∈ entries)
    (hfields : ∀ f ∈ schemas, ∀ w, (f.1, w) ∈ entries →
      (admits p f.2 w = true ↔ P f.1 w ∧ Unmarked w)) :
    AdmitsRecord p required schemas (.object entries) ↔
      (∀ e ∈ entries, e.1 ∈ schemas.map (·.1)) ∧ (∀ e ∈ entries, P e.1 e.2) ∧
        Unmarked (.object entries) := by
  rw [unmarked_object]
  constructor
  · rintro ⟨_, hobject, hkeys, -, hadmits⟩
    cases hobject
    have hboth : ∀ e ∈ entries, P e.1 e.2 ∧ Unmarked e.2 := by
      rintro ⟨key, w⟩ he
      obtain ⟨f, hf, rfl⟩ := List.mem_map.mp (hkeys _ he)
      exact (hfields f hf w he).mp (hadmits f hf w he)
    exact ⟨hkeys, fun e he => (hboth e he).1, fun e he => (hboth e he).2⟩
  · rintro ⟨hkeys, hplain, hunmarked⟩
    exact ⟨entries, rfl, hkeys, hrequired, fun f hf w he =>
      (hfields f hf w he).mpr ⟨hplain _ he, hunmarked _ he⟩⟩

lemma readString_eq_some {s : String} (h : readString v = some s) : v = .string s := by
  cases v with
  | string t =>
    cases h
    rfl
  | _ => cases h

lemma readOption_string {s : String} (h : readOption readString v = some (some s)) :
    v = .string s := by
  cases v with
  | string t =>
    cases h
    rfl
  | _ => cases h

lemma readList_eq_some {α : Type} {read : Value → Option α} {as : List α}
    (h : readList read v = some as) :
    ∃ items, v = .array items ∧ List.Forall₂ (fun w a => read w = some a) items as := by
  cases v with
  | array items => exact ⟨items, rfl, Result.mapM_eq_some.mp h⟩
  | _ => cases h

lemma admits_identifiers (hp : TestsNonspace p) {kind : IdentifierKind} {texts : List String}
    (h : readList readString v = some texts) (hvalid : ∀ text ∈ texts, Valid kind text)
    (description : String) :
    admits p (identifierArraySchemaJson description) v = true ↔ Unmarked v := by
  obtain ⟨items, rfl, hitems⟩ := readList_eq_some h
  have harray : admits p (identifierArraySchemaJson description) (.array items) = true ↔
      ∀ w ∈ items, admits p (identifierSchemaJson "Identifier value.") w = true := by
    rw [identifierArraySchemaJson, admits_items]
    simp
  rw [harray, unmarked_array]
  refine forall₂_congr fun w hw => ?_
  obtain ⟨text, htext, hread⟩ := Result.exists_mem_left hitems.flip hw
  obtain rfl := readString_eq_some hread
  exact admits_valid hp (hvalid text htext) _

lemma admitsRecord_iff_isObject {required : List String} {schemas : List (String × Value)} {P : Prop}
    (h : ∀ entries, v = .object entries → (AdmitsRecord p required schemas v ↔ P)) :
    AdmitsRecord p required schemas v ↔ IsObject v ∧ P := by
  constructor
  · intro hadmits
    obtain ⟨entries, hobject, -⟩ := id hadmits
    exact ⟨⟨entries, hobject⟩, (h entries hobject).mp hadmits⟩
  · rintro ⟨⟨entries, hobject⟩, hP⟩
    exact (h entries hobject).mpr hP

lemma admits_readEndpoint (hp : TestsNonspace p) {endpoint : RawEdgeEndpoint}
    (h : readRawEndpoint v = some endpoint) (hnode : Valid .node endpoint.node)
    (hport : Valid .port endpoint.port) (description : String) :
    admits p (edgeEndpointSchemaJson description) v = true ↔ IsObject v ∧ Unmarked v := by
  rw [admits_endpoint]
  refine admitsRecord_iff_isObject ?_
  rintro entries rfl
  obtain ⟨hstrict, hnodeField, hportField⟩ := readRawEndpoint_eq_some h
  have hfields : ∀ f ∈ endpointProperties, ∀ w, (f.1, w) ∈ entries →
      (admits p f.2 w = true ↔ True ∧ Unmarked w) := by
    simp only [endpointProperties, List.forall_mem_cons, true_and]
    refine ⟨fun w hw => ?_, fun w hw => ?_, List.forall_mem_nil _⟩
    · obtain rfl := readString_eq_some (strict_field_read hstrict hnodeField hw)
      exact admits_valid hp hnode _
    · obtain rfl := readString_eq_some (strict_field_read hstrict hportField hw)
      exact admits_valid hp hport _
  have hrequired : ∀ name ∈ ["node", "port"], ∃ w, (name, w) ∈ entries := by
    simp only [List.forall_mem_cons]
    exact ⟨strict_field_present hstrict hnodeField, strict_field_present hstrict hportField,
      List.forall_mem_nil _⟩
  have hkeys : ∀ e ∈ entries, e.1 ∈ endpointProperties.map (·.1) :=
    (strictRecord_object.mp hstrict).1
  rw [admitsRecord_iff (fun _ _ => True) hrequired hfields]
  exact ⟨fun h => h.2.2, fun h => ⟨hkeys, fun _ _ => trivial, h⟩⟩

/-- A node that is written as an object and has no rule set. -/
structure PlainNode (v : Value) : Prop where
  object : IsObject v
  ruleSet : member nodeFields "rule_set" v = none
  ruleSetRef : member nodeFields "rule_set_ref" v = none

/-- An edge that is written, with its endpoints, as objects, and has no null as its capacity. -/
structure PlainEdge (v : Value) : Prop where
  object : IsObject v
  source : ∀ w ∈ member edgeFields "source" v, IsObject w
  target : ∀ w ∈ member edgeFields "target" v, IsObject w
  capacity : member edgeFields "capacity" v ≠ some .null

/-- A document that is written as an object and all whose nodes and edges are plain. -/
structure PlainWorkflow (v : Value) : Prop where
  object : IsObject v
  nodes : ∀ items, member workflowFields "nodes" v = some (.array items) →
    ∀ node ∈ items, PlainNode node
  edges : ∀ items, member workflowFields "edges" v = some (.array items) →
    ∀ edge ∈ items, PlainEdge edge

lemma nodeKeys_iff {entries : List (String × Value)}
    (hstrict : isStrictRecord nodeFields 3 (.object entries) = true) :
    (∀ e ∈ entries, e.1 ∈ nodeProperties.map (·.1)) ↔ PlainNode (.object entries) := by
  obtain ⟨hkeys, hnd⟩ := strictRecord_object.mp hstrict
  have hnames : nodeProperties.map (·.1) = ["id", "inputs", "outputs"] := rfl
  rw [hnames]
  constructor
  · intro h
    refine ⟨⟨entries, rfl⟩, (entry_eq_none hnd).mpr fun w hw => ?_,
      (entry_eq_none hnd).mpr fun w hw => ?_⟩
    · exact absurd (h _ hw) (by simp)
    · exact absurd (h _ hw) (by simp)
  · rintro hplain ⟨key, w⟩ he
    have hkey : key ∈ ["id", "inputs", "outputs", "rule_set", "rule_set_ref"] := hkeys _ he
    simp only [List.mem_cons, List.not_mem_nil, or_false] at hkey ⊢
    rcases hkey with rfl | rfl | rfl | rfl | rfl
    · exact .inl rfl
    · exact .inr (.inl rfl)
    · exact .inr (.inr rfl)
    · exact absurd he ((entry_eq_none hnd).mp hplain.ruleSet w)
    · exact absurd he ((entry_eq_none hnd).mp hplain.ruleSetRef w)

lemma admits_readNode (hp : TestsNonspace p) {node : RawNodeDefinition}
    (h : readRawNode v = some node) (hvalid : ValidNode node) :
    admits p nodeSchemaJson v = true ↔ PlainNode v ∧ Unmarked v := by
  have hiff : AdmitsRecord p ["id", "inputs", "outputs"] nodeProperties v ↔
      IsObject v ∧ PlainNode v ∧ Unmarked v := by
    refine admitsRecord_iff_isObject ?_
    rintro entries rfl
    obtain ⟨hstrict, hid, hinputs, houtputs⟩ := readRawNode_eq_some h
    have hfields : ∀ f ∈ nodeProperties, ∀ w, (f.1, w) ∈ entries →
        (admits p f.2 w = true ↔ True ∧ Unmarked w) := by
      simp only [nodeProperties, List.forall_mem_cons, true_and]
      refine ⟨fun w hw => ?_, fun w hw => ?_, fun w hw => ?_, List.forall_mem_nil _⟩
      · obtain rfl := readString_eq_some (strict_field_read hstrict hid hw)
        exact admits_valid hp hvalid.id _
      · exact admits_identifiers hp (strict_field_read hstrict hinputs hw) hvalid.inputs _
      · exact admits_identifiers hp (strict_field_read hstrict houtputs hw) hvalid.outputs _
    have hrequired : ∀ name ∈ ["id", "inputs", "outputs"], ∃ w, (name, w) ∈ entries := by
      simp only [List.forall_mem_cons]
      exact ⟨strict_field_present hstrict hid, strict_field_present hstrict hinputs,
        strict_field_present hstrict houtputs, List.forall_mem_nil _⟩
    rw [admitsRecord_iff (fun _ _ => True) hrequired hfields, nodeKeys_iff hstrict]
    exact and_congr_right fun _ => and_iff_right fun _ _ => trivial
  rw [admits_node, hiff]
  exact and_iff_right_of_imp fun h => h.1.object

lemma isInteger_posInt (n : UInt64) : isInteger (.posInt n) = true := by
  simp [isInteger, ofNumber]

lemma isInteger_negInt (n : Int64) : isInteger (.negInt n) = true := by
  simp [isInteger, ofNumber]

lemma unmarked_number (n : Number) : Unmarked (.number n) := by
  simp [Unmarked, Value.strings]

lemma admits_readCapacity {w : Value} {capacity : Option UInt64}
    (h : readOption readUsize w = some capacity) (hpos : capacity ≠ some 0) :
    admits p capacitySchemaJson w = true ↔ w ≠ .null ∧ Unmarked w := by
  rw [admits_capacity]
  cases w with
  | null => simp
  | number n =>
    have hadmitted : isInteger n = true ∧ atLeast (.posInt 1) n = true := by
      cases n with
      | posInt n =>
        obtain rfl : capacity = some n := (Option.some.inj h).symm
        have hn : n.toNat ≠ 0 := fun h0 => hpos (congrArg some (UInt64.toNat_inj.mp h0))
        have hle : (1 : ℚ) ≤ (n.toNat : ℚ) := by exact_mod_cast Nat.one_le_iff_ne_zero.mpr hn
        exact ⟨isInteger_posInt n, by simpa [atLeast, ofNumber] using hle⟩
      | negInt n =>
        simp only [readOption, readUsize, Option.map_eq_some_iff] at h
        obtain ⟨k, hk, rfl⟩ := h
        split_ifs at hk with hn
        cases hk
        have hn0 : n.toInt ≠ 0 := fun h0 => hpos (by
          obtain rfl : n = 0 := Int64.toInt_inj.mp h0
          rfl)
        have hnonneg : 0 ≤ n.toInt := by simpa using Int64.le_iff_toInt_le.mp hn
        have hle : (1 : ℚ) ≤ (n.toInt : ℚ) := by exact_mod_cast (by omega : 1 ≤ n.toInt)
        exact ⟨isInteger_negInt n, by simpa [atLeast, ofNumber] using hle⟩
      | float x => cases h
    exact ⟨fun _ => ⟨nofun, unmarked_number n⟩, fun _ => ⟨n, rfl, hadmitted⟩⟩
  | _ => cases h

/-- What the schema asks of the fields of an edge. -/
def EdgeFieldPlain (name : String) (w : Value) : Prop :=
  if name = "capacity" then w ≠ .null else IsObject w

lemma admits_readEdge (hp : TestsNonspace p) {edge : RawEdgeDefinition}
    (h : readRawEdge v = some edge) (hvalid : ValidEdge edge) :
    admits p edgeSchemaJson v = true ↔ PlainEdge v ∧ Unmarked v := by
  have hiff : AdmitsRecord p ["source", "target"] edgeProperties v ↔
      IsObject v ∧ PlainEdge v ∧ Unmarked v := by
    refine admitsRecord_iff_isObject ?_
    rintro entries rfl
    obtain ⟨hstrict, hsource, htarget, hcapacity⟩ := readRawEdge_eq_some h
    have hfields : ∀ f ∈ edgeProperties, ∀ w, (f.1, w) ∈ entries →
        (admits p f.2 w = true ↔ EdgeFieldPlain f.1 w ∧ Unmarked w) := by
      simp only [edgeProperties, List.forall_mem_cons]
      refine ⟨fun w hw => ?_, fun w hw => ?_, fun w hw => ?_, List.forall_mem_nil _⟩
      · exact admits_readEndpoint hp (strict_field_read hstrict hsource hw) hvalid.sourceNode
          hvalid.sourcePort _
      · exact admits_readEndpoint hp (strict_field_read hstrict htarget hw) hvalid.targetNode
          hvalid.targetPort _
      · exact admits_readCapacity (strict_optional_read hstrict hcapacity hw) hvalid.capacity
    have hrequired : ∀ name ∈ ["source", "target"], ∃ w, (name, w) ∈ entries := by
      simp only [List.forall_mem_cons]
      exact ⟨strict_field_present hstrict hsource, strict_field_present hstrict htarget,
        List.forall_mem_nil _⟩
    have hkeys : ∀ e ∈ entries, e.1 ∈ edgeProperties.map (·.1) := (strictRecord_object.mp hstrict).1
    rw [admitsRecord_iff EdgeFieldPlain hrequired hfields]
    have hplain : (∀ e ∈ entries, EdgeFieldPlain e.1 e.2) ↔ PlainEdge (.object entries) := by
      constructor
      · intro hall
        refine ⟨⟨entries, rfl⟩, fun w hw => ?_, fun w hw => ?_, fun hnull => ?_⟩
        · exact hall _ ((strict_member hstrict).mp hw)
        · exact hall _ ((strict_member hstrict).mp hw)
        · exact hall _ ((strict_member hstrict).mp hnull) rfl
      · rintro hedge ⟨key, w⟩ he
        have hkey : key ∈ ["source", "target", "capacity"] := hkeys _ he
        simp only [List.mem_cons, List.not_mem_nil, or_false] at hkey
        rcases hkey with rfl | rfl | rfl
        · exact hedge.source w ((strict_member hstrict).mpr he)
        · exact hedge.target w ((strict_member hstrict).mpr he)
        · rintro rfl
          exact hedge.capacity ((strict_member hstrict).mpr he)
    rw [hplain]
    exact and_iff_right hkeys
  rw [admits_edge, hiff]
  exact and_iff_right_of_imp fun h => h.1.object

lemma admits_readList {schema : Value} {α : Type} {read : Value → Option α} {as : List α}
    {Plain : Value → Prop} (description : String) (h : readList read v = some as)
    (hitem : ∀ w, ∀ a ∈ as, read w = some a → (admits p schema w = true ↔ Plain w ∧ Unmarked w)) :
    admits p (.object [("type", .string "array"), ("description", .string description),
      ("items", schema)]) v = true ↔
        (∀ items, v = .array items → ∀ w ∈ items, Plain w) ∧ Unmarked v := by
  obtain ⟨items, rfl, hitems⟩ := readList_eq_some h
  rw [admits_items, unmarked_array]
  simp only [Value.array.injEq, forall_eq']
  rw [← forall₂_and]
  constructor
  · rintro ⟨_, rfl, hadmits⟩ w hw
    obtain ⟨a, ha, hread⟩ := Result.exists_mem_left hitems.flip hw
    exact (hitem w a ha hread).mp (hadmits w hw)
  · intro hboth
    refine ⟨items, rfl, fun w hw => ?_⟩
    obtain ⟨a, ha, hread⟩ := Result.exists_mem_left hitems.flip hw
    exact (hitem w a ha hread).mpr (hboth w hw)

/-- What the schema asks of the fields of a document. -/
def WorkflowFieldPlain (name : String) (w : Value) : Prop :=
  (name = "nodes" → ∀ items, w = .array items → ∀ node ∈ items, PlainNode node) ∧
  (name = "edges" → ∀ items, w = .array items → ∀ edge ∈ items, PlainEdge edge)

lemma admits_readWorkflow (hp : TestsNonspace p) {raw : RawWorkflowDefinition}
    (h : readRawWorkflow v = some raw) (hvalid : Convertible raw) :
    admits p workflowSchemaJson v = true ↔ PlainWorkflow v ∧ Unmarked v := by
  have hiff : AdmitsRecord p ["pureflow_version", "id", "nodes", "edges"] workflowProperties v ↔
      IsObject v ∧ PlainWorkflow v ∧ Unmarked v := by
    refine admitsRecord_iff_isObject ?_
    rintro entries rfl
    obtain ⟨hstrict, hversion, hid, hnodes, hedges⟩ := readRawWorkflow_eq_some h
    rw [hvalid.version] at hversion
    have hfields : ∀ f ∈ workflowProperties, ∀ w, (f.1, w) ∈ entries →
        (admits p f.2 w = true ↔ WorkflowFieldPlain f.1 w ∧ Unmarked w) := by
      simp only [workflowProperties, List.forall_mem_cons]
      refine ⟨fun w hw => ?_, fun w hw => ?_, fun w hw => ?_, fun w hw => ?_,
        List.forall_mem_nil _⟩
      · obtain rfl := readOption_string (strict_optional_read hstrict hversion hw)
        rw [admits_version]
        simp [WorkflowFieldPlain, currentPureflowVersion, Unmarked, Value.strings, byteOrderMark]
      · obtain rfl := readString_eq_some (strict_field_read hstrict hid hw)
        rw [admits_valid hp hvalid.id]
        simp [WorkflowFieldPlain]
      · have hlist : admits p nodesSchemaJson w = true ↔ _ :=
          admits_readList _ (strict_field_read hstrict hnodes hw) fun w node hnode hread =>
            admits_readNode hp hread (hvalid.nodes node hnode)
        simpa [WorkflowFieldPlain] using hlist
      · have hlist : admits p edgesSchemaJson w = true ↔ _ :=
          admits_readList _ (strict_field_read hstrict hedges hw) fun w edge hedge hread =>
            admits_readEdge hp hread (hvalid.edges edge hedge)
        simpa [WorkflowFieldPlain] using hlist
    have hrequired : ∀ name ∈ ["pureflow_version", "id", "nodes", "edges"],
        ∃ w, (name, w) ∈ entries := by
      simp only [List.forall_mem_cons]
      exact ⟨strict_optional_present hstrict hversion, strict_field_present hstrict hid,
        strict_field_present hstrict hnodes, strict_field_present hstrict hedges,
        List.forall_mem_nil _⟩
    have hkeys : ∀ e ∈ entries, e.1 ∈ workflowProperties.map (·.1) :=
      (strictRecord_object.mp hstrict).1
    rw [admitsRecord_iff WorkflowFieldPlain hrequired hfields]
    have hplain : (∀ e ∈ entries, WorkflowFieldPlain e.1 e.2) ↔
        PlainWorkflow (.object entries) := by
      constructor
      · intro hall
        refine ⟨⟨entries, rfl⟩, fun items hitems => ?_, fun items hitems => ?_⟩
        · exact (hall _ ((strict_member hstrict).mp hitems)).1 rfl items rfl
        · exact (hall _ ((strict_member hstrict).mp hitems)).2 rfl items rfl
      · rintro hworkflow ⟨key, w⟩ he
        refine ⟨?_, ?_⟩
        · rintro rfl items rfl
          exact hworkflow.nodes items ((strict_member hstrict).mpr he)
        · rintro rfl items rfl
          exact hworkflow.edges items ((strict_member hstrict).mpr he)
    rw [hplain]
    exact and_iff_right hkeys
  rw [admits_workflow, hiff]
  exact and_iff_right_of_imp fun h => h.1.object

end Records

section Results

variable {p : String → String → Bool} {json : JsonLibrary} {input : String} {document : Value}
  {w : WorkflowDefinition}

/-- **The schema admits a workflow exactly when it is written plainly**: of the documents that are
accepted as workflows, it admits those that are written with objects for their records, hold no
rule sets and no null capacity, and have no byte order mark in any text. -/
theorem schema_admits_iff (hp : TestsNonspace p) (hparse : json.fromStr input = .ok document)
    (h : workflowFromJsonStr json input = .ok w) :
    admits p workflowSchemaJson document = true ↔ PlainWorkflow document ∧ Unmarked document := by
  simp only [workflowFromJsonStr, rawWorkflowFromJsonStr, Result.bind_eq_ok,
    Result.mapError_eq_ok] at h
  obtain ⟨raw, ⟨v, hv, hread⟩, hw⟩ := h
  obtain rfl : document = v := Except.ok.inj (hparse.symm.trans hv)
  split at hread
  · next raw' hraw =>
    obtain rfl : raw' = raw := Except.ok.inj hread
    exact admits_readWorkflow hp hraw (exists_toWorkflow.mp ⟨w, hw⟩)
  · cases hread

/-- A test for texts without space. -/
def nonspace (_pattern s : String) : Bool := s ≠ "" && s.toList.all fun c => !isSpace c

lemma testsNonspace_nonspace : TestsNonspace nonspace := by
  intro s
  simp [nonspace]

/-- A workflow of one node, with these further fields. -/
def nodeDocument (fields : List (String × Value)) : Value := .object [
  ("pureflow_version", .string "1"),
  ("id", .string "flow"),
  ("nodes", .array [.object (
    [("id", .string "a"), ("inputs", .array []), ("outputs", .array [])] ++ fields)]),
  ("edges", .array [])]

/-- The text of that document, with the text of the fields. -/
def nodeText (fields : String) : String :=
  "\x7b\"pureflow_version\":\"1\",\"id\":\"flow\",\"nodes\":[\x7b\"id\":\"a\"," ++
  "\"inputs\":[],\"outputs\":[]" ++ fields ++ "\x7d],\"edges\":[]\x7d"

/-- A node without a rule set is admitted. -/
theorem schema_admits_iff_sample :
    admits nonspace workflowSchemaJson (nodeDocument []) = true := by
  have hok : (workflowFromJsonStr (libraryOf (nodeText "") (nodeDocument []))
      (nodeText "")).toBool = true := by
    decide +kernel
  obtain ⟨w, hw⟩ := Result.exists_ok hok
  refine (schema_admits_iff testsNonspace_nonspace (libraryOf_fromStr _ _) hw).mpr
    ⟨⟨⟨_, rfl⟩, ?_, ?_⟩, ?_⟩
  · rintro items hitems node hnode
    cases hitems
    obtain rfl := List.mem_singleton.mp hnode
    exact ⟨⟨_, rfl⟩, rfl, rfl⟩
  · rintro items hitems edge hedge
    cases hitems
    cases hedge
  · unfold Unmarked
    decide

/-- **The schema refuses rule sets**: a workflow with a rule set in it is accepted and not
admitted. -/
theorem schema_refuses : ¬ ∀ (p : String → String → Bool) (json : JsonLibrary) (input : String)
    (document : Value) (w : WorkflowDefinition), TestsNonspace p →
    json.fromStr input = .ok document → workflowFromJsonStr json input = .ok w →
      admits p workflowSchemaJson document = true := by
  intro hall
  have hok : (workflowFromJsonStr (libraryOf (nodeText ",\"rule_set\":true")
      (nodeDocument [("rule_set", .bool true)])) (nodeText ",\"rule_set\":true")).toBool = true := by
    decide +kernel
  obtain ⟨w, hw⟩ := Result.exists_ok hok
  have hadmits := hall nonspace _ _ _ w testsNonspace_nonspace (libraryOf_fromStr _ _) hw
  revert hadmits
  decide +kernel

end Results

end Pureflow.Cli
