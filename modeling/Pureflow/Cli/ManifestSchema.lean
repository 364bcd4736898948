import Pureflow.Cli.Manifest
import Pureflow.Cli.Schema

/-!
The JSON Schema that the command line emits for WASM component manifests, against the manifests it
reads.
-/

namespace Pureflow.Cli

open Pureflow.Types Pureflow.Workflow Pureflow.Format Pureflow.Lib Pureflow.Lib.Serde
  Pureflow.Lib.Json Pureflow.Lib.JsonSchema

section Schema

def componentPathSchemaJson : Value := .object [
  ("type", .string "string"),
  ("minLength", num 1),
  ("description", .string
    "Path to the component file. Relative paths resolve from the manifest directory.")]

def fuelSchemaJson : Value := .object [
  ("type", .string "integer"),
  ("minimum", num 0),
  ("description", .string "Optional Wasmtime fuel limit. Omit to use the runtime default.")]

def componentProperties : List (String × Value) := [
  ("node", identifierSchemaJson "Workflow node served by this component."),
  ("component", componentPathSchemaJson),
  ("fuel", fuelSchemaJson)]

/-- The schema of a component, the items of `components`. -/
def componentSchemaJson : Value := .object [
  ("type", .string "object"),
  ("additionalProperties", .bool false),
  ("required", .array [.string "node", .string "component"]),
  ("properties", .object componentProperties)]

def componentsSchemaJson : Value := .object [
  ("type", .string "array"),
  ("description", .string "WASM component entries keyed by workflow node."),
  ("items", componentSchemaJson)]

def manifestProperties : List (String × Value) := [("components", componentsSchemaJson)]

def wasmComponentManifestSchemaJson : Value := .object [
  ("$schema", .string "https://json-schema.org/draft/2020-12/schema"),
  ("$id", .string "https://pureflow.dev/schemas/wasm-component-manifest.schema.json"),
  ("title", .string "Pureflow WASM component manifest"),
  ("type", .string "object"),
  ("additionalProperties", .bool false),
  ("required", .array [.string "components"]),
  ("properties", .object manifestProperties)]

end Schema

section Meaning

variable {p : String → String → Bool} {v : Value}

lemma admits_component : admits p componentSchemaJson v = true ↔
    AdmitsRecord p ["node", "component"] componentProperties v :=
  admits_record ["node", "component"] componentProperties [] [] (List.forall_mem_nil _)
    (List.forall_mem_nil _)

lemma admits_manifest : admits p wasmComponentManifestSchemaJson v = true ↔
    AdmitsRecord p ["components"] manifestProperties v :=
  admits_record ["components"] manifestProperties [_, _, _] [] (by simp [annotations])
    (List.forall_mem_nil _)

lemma admits_componentPath {s : String} :
    admits p componentPathSchemaJson (.string s) = true ↔ s ≠ "" := by
  have hlength : 1 ≤ s.length ↔ s ≠ "" := by
    rw [Nat.one_le_iff_ne_zero, ne_eq, String.length_eq_zero_iff]
  simp [componentPathSchemaJson, num, admits, admitsKeywords, assertion, hasType, hlength]

lemma admits_fuel {w : Value} {fuel : Option UInt64} (h : readOption readUsize w = some fuel) :
    admits p fuelSchemaJson w = true ↔ w ≠ .null := by
  have hadmits : admits p fuelSchemaJson w = true ↔
      ∃ n, w = .number n ∧ isInteger n = true ∧ atLeast (.posInt 0) n = true := by
    cases w with
    | number n => simp [fuelSchemaJson, num, admits, admitsKeywords, assertion, hasType]
    | _ => simp [fuelSchemaJson, admits, admitsKeywords, assertion, hasType]
  rw [hadmits]
  cases w with
  | null => simp
  | number n =>
    refine iff_of_true ⟨n, rfl, ?_⟩ (by simp)
    cases n with
    | posInt n => exact ⟨isInteger_posInt n, by simp [atLeast, ofNumber]⟩
    | negInt n =>
      simp only [readOption, readUsize, Option.map_eq_some_iff] at h
      obtain ⟨k, hk, -⟩ := h
      split_ifs at hk with hn
      have hnonneg : 0 ≤ n.toInt := by simpa using Int64.le_iff_toInt_le.mp hn
      have hle : (0 : ℚ) ≤ (n.toInt : ℚ) := by exact_mod_cast hnonneg
      exact ⟨isInteger_negInt n, by simpa [atLeast, ofNumber] using hle⟩
    | float x => cases h
  | _ => cases h

end Meaning

section Reads

variable {v : Value}

lemma readRawSpec_eq_some {raw : RawWasmComponentSpec} (h : readRawSpec v = some raw) :
    isStrictRecord RawWasmComponentSpec.fields 3 v = true ∧
    field RawWasmComponentSpec.fields "node" readString v = some raw.node ∧
    field RawWasmComponentSpec.fields "component" readString v = some raw.component ∧
    optionalField RawWasmComponentSpec.fields "fuel" readUsize v = some raw.fuel := by
  simp only [readRawSpec, Option.bind_eq_bind, Option.bind_eq_some_iff, Option.pure_def,
    Option.some.injEq, Option.guard_eq_some'] at h
  obtain ⟨-, hstrict, node, hnode, component, hcomponent, fuel, hfuel, rfl⟩ := h
  exact ⟨hstrict, hnode, hcomponent, hfuel⟩

lemma readRawManifest_eq_some {raw : RawWasmComponentManifest} (h : readRawManifest v = some raw) :
    isStrictRecord ["components"] 1 v = true ∧
    field ["components"] "components" (readList readRawSpec) v = some raw.components := by
  simp only [readRawManifest, Option.bind_eq_bind, Option.bind_eq_some_iff, Option.pure_def,
    Option.some.injEq, Option.guard_eq_some'] at h
  obtain ⟨-, hstrict, components, hcomponents, rfl⟩ := h
  exact ⟨hstrict, hcomponents⟩

end Reads

section Records

variable {p : String → String → Bool} {v : Value}

lemma admitsRecord_fields {required : List String} {schemas entries : List (String × Value)}
    (P : String → Value → Prop) (hrequired : ∀ name ∈ required, ∃ w, (name, w) ∈ entries)
    (hkeys : ∀ e ∈ entries, e.1 ∈ schemas.map (·.1))
    (hfields : ∀ f ∈ schemas, ∀ w, (f.1, w) ∈ entries → (admits p f.2 w = true ↔ P f.1 w)) :
    AdmitsRecord p required schemas (.object entries) ↔ ∀ e ∈ entries, P e.1 e.2 := by
  constructor
  · rintro ⟨_, hobject, -, -, hadmits⟩ ⟨key, w⟩ he
    cases hobject
    obtain ⟨f, hf, rfl⟩ := List.mem_map.mp (hkeys _ he)
    exact (hfields f hf w he).mp (hadmits f hf w he)
  · intro hall
    exact ⟨entries, rfl, hkeys, hrequired, fun f hf w he => (hfields f hf w he).mpr (hall _ he)⟩

/-- A component that is written as an object, with some path, no byte order mark in its node and no
null as its fuel. -/
structure PlainSpec (v : Value) : Prop where
  object : IsObject v
  node : ∀ w ∈ member RawWasmComponentSpec.fields "node" v, Unmarked w
  component : member RawWasmComponentSpec.fields "component" v ≠ some (.string "")
  fuel : member RawWasmComponentSpec.fields "fuel" v ≠ some .null

/-- A manifest that is written as an object and all whose components are plain. -/
structure PlainManifest (v : Value) : Prop where
  object : IsObject v
  components : ∀ items, member ["components"] "components" v = some (.array items) →
    ∀ item ∈ items, PlainSpec item

/-- What the schema asks of the fields of a component. -/
def SpecFieldPlain (name : String) (w : Value) : Prop :=
  (name = "node" → Unmarked w) ∧ (name = "component" → w ≠ .string "") ∧
    (name = "fuel" → w ≠ .null)

lemma admits_readSpec (hp : TestsNonspace p) {raw : RawWasmComponentSpec}
    (h : readRawSpec v = some raw) (hvalid : Valid .node raw.node) :
    admits p componentSchemaJson v = true ↔ PlainSpec v := by
  have hiff : AdmitsRecord p ["node", "component"] componentProperties v ↔
      IsObject v ∧ PlainSpec v := by
    refine admitsRecord_iff_isObject ?_
    rintro entries rfl
    obtain ⟨hstrict, hnode, hcomponent, hfuel⟩ := readRawSpec_eq_some h
    have hfields : ∀ f ∈ componentProperties, ∀ w, (f.1, w) ∈ entries →
        (admits p f.2 w = true ↔ SpecFieldPlain f.1 w) := by
      simp only [componentProperties, List.forall_mem_cons]
      refine ⟨fun w hw => ?_, fun w hw => ?_, fun w hw => ?_, List.forall_mem_nil _⟩
      · obtain rfl := readString_eq_some (strict_field_read hstrict hnode hw)
        rw [admits_valid hp hvalid]
        simp [SpecFieldPlain]
      · obtain rfl := readString_eq_some (strict_field_read hstrict hcomponent hw)
        rw [admits_componentPath]
        simp [SpecFieldPlain]
      · rw [admits_fuel (strict_optional_read hstrict hfuel hw)]
        simp [SpecFieldPlain]
    have hrequired : ∀ name ∈ ["node", "component"], ∃ w, (name, w) ∈ entries := by
      simp only [List.forall_mem_cons]
      exact ⟨strict_field_present hstrict hnode, strict_field_present hstrict hcomponent,
        List.forall_mem_nil _⟩
    have hkeys : ∀ e ∈ entries, e.1 ∈ componentProperties.map (·.1) :=
      (strictRecord_object.mp hstrict).1
    rw [admitsRecord_fields SpecFieldPlain hrequired hkeys hfields]
    constructor
    · intro hall
      refine ⟨⟨entries, rfl⟩, fun w hw => ?_, fun hw => ?_, fun hw => ?_⟩
      · exact (hall _ ((strict_member hstrict).mp hw)).1 rfl
      · exact (hall _ ((strict_member hstrict).mp hw)).2.1 rfl rfl
      · exact (hall _ ((strict_member hstrict).mp hw)).2.2 rfl rfl
    · rintro hplain ⟨key, w⟩ he
      have hw : member RawWasmComponentSpec.fields key (.object entries) = some w :=
        (strict_member hstrict).mpr he
      refine ⟨?_, ?_, ?_⟩
      · rintro rfl
        exact hplain.node w hw
      · rintro rfl rfl
        exact hplain.component hw
      · rintro rfl rfl
        exact hplain.fuel hw
  rw [admits_component, hiff]
  exact and_iff_right_of_imp fun h => h.object

lemma admits_readSpecs (hp : TestsNonspace p) {raws : List RawWasmComponentSpec}
    (h : readList readRawSpec v = some raws) (hvalid : ∀ raw ∈ raws, Valid .node raw.node) :
    admits p componentsSchemaJson v = true ↔
      ∀ items, v = .array items → ∀ item ∈ items, PlainSpec item := by
  obtain ⟨items, rfl, hitems⟩ := readList_eq_some h
  have harray : admits p componentsSchemaJson (.array items) = true ↔
      ∀ w ∈ items, admits p componentSchemaJson w = true := by
    rw [componentsSchemaJson, admits_items]
    simp
  rw [harray]
  simp only [Value.array.injEq, forall_eq']
  refine forall₂_congr fun w hw => ?_
  obtain ⟨raw, hraw, hread⟩ := Result.exists_mem_left hitems.flip hw
  exact admits_readSpec hp hread (hvalid raw hraw)

lemma admits_readManifest (hp : TestsNonspace p) {raw : RawWasmComponentManifest}
    (h : readRawManifest v = some raw) (hvalid : ∀ spec ∈ raw.components, Valid .node spec.node) :
    admits p wasmComponentManifestSchemaJson v = true ↔ PlainManifest v := by
  have hiff : AdmitsRecord p ["components"] manifestProperties v ↔
      IsObject v ∧ PlainManifest v := by
    refine admitsRecord_iff_isObject ?_
    rintro entries rfl
    obtain ⟨hstrict, hcomponents⟩ := readRawManifest_eq_some h
    obtain ⟨w, hw⟩ := strict_field_present hstrict hcomponents
    have hread := strict_field_read hstrict hcomponents hw
    have hfields : ∀ f ∈ manifestProperties, ∀ w, (f.1, w) ∈ entries →
        (admits p f.2 w = true ↔ ∀ items, w = .array items → ∀ item ∈ items, PlainSpec item) := by
      simp only [manifestProperties, List.forall_mem_cons]
      exact ⟨fun w hw => admits_readSpecs hp (strict_field_read hstrict hcomponents hw) hvalid,
        List.forall_mem_nil _⟩
    have hrequired : ∀ name ∈ ["components"], ∃ w, (name, w) ∈ entries := by
      simp only [List.forall_mem_cons]
      exact ⟨⟨w, hw⟩, List.forall_mem_nil _⟩
    have hkeys : ∀ e ∈ entries, e.1 ∈ manifestProperties.map (·.1) :=
      (strictRecord_object.mp hstrict).1
    rw [admitsRecord_fields
      (fun _ w => ∀ items, w = .array items → ∀ item ∈ items, PlainSpec item)
      hrequired hkeys hfields]
    constructor
    · intro hall
      exact ⟨⟨entries, rfl⟩, fun items hitems => hall _ ((strict_member hstrict).mp hitems) items rfl⟩
    · rintro hplain ⟨key, w⟩ he items rfl
      obtain rfl : key = "components" := List.mem_singleton.mp (hkeys _ he)
      exact hplain.components items ((strict_member hstrict).mpr he)
  rw [admits_manifest, hiff]
  exact and_iff_right_of_imp fun h => h.object

end Records

section Results

variable {p : String → String → Bool} {json : JsonLibrary} {paths : Paths}
  {input manifestPath : String} {document : Value} {specs : List CliWasmComponentSpec}

lemma valid_of_specs {manifestDir : String} {raws : List RawWasmComponentSpec}
    (h : raws.mapM (componentSpec manifestDir) = .ok specs) :
    ∀ raw ∈ raws, Valid .node raw.node := by
  intro raw hraw
  obtain ⟨spec, -, hspec⟩ := Result.exists_mem_left (Result.mapM_eq_ok.mp h).flip hraw
  cases hid : Identifier.new .node raw.node with
  | error e =>
    rw [componentSpec, hid] at hspec
    cases hspec
  | ok nodeId => exact valid_iff.mpr ⟨nodeId, identifier_eq_ok.mp hid⟩

/-- **The schema admits a manifest exactly when it is written plainly**: of the documents that are
read as manifests, it admits those that are written with objects for their records, and in which no
component has an empty path, a null as its fuel or a byte order mark in its node. -/
theorem manifestSchema_admits_iff (hp : TestsNonspace p) (hparse : json.fromStr input = .ok document)
    (h : wasmComponentSpecsFromManifest json paths input manifestPath = .ok specs) :
    admits p wasmComponentManifestSchemaJson document = true ↔ PlainManifest document := by
  simp only [wasmComponentSpecsFromManifest, Result.bind_eq_ok, Result.mapError_eq_ok] at h
  obtain ⟨v, hv, hspecs⟩ := h
  obtain rfl : document = v := Except.ok.inj (hparse.symm.trans hv)
  split at hspecs
  · cases hspecs
  · next raw hraw => exact admits_readManifest hp hraw (valid_of_specs hspecs)

/-- A manifest with a path and fuel is admitted. -/
theorem manifestSchema_admits_iff_sample :
    admits nonspace wasmComponentManifestSchemaJson manifestDocument = true := by
  have hok : (wasmComponentSpecsFromManifest (libraryOf manifestText manifestDocument)
      manifestPaths manifestText "components/m.json").toBool = true := by
    decide +kernel
  obtain ⟨specs, h⟩ := Result.exists_ok hok
  refine (manifestSchema_admits_iff testsNonspace_nonspace (libraryOf_fromStr _ _) h).mpr
    ⟨⟨_, rfl⟩, ?_⟩
  rintro items hitems spec hspec
  cases hitems
  obtain rfl := List.mem_singleton.mp hspec
  refine ⟨⟨_, rfl⟩, fun w hw => ?_, by decide, by decide⟩
  cases hw
  unfold Unmarked
  decide

end Results

end Pureflow.Cli
