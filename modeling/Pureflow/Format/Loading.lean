import Pureflow.Format.Conversion
import Pureflow.Format.WellFormed
import Pureflow.Workflow.Sorting

/-!
Loading of rule sets: what is loaded is exactly as well formed as the documents and the sources
it comes from.
-/

namespace Pureflow.Format

open Std Pureflow.Types Pureflow.Rules Pureflow.Workflow Pureflow.Lib Pureflow.Lib.Serde
  Pureflow.Lib.Json

section Sources

variable {host : Host} {ruleSet : RuleSet}

lemma fromValue_wellFormed {v : Value} (h : host.fromValue v = .ok ruleSet) :
    ruleSet.WellFormed ↔ WellFormedDocument v := by
  unfold Host.fromValue at h
  split at h
  · next hread =>
    cases h
    exact (describes_readRuleSet hread).wellFormed_iff
  · cases h

/-- The document in a file is that of a well-formed rule set. -/
def WellFormedFile (host : Host) (path : String) : Prop :=
  ∀ text v, host.readToString path = .ok text → host.parse text = .ok v → WellFormedDocument v

/-- What a source has for a URI is well formed. -/
def Supplies (host : Host) (refUri : String) : RuleSetSource → Prop
  | .localFs source => WellFormedFile host (source.resolvePath refUri)
  | .embedded source => source.ruleSet.WellFormed
  | .custom load => ∀ ruleSet, load refUri = .ok ruleSet → ruleSet.WellFormed

/-- The source a registry sends a URI to; one with an unknown scheme has none. -/
def SourceRegistry.sourceFor (registry : SourceRegistry) (refUri : String) :
    Option RuleSetSource :=
  match extractScheme refUri with
  | some scheme => registry.sources.lookup scheme
  | none => some (.localFs registry.plainSource)

lemma localFs_reads {source : LocalFsSource} {refUri : String}
    (h : source.load host refUri = .ok ruleSet) :
    ∃ text v, host.readToString (source.resolvePath refUri) = .ok text ∧
      host.parse text = .ok v ∧ readRuleSet .text v = some ruleSet := by
  unfold LocalFsSource.load at h
  cases hexists : host.pathExists (source.resolvePath refUri) with
  | false => simp [hexists, throw, throwThe, MonadExceptOf.throw] at h
  | true =>
    simp only [hexists, Bool.not_true, Bool.false_eq_true, if_false, Result.bind_eq_ok,
      Result.mapError_eq_ok, Host.fromStr] at h
    obtain ⟨text, htext, v, hparse, hread⟩ := h
    refine ⟨text, v, htext, hparse, ?_⟩
    split at hread
    · next hruleSet =>
      cases hread
      exact hruleSet
    · cases hread

lemma localFs_wellFormed {source : LocalFsSource} {refUri : String}
    (h : source.load host refUri = .ok ruleSet) :
    ruleSet.WellFormed ↔ WellFormedFile host (source.resolvePath refUri) := by
  obtain ⟨text, v, htext, hparse, hread⟩ := localFs_reads h
  rw [(describes_readRuleSet hread).wellFormed_iff]
  refine ⟨fun hdoc text' v' htext' hparse' => ?_, fun hfile => hfile text v htext hparse⟩
  cases htext.symm.trans htext'
  cases hparse.symm.trans hparse'
  exact hdoc

lemma source_wellFormed {source : RuleSetSource} {refUri : String}
    (h : source.load host refUri = .ok ruleSet) :
    ruleSet.WellFormed ↔ Supplies host refUri source := by
  cases source with
  | localFs source => exact localFs_wellFormed h
  | embedded source =>
    cases h
    rfl
  | custom load =>
    refine ⟨fun hwf other hother => ?_, fun hall => hall ruleSet h⟩
    cases h.symm.trans hother
    exact hwf

lemma registry_wellFormed {registry : SourceRegistry} {refUri : String}
    (h : registry.load host refUri = .ok ruleSet) :
    ruleSet.WellFormed ↔ ∀ source ∈ registry.sourceFor refUri, Supplies host refUri source := by
  unfold SourceRegistry.load at h
  unfold SourceRegistry.sourceFor
  cases hscheme : extractScheme refUri with
  | none =>
    rw [hscheme] at h
    rw [localFs_wellFormed h]
    simp [Supplies]
  | some scheme =>
    rw [hscheme] at h
    cases hsource : registry.sources.lookup scheme with
    | none =>
      simp only [hsource] at h
      cases h
    | some source =>
      simp only [hsource] at h
      rw [source_wellFormed h]
      simp [hsource]

end Sources

section Nodes

variable {host : Host} {registry : SourceRegistry} {nodeIndex : ℕ} {node : RawNodeDefinition}

/-- What a node's rule set is loaded from is well formed: its inline document, or what the source
of its reference has. -/
def WellFormedOrigin (host : Host) (registry : SourceRegistry) (node : RawNodeDefinition) : Prop :=
  match node.ruleSet, node.ruleSetRef with
  | some inline, none => WellFormedDocument inline
  | none, some refUri => ∀ source ∈ registry.sourceFor refUri, Supplies host refUri source
  | _, _ => True

/-- **The rule set of a node is as well formed as what it is loaded from.** -/
theorem resolveNodeRuleSet_wellFormed {resolved : Option RuleSet}
    (h : resolveNodeRuleSet host registry nodeIndex node = .ok resolved) :
    (∀ ruleSet ∈ resolved, ruleSet.WellFormed) ↔ WellFormedOrigin host registry node := by
  unfold resolveNodeRuleSet at h
  unfold WellFormedOrigin
  cases hinline : node.ruleSet with
  | some inline =>
    cases href : node.ruleSetRef with
    | some refUri => simp [hinline, href] at h
    | none =>
      simp only [hinline, href, Result.map_eq_ok, Result.mapError_eq_ok] at h
      obtain ⟨ruleSet, hread, rfl⟩ := h
      simpa using fromValue_wellFormed hread
  | none =>
    cases href : node.ruleSetRef with
    | some refUri =>
      simp only [hinline, href, Result.map_eq_ok, Result.mapError_eq_ok] at h
      obtain ⟨ruleSet, hload, rfl⟩ := h
      simpa using registry_wellFormed hload
    | none =>
      simp only [hinline, href, Except.ok.injEq] at h
      simp [← h]

end Nodes

section Documents

variable {host : Host} {registry : SourceRegistry} {raw : RawWorkflowDefinition}

lemma forall_zipIdx {α : Type} {P : α → Prop} {xs : List α} :
    (∀ p ∈ xs.zipIdx, P p.1) ↔ ∀ x ∈ xs, P x := by
  conv_rhs => rw [← List.zipIdx_map_fst 0 xs, List.forall_mem_map]

/-- The rule set that was written into a node is well formed. -/
def InlinesWellFormed (node : RawNodeDefinition) : Prop :=
  ∀ v ∈ node.ruleSet, ∃ ruleSet, v = ruleSetValue ruleSet ∧ ruleSet.WellFormed

lemma inlines_iff {node : RawNodeDefinition} {ruleSet : Option RuleSet}
    (h : node.ruleSet = ruleSet.map ruleSetValue) :
    InlinesWellFormed node ↔ ∀ r ∈ ruleSet, r.WellFormed := by
  unfold InlinesWellFormed
  rw [h]
  cases ruleSet with
  | none => simp
  | some ruleSet =>
    simp only [Option.map_some, Option.mem_def, Option.some.injEq, forall_eq']
    constructor
    · rintro ⟨other, heq, hwf⟩
      -- two rule sets written alike are as well formed as what is written
      rw [(describes_ruleSetValue ruleSet).wellFormed_iff, heq]
      exact (describes_ruleSetValue other).wellFormed_iff.mp hwf
    · intro hwf
      exact ⟨ruleSet, rfl, hwf⟩

/-- **Inlining** writes well-formed rule sets exactly if they come from well-formed ones. -/
theorem resolveRuleSets_wellFormed {resolved : RawWorkflowDefinition}
    (h : raw.resolveRuleSets host registry = .ok resolved) :
    (∀ node ∈ resolved.nodes, InlinesWellFormed node) ↔
      ∀ node ∈ raw.nodes, WellFormedOrigin host registry node := by
  simp only [RawWorkflowDefinition.resolveRuleSets, Result.bind_eq_ok, pure, Except.pure,
    Except.ok.injEq, Result.mapM_eq_ok] at h
  obtain ⟨nodes, hnodes, rfl⟩ := h
  refine (Result.forall_mem_iff (fun p node hresolved => ?_) hnodes).symm.trans forall_zipIdx
  simp only [RawWorkflowDefinition.resolveNode, Result.bind_eq_ok, pure, Except.pure,
    Except.ok.injEq] at hresolved
  obtain ⟨ruleSet, hruleSet, rfl⟩ := hresolved
  rw [inlines_iff rfl]
  exact (resolveNodeRuleSet_wellFormed hruleSet).symm

/-- The rule sets of a map are well formed. -/
def AllWellFormed (ruleSets : ExtTreeMap NodeId RuleSet) : Prop :=
  ∀ (nodeId : NodeId) (ruleSet : RuleSet), ruleSets[nodeId]? = some ruleSet → ruleSet.WellFormed

lemma allWellFormed_empty : AllWellFormed ∅ := by
  intro nodeId ruleSet h
  simp at h

lemma allWellFormed_insert {ruleSets : ExtTreeMap NodeId RuleSet} {nodeId : NodeId}
    {ruleSet : RuleSet} (h : ruleSets[nodeId]? = none) :
    AllWellFormed (ruleSets.insert nodeId ruleSet) ↔
      AllWellFormed ruleSets ∧ ruleSet.WellFormed := by
  unfold AllWellFormed
  simp only [ExtTreeMap.getElem?_insert, Std.compare_eq_iff_eq]
  constructor
  · intro hall
    refine ⟨fun other r hr => hall other r ?_, hall nodeId ruleSet (by simp)⟩
    rw [if_neg]
    · exact hr
    · rintro rfl
      simp [h] at hr
  · rintro ⟨hall, hwf⟩ other r hr
    split at hr
    · cases hr
      exact hwf
    · exact hall other r hr

/-- The loop that collects the rule sets; the ids of the nodes are distinct, so that none is
replaced. -/
lemma loadWorkflow_go {entries : List (RawNodeDefinition × ℕ)}
    {ruleSets result : ExtTreeMap NodeId RuleSet}
    (h : RawWorkflowDefinition.loadWorkflow.go host registry entries ruleSets = .ok result)
    (hnd : (entries.map fun p => p.1.id).Nodup)
    (hfresh : ∀ p ∈ entries, ∀ nodeId : NodeId, nodeId.value = p.1.id → ruleSets[nodeId]? = none) :
    AllWellFormed result ↔
      AllWellFormed ruleSets ∧ ∀ p ∈ entries, WellFormedOrigin host registry p.1 := by
  induction entries generalizing ruleSets with
  | nil =>
    cases h
    simp
  | cons entry entries ih =>
    obtain ⟨node, nodeIndex⟩ := entry
    rw [List.map_cons, List.nodup_cons] at hnd
    rw [List.forall_mem_cons] at hfresh
    simp only [RawWorkflowDefinition.loadWorkflow.go, Result.bind_eq_ok] at h
    obtain ⟨resolved, hresolved, h⟩ := h
    have horigin := resolveNodeRuleSet_wellFormed hresolved
    cases resolved with
    | none =>
      rw [ih h hnd.2 hfresh.2, List.forall_mem_cons, ← horigin]
      simp
    | some ruleSet =>
      simp only [Result.bind_eq_ok, identifierAt_eq_ok] at h
      obtain ⟨nodeId, hid, h⟩ := h
      have hrest : ∀ p ∈ entries, ∀ other : NodeId, other.value = p.1.id →
          (ruleSets.insert nodeId ruleSet)[other]? = none := by
        intro p hp other hother
        rw [ExtTreeMap.getElem?_insert, if_neg]
        · exact hfresh.2 p hp other hother
        · intro heq
          obtain rfl := Std.compare_eq_iff_eq.mp heq
          exact hnd.1 (List.mem_map.mpr ⟨p, hp, hother.symm.trans hid⟩)
      rw [ih h hnd.2 hrest, allWellFormed_insert (hfresh.1 nodeId hid), List.forall_mem_cons,
        ← horigin]
      simp [and_assoc]

lemma nodup_of_toWorkflow {w : WorkflowDefinition} (h : raw.toWorkflow = .ok w) :
    (raw.nodes.map (·.id)).Nodup := by
  obtain ⟨-, hmirrors, -⟩ := toWorkflow_eq_ok.mp h
  have hids : raw.nodes.map (·.id) = (nodeIds w.nodes).map (·.value) := by
    have hnodes := hmirrors.nodes
    rw [nodeIds, List.map_map, ← List.forall₂_eq_eq_eq, List.forall₂_map_left_iff,
      List.forall₂_map_right_iff]
    exact hnodes.imp fun raw node hnode => hnode.id.symm
  rw [hids]
  exact (graph_valid w).1.map fun _ _ => Identifier.ext

/-- **Loading** gives well-formed rule sets exactly if they come from well-formed ones. -/
theorem loadWorkflow_wellFormed {loaded : LoadedWorkflow}
    (h : raw.loadWorkflow host registry = .ok loaded) :
    AllWellFormed loaded.ruleSets ↔ ∀ node ∈ raw.nodes, WellFormedOrigin host registry node := by
  simp only [RawWorkflowDefinition.loadWorkflow, Result.bind_eq_ok, pure, Except.pure,
    Except.ok.injEq] at h
  obtain ⟨w, hw, ruleSets, hruleSets, rfl⟩ := h
  have hnd : (raw.nodes.zipIdx.map fun p => p.1.id).Nodup := by
    have hids := nodup_of_toWorkflow hw
    rwa [← List.zipIdx_map_fst 0 raw.nodes, List.map_map] at hids
  rw [loadWorkflow_go hruleSets hnd (by simp), forall_zipIdx]
  simp [allWellFormed_empty]

end Documents

section Results

/-- **What is loaded is as well formed as what it is loaded from**, along every path: a document
in memory, a file, a rule set that was wrapped, the inlining of references and the loading of a
workflow. -/
theorem loaded_wellFormed_iff (host : Host) :
    (∀ (json : Value) (source : EmbeddedSource), EmbeddedSource.fromJson host json = .ok source →
      (source.ruleSet.WellFormed ↔ WellFormedDocument json)) ∧
    (∀ (source : EmbeddedSource) (refUri : String) (ruleSet : RuleSet),
      source.load refUri = .ok ruleSet → (ruleSet.WellFormed ↔ source.ruleSet.WellFormed)) ∧
    (∀ (source : LocalFsSource) (refUri : String) (ruleSet : RuleSet),
      source.load host refUri = .ok ruleSet →
        (ruleSet.WellFormed ↔ WellFormedFile host (source.resolvePath refUri))) ∧
    (∀ (registry : SourceRegistry) (raw resolved : RawWorkflowDefinition),
      raw.resolveRuleSets host registry = .ok resolved →
        ((∀ node ∈ resolved.nodes, InlinesWellFormed node) ↔
          ∀ node ∈ raw.nodes, WellFormedOrigin host registry node)) ∧
    (∀ (registry : SourceRegistry) (raw : RawWorkflowDefinition) (loaded : LoadedWorkflow),
      raw.loadWorkflow host registry = .ok loaded →
        (AllWellFormed loaded.ruleSets ↔
          ∀ node ∈ raw.nodes, WellFormedOrigin host registry node)) := by
  refine ⟨fun json source h => ?_, fun source refUri ruleSet h => ?_,
    fun source refUri ruleSet h => localFs_wellFormed h,
    fun registry raw resolved h => resolveRuleSets_wellFormed h,
    fun registry raw loaded h => loadWorkflow_wellFormed h⟩
  · simp only [EmbeddedSource.fromJson, Result.bind_eq_ok, Result.mapError_eq_ok, pure,
      Except.pure, Except.ok.injEq] at h
    obtain ⟨ruleSet, hread, rfl⟩ := h
    exact fromValue_wellFormed hread
  · cases h
    rfl

/-- The document of a rule that drops every packet. -/
def sampleRule (id : String) (priority : UInt64) : Value := .object [
  ("action", .string "Drop"), ("condition", .string "Always"), ("description", .string ""),
  ("id", .string id), ("priority", .number (.posInt priority))]

/-- A workflow of one node, with two rules of the given priorities written into it. -/
def sampleDocument (first second : UInt64) : RawWorkflowDefinition where
  pureflowVersion := some "1"
  id := "flow"
  nodes := [{
    id := "router", inputs := ["in"], outputs := [],
    ruleSet := some (.object [
      ("default_action", .string "Drop"), ("id", .string "rules"),
      ("rules", .array [sampleRule "a" first, sampleRule "b" second]),
      ("strategy", .string "FirstMatch"), ("trace_conditions", .bool false)]),
    ruleSetRef := none }]
  edges := []

/-- A host without files. -/
def sampleHost : Host where
  pathExists _ := false
  readToString _ := .error "no such file"
  parse _ := .error "expected value"
  rejection _ _ := "invalid type"

/-- Rules that ascend are loaded well formed. -/
theorem loaded_wellFormed_sample : ∃ loaded,
    (sampleDocument 1 2).loadWorkflow sampleHost ⟨[], none⟩ = .ok loaded ∧
      AllWellFormed loaded.ruleSets := by
  have hok : ((sampleDocument 1 2).loadWorkflow sampleHost ⟨[], none⟩).toBool = true := by
    decide +kernel
  obtain ⟨loaded, hloaded⟩ := Result.exists_ok hok
  obtain ⟨-, -, -, -, hiff⟩ := loaded_wellFormed_iff sampleHost
  refine ⟨loaded, hloaded, (hiff _ _ _ hloaded).mpr ?_⟩
  intro node hnode
  obtain rfl := List.mem_singleton.mp hnode
  refine ⟨by decide, by decide, by decide, ?_, by decide⟩
  simp [rulesOf, priorityOf, sampleRule, member, entry, readU32, ruleFields]

/-- **Not every loaded rule set is well formed**: rules that descend are loaded as they stand. -/
theorem loaded_unsorted : ¬ ∀ (host : Host) (registry : SourceRegistry)
    (raw : RawWorkflowDefinition) (loaded : LoadedWorkflow),
      raw.loadWorkflow host registry = .ok loaded → AllWellFormed loaded.ruleSets := by
  intro hall
  have hok : ((sampleDocument 2 1).loadWorkflow sampleHost ⟨[], none⟩).toBool = true := by
    decide +kernel
  obtain ⟨loaded, hloaded⟩ := Result.exists_ok hok
  have horigin := (loadWorkflow_wellFormed hloaded).mp (hall _ _ _ loaded hloaded)
  have hdoc := horigin _ (List.mem_singleton.mpr rfl)
  have hascending := hdoc.ascending
  simp [rulesOf, priorityOf, sampleRule, member, entry, readU32, ruleFields] at hascending

end Results

end Pureflow.Format
