import Pureflow.Format.Loading
import Pureflow.Format.RoundTrip

/-!
Inlining keeps what a document means: with its references replaced by the rule sets they stand
for, it is converted and loaded as before.
-/

namespace Pureflow.Format

open Std Pureflow.Types Pureflow.Rules Pureflow.Workflow Pureflow.Lib Pureflow.Lib.Json

variable {host : Host} {registry : SourceRegistry}

/-- The rule set is read back from what is written of it. -/
def RoundTrips (host : Host) (ruleSet : RuleSet) : Prop :=
  host.fromValue (ruleSetValue ruleSet) = .ok ruleSet

lemma roundTrips_of_finite (host : Host) {ruleSet : RuleSet} (h : ruleSet.Finite) :
    RoundTrips host ruleSet := by
  unfold RoundTrips Host.fromValue
  rw [readRuleSet_ruleSetValue h]

section Nodes

variable {node resolved : RawNodeDefinition} {nodeIndex : ℕ}

/-- A node that stands for another: with the same ports, without a reference, and with its rule
set whatever the registry. -/
structure Inlines (host : Host) (registry : SourceRegistry) (nodeIndex : ℕ)
    (node resolved : RawNodeDefinition) : Prop where
  id : resolved.id = node.id
  inputs : resolved.inputs = node.inputs
  outputs : resolved.outputs = node.outputs
  ruleSetRef : resolved.ruleSetRef = none
  ruleSet : ∀ registry', resolveNodeRuleSet host registry' nodeIndex resolved =
    resolveNodeRuleSet host registry nodeIndex node
  again : ∀ registry', RawWorkflowDefinition.resolveNode host registry' nodeIndex resolved =
    .ok resolved

lemma resolveNode_eq_ok
    (h : RawWorkflowDefinition.resolveNode host registry nodeIndex node = .ok resolved) :
    ∃ ruleSet, resolveNodeRuleSet host registry nodeIndex node = .ok ruleSet ∧
      resolved = { node with ruleSet := ruleSet.map ruleSetValue, ruleSetRef := none } := by
  simp only [RawWorkflowDefinition.resolveNode, Result.bind_eq_ok, pure, Except.pure,
    Except.ok.injEq] at h
  obtain ⟨ruleSet, hruleSet, rfl⟩ := h
  exact ⟨ruleSet, hruleSet, rfl⟩

lemma resolveNodeRuleSet_inlined {ruleSet : Option RuleSet}
    (hround : ∀ rs ∈ ruleSet, RoundTrips host rs) (registry' : SourceRegistry) :
    resolveNodeRuleSet host registry' nodeIndex
      { node with ruleSet := ruleSet.map ruleSetValue, ruleSetRef := none } = .ok ruleSet := by
  cases ruleSet with
  | none => rfl
  | some rs =>
    have hread : host.fromValue (ruleSetValue rs) = .ok rs := hround rs rfl
    simp only [resolveNodeRuleSet, Option.map_some, hread]
    rfl

lemma inlines_of_resolveNode
    (hround : ∀ rs, resolveNodeRuleSet host registry nodeIndex node = .ok (some rs) →
      RoundTrips host rs)
    (h : RawWorkflowDefinition.resolveNode host registry nodeIndex node = .ok resolved) :
    Inlines host registry nodeIndex node resolved := by
  obtain ⟨ruleSet, hruleSet, rfl⟩ := resolveNode_eq_ok h
  have hread (registry' : SourceRegistry) : resolveNodeRuleSet host registry' nodeIndex
      { node with ruleSet := ruleSet.map ruleSetValue, ruleSetRef := none } = .ok ruleSet :=
    resolveNodeRuleSet_inlined (fun rs hrs => hround rs (hrs ▸ hruleSet)) registry'
  refine ⟨rfl, rfl, rfl, rfl, fun registry' => (hread registry').trans hruleSet.symm,
    fun registry' => ?_⟩
  rw [RawWorkflowDefinition.resolveNode, hread registry']
  rfl

end Nodes

section Documents

lemma forall₂_zipIdx {α β : Type*} {R : α × ℕ → β → Prop} {xs : List α} {ys : List β} {n : ℕ}
    (h : List.Forall₂ R (xs.zipIdx n) ys) :
    List.Forall₂ (fun p q => q.2 = p.2 ∧ R p q.1) (xs.zipIdx n) (ys.zipIdx n) := by
  induction xs generalizing n ys with
  | nil =>
    cases h
    exact .nil
  | cons x xs ih =>
    rw [List.zipIdx_cons] at h ⊢
    cases h with
    | cons hx hrest => exact .cons ⟨rfl, hx⟩ (ih hrest)

lemma mapM_congr {α γ : Type*} {β ε : Type} {f : α → Except ε β} {g : γ → Except ε β}
    {xs : List α} {ys : List γ} (h : List.Forall₂ (fun x y => g y = f x) xs ys) :
    ys.mapM g = xs.mapM f := by
  induction h with
  | nil => rfl
  | cons hxy _ ih => rw [List.mapM_cons, List.mapM_cons, hxy, ih]

/-- Numbered nodes and the nodes that stand for them. -/
def InlinesAll (host : Host) (registry : SourceRegistry)
    (entries inlined : List (RawNodeDefinition × ℕ)) : Prop :=
  List.Forall₂ (fun p q => q.2 = p.2 ∧ Inlines host registry p.2 p.1 q.1) entries inlined

lemma go_inlined {entries inlined : List (RawNodeDefinition × ℕ)}
    (h : InlinesAll host registry entries inlined) (registry' : SourceRegistry)
    (ruleSets : ExtTreeMap NodeId RuleSet) :
    RawWorkflowDefinition.loadWorkflow.go host registry' inlined ruleSets =
      RawWorkflowDefinition.loadWorkflow.go host registry entries ruleSets := by
  induction h generalizing ruleSets with
  | nil => rfl
  | @cons p q _ _ hpq _ ih =>
    obtain ⟨node, nodeIndex⟩ := p
    obtain ⟨resolved, index⟩ := q
    obtain ⟨hindex, hinlines⟩ := hpq
    obtain rfl : index = nodeIndex := hindex
    have hid : resolved.id = node.id := hinlines.id
    simp only [RawWorkflowDefinition.loadWorkflow.go, hinlines.ruleSet registry', hid, ih]

lemma rawNodeToDefinition_inlined {nodeIndex : ℕ} {node resolved : RawNodeDefinition}
    (h : Inlines host registry nodeIndex node resolved) :
    rawNodeToDefinition nodeIndex resolved = rawNodeToDefinition nodeIndex node := by
  simp only [rawNodeToDefinition, h.id, h.inputs, h.outputs]

lemma resolveRuleSets_eq_ok {raw resolved : RawWorkflowDefinition}
    (hround : ∀ p ∈ raw.nodes.zipIdx, ∀ ruleSet,
      resolveNodeRuleSet host registry p.2 p.1 = .ok (some ruleSet) → RoundTrips host ruleSet)
    (h : raw.resolveRuleSets host registry = .ok resolved) :
    resolved = { raw with nodes := resolved.nodes } ∧
      InlinesAll host registry raw.nodes.zipIdx resolved.nodes.zipIdx := by
  simp only [RawWorkflowDefinition.resolveRuleSets, Result.bind_eq_ok, pure, Except.pure,
    Except.ok.injEq, Result.mapM_eq_ok] at h
  obtain ⟨nodes, hnodes, rfl⟩ := h
  refine ⟨rfl, (forall₂_zipIdx ?_ : InlinesAll _ _ _ (nodes.zipIdx))⟩
  have hmem := (List.forall₂_and_left _ _).mpr ⟨hround, hnodes⟩
  exact hmem.imp fun p node hp => inlines_of_resolveNode hp.1 hp.2

/-- **Inlining preserves meaning**: a document whose references were inlined has none left, it is
converted to the same workflow or with the same error, it is loaded with any registry as the
document it was made from was with its own, and inlining leaves it as it is. -/
theorem resolveRuleSets_preserves (host : Host) (registry : SourceRegistry)
    (raw resolved : RawWorkflowDefinition)
    (hround : ∀ p ∈ raw.nodes.zipIdx, ∀ ruleSet,
      resolveNodeRuleSet host registry p.2 p.1 = .ok (some ruleSet) → RoundTrips host ruleSet)
    (h : raw.resolveRuleSets host registry = .ok resolved) :
    (∀ node ∈ resolved.nodes, node.ruleSetRef = none) ∧
    resolved.toWorkflow = raw.toWorkflow ∧
    (∀ registry', resolved.loadWorkflow host registry' = raw.loadWorkflow host registry) ∧
    ∀ registry', resolved.resolveRuleSets host registry' = .ok resolved := by
  obtain ⟨hsame, hinlines⟩ := resolveRuleSets_eq_ok hround h
  have hworkflow : resolved.toWorkflow = raw.toWorkflow := by
    have hversion : resolved.pureflowVersion = raw.pureflowVersion := by rw [hsame]
    have hid : resolved.id = raw.id := by rw [hsame]
    have hedges : resolved.edges = raw.edges := by rw [hsame]
    simp only [RawWorkflowDefinition.toWorkflow, hversion, hid, hedges]
    rw [mapM_congr (hinlines.imp fun p q hpq => ?_)]
    show rawNodeToDefinition q.2 q.1 = rawNodeToDefinition p.2 p.1
    rw [hpq.1]
    exact rawNodeToDefinition_inlined hpq.2
  refine ⟨?_, hworkflow, fun registry' => ?_, fun registry' => ?_⟩
  · rw [← forall_zipIdx]
    intro q hq
    obtain ⟨p, -, -, hpq⟩ := Result.exists_mem_left hinlines hq
    exact hpq.ruleSetRef
  · simp only [RawWorkflowDefinition.loadWorkflow, hworkflow, go_inlined hinlines]
  · rw [RawWorkflowDefinition.resolveRuleSets, Result.bind_eq_ok]
    refine ⟨resolved.nodes, ?_, rfl⟩
    rw [Result.mapM_eq_ok]
    conv_rhs => rw [← List.zipIdx_map_fst 0 resolved.nodes]
    rw [List.forall₂_map_right_iff, List.forall₂_same]
    intro q hq
    obtain ⟨p, -, hindex, hpq⟩ := Result.exists_mem_left hinlines hq
    have hresolve := hpq.again registry'
    rwa [← hindex] at hresolve

/-- A rule set that routes urgent packets and drops the others. -/
def routeUrgent : RuleSet where
  id := "urgent"
  strategy := .firstMatch
  rules := [⟨"urgent", .not (.fieldEq ⟨"level"⟩ (.integer 0)), .drop, 1, ""⟩]
  defaultAction := .drop
  traceConditions := false

lemma routeUrgent_finite : routeUrgent.Finite := by
  refine ⟨?_, ?_, trivial⟩
  · simp [routeUrgent, Condition.Finite, Condition.scalars, ScalarValue.Finite]
  · simp [routeUrgent, RuleAction.Finite]

/-- A workflow of three nodes: one refers to a rule set, one holds it, one has none. -/
def referringDocument : RawWorkflowDefinition where
  pureflowVersion := some "1"
  id := "flow"
  nodes := [
    { id := "a", inputs := [], outputs := [], ruleSet := none, ruleSetRef := some "mem://x" },
    { id := "b", inputs := [], outputs := [], ruleSet := some (ruleSetValue routeUrgent)
      ruleSetRef := none },
    { id := "c", inputs := [], outputs := [], ruleSet := none, ruleSetRef := none }]
  edges := []

/-- A registry with that rule set in memory. -/
def memoryRegistry : SourceRegistry := ⟨[("mem", .embedded ⟨routeUrgent⟩)], none⟩

/-- The rule set of a node in memory and the one that is held are both inlined. -/
theorem resolveRuleSets_preserves_sample : ∃ resolved,
    referringDocument.resolveRuleSets sampleHost memoryRegistry = .ok resolved ∧
      resolved.loadWorkflow sampleHost ⟨[], none⟩ =
        referringDocument.loadWorkflow sampleHost memoryRegistry := by
  have hok : (referringDocument.resolveRuleSets sampleHost memoryRegistry).toBool = true := by rfl
  obtain ⟨resolved, hresolved⟩ := Result.exists_ok hok
  have hround : ∀ p ∈ referringDocument.nodes.zipIdx, ∀ ruleSet,
      resolveNodeRuleSet sampleHost memoryRegistry p.2 p.1 = .ok (some ruleSet) →
        RoundTrips sampleHost ruleSet := by
    have hurgent := roundTrips_of_finite sampleHost routeUrgent_finite
    intro p hp ruleSet h
    obtain rfl | rfl | rfl : p = (referringDocument.nodes[0], 0) ∨
        p = (referringDocument.nodes[1], 1) ∨ p = (referringDocument.nodes[2], 2) := by
      simpa [referringDocument] using hp
    · cases h
      exact hurgent
    · cases h
      exact hurgent
    · cases h
  exact ⟨resolved, hresolved,
    (resolveRuleSets_preserves _ _ _ _ hround hresolved).2.2.1 ⟨[], none⟩⟩

end Documents

end Pureflow.Format
