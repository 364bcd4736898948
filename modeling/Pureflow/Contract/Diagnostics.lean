import Pureflow.Contract.Validation
import Pureflow.Contract.RuleSets
import Pureflow.Rules.Leaves
import Pureflow.Workflow.Sorting
import Pureflow.Lib.Loops
import Pureflow.Lib.Reports

/-!
The diagnostics of a rule set are exact.

What a rule set refers to is listed from its actions and from the leaves of its conditions, and
which of these references break the contract is said in terms of the ports of the host and of the
directed paths of the workflow. The search for a path is taken as the loop it is in the source,
without a number of rounds: it ends on every graph and finds a path if and only if there is one.
-/

namespace Pureflow.Contract

open Std Relation Pureflow.Types Pureflow.Workflow Pureflow.Rules Pureflow.Lib Pureflow.Lib.Loop

section Paths

variable {workflow : WorkflowDefinition} {edges rest : List EdgeDefinition}
  {current source target : NodeId}

/-- One round of the loop over the queue. -/
def hasPath.round (workflow : WorkflowDefinition) (target : NodeId) :
    List NodeId × ExtTreeSet NodeId → Bool ⊕ (List NodeId × ExtTreeSet NodeId)
  | ([], _) => .inl false
  | (current :: queue, visited) =>
    match hasPath.scan current target workflow.edges (queue, visited) with
    | none => .inl true
    | some search => .inr search

/-- What is left of a search: the queue, and the edges to nodes not visited. -/
def hasPath.left (workflow : WorkflowDefinition) (search : List NodeId × ExtTreeSet NodeId) : ℕ :=
  search.1.length + unvisited workflow.edges search.2

/-- The search as the source starts it. -/
def hasPath.start (source : NodeId) : List NodeId × ExtTreeSet NodeId :=
  ([source], ExtTreeSet.empty.insert source)

lemma round_of_none {queue : List NodeId} {visited : ExtTreeSet NodeId}
    (h : hasPath.scan current target workflow.edges (queue, visited) = none) :
    hasPath.round workflow target (current :: queue, visited) = .inl true := by
  simp only [hasPath.round, h]

lemma round_of_some {queue : List NodeId} {visited : ExtTreeSet NodeId}
    {search : List NodeId × ExtTreeSet NodeId}
    (h : hasPath.scan current target workflow.edges (queue, visited) = some search) :
    hasPath.round workflow target (current :: queue, visited) = .inr search := by
  simp only [hasPath.round, h]

lemma round_less {search search' : List NodeId × ExtTreeSet NodeId}
    (h : hasPath.round workflow target search = .inr search') :
    hasPath.left workflow search' < hasPath.left workflow search := by
  obtain ⟨queue, visited⟩ := search
  cases queue with
  | nil => cases h
  | cons current queue =>
    cases hscan : hasPath.scan current target workflow.edges (queue, visited) with
    | none => cases (round_of_none hscan).symm.trans h
    | some next =>
      obtain rfl := Sum.inr.inj ((round_of_some hscan).symm.trans h)
      have hle := scan_measure (List.Subset.refl _) hscan
      simp only [hasPath.left, List.length_cons]
      omega

lemma go_of_run {rounds : ℕ} {search : List NodeId × ExtTreeSet NodeId} {found : Bool}
    (h : run (hasPath.round workflow target) rounds search = .inl found) :
    hasPath.go workflow target rounds search = found := by
  induction rounds generalizing search with
  | zero => cases h
  | succ rounds ih =>
    obtain ⟨queue, visited⟩ := search
    cases queue with
    | nil => exact Sum.inl.inj h
    | cons current queue =>
      cases hscan : hasPath.scan current target workflow.edges (queue, visited) with
      | none =>
        simp only [run, round_of_none hscan] at h
        simpa only [hasPath.go, hscan] using Sum.inl.inj h
      | some next =>
        simp only [run, round_of_some hscan] at h
        simpa only [hasPath.go, hscan] using ih h

/-- **The search ends** on every graph, with what the model computes. -/
lemma hasPath_ends (workflow : WorkflowDefinition) (source target : NodeId) :
    Ends (hasPath.round workflow target) (hasPath.start source)
      (hasPath workflow source target) := by
  have hleft : hasPath.left workflow (hasPath.start source) < workflow.edges.length + 2 := by
    have hle : unvisited workflow.edges (hasPath.start source).2 ≤ workflow.edges.length :=
      List.countP_le_length
    simp only [hasPath.left, hasPath.start, List.length_singleton]
    simp only [hasPath.start] at hle
    omega
  obtain ⟨found, hends, hrun⟩ :=
    exists_ends (fun _ _ => round_less) hleft
  have hgo : hasPath.go workflow target (workflow.edges.length + 1 + 1) (hasPath.start source) =
      hasPath workflow source target :=
    hasPath_rounds (Nat.lt_succ_iff.mp hleft) 1
  rw [← hgo, go_of_run hrun]
  exact hends

lemma scan_eq_none {search : List NodeId × ExtTreeSet NodeId}
    (h : hasPath.scan current target rest search = none) :
    ∃ edge ∈ rest, edge.source.nodeId = current ∧ edge.target.nodeId = target := by
  induction rest generalizing search with
  | nil => cases h
  | cons edge rest ih =>
    obtain ⟨queue, visited⟩ := search
    unfold hasPath.scan at h
    by_cases hsource : edge.source.nodeId = current
    · by_cases htarget : edge.target.nodeId = target
      · exact ⟨edge, List.mem_cons_self, hsource, htarget⟩
      · rw [if_neg (not_not_intro hsource), if_neg htarget] at h
        split_ifs at h with hvisited
        all_goals
          obtain ⟨found, hfound, hjoins⟩ := ih h
          exact ⟨found, List.mem_cons_of_mem _ hfound, hjoins⟩
    · rw [if_pos hsource] at h
      obtain ⟨found, hfound, hjoins⟩ := ih h
      exact ⟨found, List.mem_cons_of_mem _ hfound, hjoins⟩

/-- What the loop over the edges of one node adds to a search. -/
structure Scanned (rest : List EdgeDefinition) (current target : NodeId)
    (queue queue' : List NodeId) (visited visited' : ExtTreeSet NodeId) : Prop where
  missed : ∀ edge ∈ rest, edge.source.nodeId = current → edge.target.nodeId ≠ target
  visited_iff : ∀ v, v ∈ visited' ↔
    v ∈ visited ∨ ∃ edge ∈ rest, edge.source.nodeId = current ∧ edge.target.nodeId = v
  queue_mono : ∀ v ∈ queue, v ∈ queue'
  queued : ∀ v ∈ queue', v ∈ queue ∨ v ∈ visited'
  fresh : ∀ v ∈ visited', v ∈ visited ∨ v ∈ queue'

lemma scan_eq_some {queue queue' : List NodeId} {visited visited' : ExtTreeSet NodeId}
    (h : hasPath.scan current target rest (queue, visited) = some (queue', visited')) :
    Scanned rest current target queue queue' visited visited' := by
  induction rest generalizing queue visited with
  | nil =>
    cases h
    exact ⟨by simp, by simp, fun _ hv => hv, fun _ hv => .inl hv, fun _ hv => .inl hv⟩
  | cons edge rest ih =>
    unfold hasPath.scan at h
    by_cases hsource : edge.source.nodeId = current
    · by_cases htarget : edge.target.nodeId = target
      · rw [if_neg (not_not_intro hsource), if_pos htarget] at h
        cases h
      · rw [if_neg (not_not_intro hsource), if_neg htarget] at h
        split_ifs at h with hvisited
        · -- the edge leads to a node visited before
          have hrest := ih h
          refine ⟨?_, fun v => ?_, hrest.queue_mono, hrest.queued, hrest.fresh⟩
          · simpa [hsource, htarget] using hrest.missed
          · rw [hrest.visited_iff v]
            constructor
            · rintro (hv | ⟨found, hfound, hjoins⟩)
              · exact .inl hv
              · exact .inr ⟨found, List.mem_cons_of_mem _ hfound, hjoins⟩
            · rintro (hv | ⟨found, hfound, hjoins⟩)
              · exact .inl hv
              · obtain rfl | hfound := List.mem_cons.mp hfound
                · exact .inl (hjoins.2 ▸ hvisited)
                · exact .inr ⟨found, hfound, hjoins⟩
        · -- the edge leads to a node that enters the queue
          have hrest := ih h
          have hinsert (v : NodeId) : v ∈ visited.insert edge.target.nodeId ↔
              edge.target.nodeId = v ∨ v ∈ visited := by
            rw [ExtTreeSet.mem_insert, Std.compare_eq_iff_eq]
          refine ⟨?_, fun v => ?_, fun v hv => ?_, fun v hv => ?_, fun v hv => ?_⟩
          · simpa [hsource, htarget] using hrest.missed
          · rw [hrest.visited_iff v, hinsert]
            simp only [List.mem_cons, exists_eq_or_imp, hsource, true_and]
            rw [or_assoc, or_left_comm]
          · exact hrest.queue_mono v (List.mem_append_left _ hv)
          · rcases hrest.queued v hv with hv | hv
            · rcases List.mem_append.mp hv with hv | hv
              · exact .inl hv
              · rw [List.mem_singleton] at hv
                exact .inr ((hrest.visited_iff v).mpr (.inl ((hinsert v).mpr (.inl hv.symm))))
            · exact .inr hv
          · rcases hrest.fresh v hv with hv | hv
            · rcases (hinsert v).mp hv with rfl | hv
              · exact .inr (hrest.queue_mono _ (List.mem_append_right _ (by simp)))
              · exact .inl hv
            · exact .inr hv
    · rw [if_pos hsource] at h
      have hrest := ih h
      refine ⟨?_, fun v => ?_, hrest.queue_mono, hrest.queued, hrest.fresh⟩
      · simpa [hsource] using hrest.missed
      · rw [hrest.visited_iff v]
        simp [hsource]

/-- What every round of a search keeps: the nodes visited are reached from the source, and below
those that left the queue nothing was missed. -/
structure Explored (edges : List EdgeDefinition) (source target : NodeId)
    (search : List NodeId × ExtTreeSet NodeId) : Prop where
  source_mem : source ∈ search.2
  reached : ∀ v ∈ search.2, ReflTransGen (Joins edges) source v
  queued : ∀ v ∈ search.1, v ∈ search.2
  expanded : ∀ v ∈ search.2, v ∉ search.1 → ∀ w, Joins edges v w → w ≠ target ∧ w ∈ search.2

lemma joins_iff {v w : NodeId} :
    Joins edges v w ↔ ∃ edge ∈ edges, edge.source.nodeId = v ∧ edge.target.nodeId = w := by
  unfold Joins arcs EdgeDefinition.nodePair
  simp only [List.mem_map, Prod.mk.injEq]

lemma explored_start : Explored edges source target (hasPath.start source) := by
  have hmem (v : NodeId) : v ∈ (hasPath.start source).2 ↔ source = v := by
    simp [hasPath.start, ExtTreeSet.mem_insert]
  refine ⟨(hmem source).mpr rfl, fun v hv => ?_, fun v hv => ?_, fun v hv hnot => ?_⟩
  · obtain rfl := (hmem v).mp hv
    exact .refl
  · exact (hmem v).mpr (List.mem_singleton.mp hv).symm
  · exact absurd (List.mem_singleton.mpr ((hmem v).mp hv).symm) hnot

lemma Explored.round {search search' : List NodeId × ExtTreeSet NodeId}
    (h : Explored workflow.edges source target search)
    (hround : hasPath.round workflow target search = .inr search') :
    Explored workflow.edges source target search' := by
  obtain ⟨queue, visited⟩ := search
  obtain ⟨queue', visited'⟩ := search'
  cases queue with
  | nil => cases hround
  | cons current queue =>
    cases hscan : hasPath.scan current target workflow.edges (queue, visited) with
    | none => cases (round_of_none hscan).symm.trans hround
    | some next =>
      obtain rfl := Sum.inr.inj ((round_of_some hscan).symm.trans hround)
      have hs := scan_eq_some hscan
      have hcurrent : current ∈ visited := h.queued current List.mem_cons_self
      have hmono (v : NodeId) (hv : v ∈ visited) : v ∈ visited' := (hs.visited_iff v).mpr (.inl hv)
      refine ⟨hmono source h.source_mem, fun v hv => ?_, fun v hv => ?_, fun v hv hnot w hvw => ?_⟩
      · rcases (hs.visited_iff v).mp hv with hv | hedge
        · exact h.reached v hv
        · exact (h.reached current hcurrent).tail (joins_iff.mpr hedge)
      · rcases hs.queued v hv with hv | hv
        · exact hmono v (h.queued v (List.mem_cons_of_mem _ hv))
        · exact hv
      · rcases hs.fresh v hv with hold | hqueue
        · by_cases hv : v = current
          · -- all edges of the node that left the queue were looked at in this round
            subst hv
            obtain ⟨edge, hedge, hsource, htarget⟩ := joins_iff.mp hvw
            have hmissed := hs.missed edge hedge hsource
            rw [htarget] at hmissed
            exact ⟨hmissed, (hs.visited_iff w).mpr (.inr ⟨edge, hedge, hsource, htarget⟩)⟩
          · have hold' : v ∉ current :: queue := by
              rw [List.mem_cons, not_or]
              exact ⟨hv, fun hq => hnot (hs.queue_mono v hq)⟩
            obtain ⟨hne, hw⟩ := h.expanded v hold hold' w hvw
            exact ⟨hne, hmono w hw⟩
        · exact absurd hqueue hnot

/-- Where the queue is empty, no edge below the source leads to the target. -/
lemma Explored.no_path {visited : ExtTreeSet NodeId}
    (h : Explored edges source target ([], visited)) : ¬ TransGen (Joins edges) source target := by
  have hclosed (v : NodeId) (hv : ReflTransGen (Joins edges) source v) : v ∈ visited := by
    induction hv with
    | refl => exact h.source_mem
    | tail _ hjoins ih => exact (h.expanded _ ih List.not_mem_nil _ hjoins).2
  intro hpath
  obtain ⟨v, hreach, hjoins⟩ := TransGen.tail'_iff.mp hpath
  exact (h.expanded v (hclosed v hreach) List.not_mem_nil target hjoins).1 rfl

/-- **What the search returns**: whether there is a path of at least one edge. -/
lemma ends_iff {found : Bool}
    (h : Ends (hasPath.round workflow target) (hasPath.start source) found) :
    found = true ↔ TransGen (Joins workflow.edges) source target := by
  obtain ⟨⟨queue, visited⟩, hlast, hret⟩ :=
    h.invariant (fun _ _ hs hround => hs.round hround) explored_start
  cases queue with
  | nil =>
    obtain rfl := Sum.inl.inj hret
    simpa using hlast.no_path
  | cons current queue =>
    cases hscan : hasPath.scan current target workflow.edges (queue, visited) with
    | none =>
      obtain rfl := Sum.inl.inj ((round_of_none hscan).symm.trans hret)
      have hreach := hlast.reached current (hlast.queued current List.mem_cons_self)
      have hpath := TransGen.tail' hreach (joins_iff.mpr (scan_eq_none hscan))
      simpa using hpath
    | some next => cases (round_of_some hscan).symm.trans hret

/-- **The search is exact**, cycles through the target included. -/
lemma hasPath_iff :
    hasPath workflow source target = true ↔ TransGen (Joins workflow.edges) source target :=
  ends_iff (hasPath_ends workflow source target)

end Paths

section References

/-- The node a leaf wants packets to come from. -/
def sourceRef : Condition → Option NodeId
  | .sourceNode nodeId => some nodeId
  | _ => none

/-- The port a leaf wants packets to arrive on. -/
def arrivalRef : Condition → Option PortId
  | .arrivedOnPort portId => some portId
  | _ => none

/-- The nodes a condition refers to, from left to right. -/
def sourceRefs (condition : Condition) : List NodeId := condition.leaves.filterMap sourceRef

/-- The ports a condition refers to, from left to right. -/
def arrivalRefs (condition : Condition) : List PortId := condition.leaves.filterMap arrivalRef

/-- The references of some conditions, collected behind others. -/
def ConditionRefs.behind (refs : ConditionRefs) (conditions : List Condition) : ConditionRefs :=
  ⟨refs.sourceNodes ++ conditions.flatMap sourceRefs,
    refs.arrivalPorts ++ conditions.flatMap arrivalRefs⟩

lemma ConditionRefs.behind_children {refs : ConditionRefs} {condition : Condition}
    {children : List Condition} (h : condition.leaves = children.flatMap Condition.leaves) :
    refs.behind [condition] = refs.behind children := by
  simp only [behind, sourceRefs, arrivalRefs, List.flatMap_singleton, h, List.filterMap_flatMap]
  rfl

lemma collectAllRefs_eq {conditions : List Condition}
    (h : ∀ c ∈ conditions, ∀ refs, collectConditionRefs refs c = refs.behind [c])
    (refs : ConditionRefs) : collectAllRefs refs conditions = refs.behind conditions := by
  induction conditions generalizing refs with
  | nil => simp [collectAllRefs, ConditionRefs.behind]
  | cons c rest ih =>
    have hrest : ∀ c ∈ rest, ∀ refs, collectConditionRefs refs c = refs.behind [c] :=
      fun c' hc' => h c' (List.mem_cons_of_mem c hc')
    rw [collectAllRefs, h c List.mem_cons_self, ih hrest]
    simp [ConditionRefs.behind]

/-- **A condition tree is collected leaf by leaf.** -/
lemma collectConditionRefs_eq (condition : Condition) (refs : ConditionRefs) :
    collectConditionRefs refs condition = refs.behind [condition] := by
  induction condition using Condition.induction generalizing refs with
  | leaf c hc =>
    have hleaves := Condition.leaves_of_isLeaf hc
    obtain ⟨nodes, ports⟩ := refs
    simp only [ConditionRefs.behind, sourceRefs, arrivalRefs, List.flatMap_singleton, hleaves]
    cases c with
    | and cs | or cs | not c => cases hc
    | _ => simp [collectConditionRefs, sourceRef, arrivalRef, List.filterMap_cons]
  | and cs ih =>
    rw [ConditionRefs.behind_children (Condition.leaves_and cs)]
    exact collectAllRefs_eq ih refs
  | or cs ih =>
    rw [ConditionRefs.behind_children (Condition.leaves_or cs)]
    exact collectAllRefs_eq ih refs
  | not c ih =>
    rw [ConditionRefs.behind_children (show (Condition.not c).leaves = [c].flatMap _ by simp)]
    exact ih refs

/-- What a rule set refers to: an action, by its site, or a leaf of the condition of a rule. -/
inductive Reference
  | action (site : ActionSite) (action : RuleAction)
  | source (ruleId : String) (nodeId : NodeId)
  | arrival (ruleId : String) (portId : PortId)

/-- The references of a rule set: the actions of the rules and the default action, then the leaves
of the conditions, rule by rule. -/
def references (ruleSet : RuleSet) : List Reference :=
  ruleSet.rules.map (fun rule => .action (.rule rule.id) rule.action) ++
    [.action .defaultAction ruleSet.defaultAction] ++
    ruleSet.rules.flatMap fun rule =>
      (sourceRefs rule.condition).map (.source rule.id) ++
        (arrivalRefs rule.condition).map (.arrival rule.id)

/-- The references that break the contract of a rule set with its host, each with its
diagnostic. -/
inductive Offends (workflow : WorkflowDefinition) (host : NodeDefinition) (ruleSetId : String) :
    Reference → RuleContractViolation → Prop
  | route {site : ActionSite} {portId : PortId} : portId ∉ host.outputPorts →
      Offends workflow host ruleSetId (.action site (.route portId))
        (.unknownRoutePort ruleSetId site host.id portId)
  | deadLetter {site : ActionSite} {reason : String} :
      (∀ port ∈ host.outputPorts, port.value ≠ deadLetterPortName) →
      Offends workflow host ruleSetId (.action site (.deadLetter reason))
        (.missingDeadLetterPort ruleSetId site host.id)
  | unknownSource {ruleId : String} {nodeId : NodeId} : nodeId ∉ nodeIds workflow.nodes →
      Offends workflow host ruleSetId (.source ruleId nodeId)
        (.unknownSourceNode ruleSetId ruleId nodeId)
  | unreachable {ruleId : String} {nodeId : NodeId} : nodeId ∈ nodeIds workflow.nodes →
      ¬ TransGen (Joins workflow.edges) nodeId host.id →
      Offends workflow host ruleSetId (.source ruleId nodeId)
        (.unreachableSourceNode ruleSetId ruleId host.id nodeId)
  | arrival {ruleId : String} {portId : PortId} : portId ∉ host.inputPorts →
      Offends workflow host ruleSetId (.arrival ruleId portId)
        (.unknownArrivalPort ruleSetId ruleId host.id portId)

end References

section Exact

variable {workflow : WorkflowDefinition} {host : NodeDefinition} {ruleSet : RuleSet} {rule : Rule}

lemma offends_unique : Relator.RightUnique (Offends workflow host ruleSet.id) := by
  intro reference violation violation' h h'
  cases h with
  | unknownSource hunknown =>
    cases h' with
    | unknownSource => rfl
    | unreachable hknown => exact absurd hknown hunknown
  | unreachable hknown =>
    cases h' with
    | unknownSource hunknown => exact absurd hknown hunknown
    | unreachable => rfl
  | route | deadLetter | arrival =>
    cases h'
    rfl

lemma validateAction_reports (site : ActionSite) (action : RuleAction) :
    Reports (Offends workflow host ruleSet.id) [.action site action]
      (validateAction ruleSet host site action) := by
  cases action with
  | route portId =>
    unfold validateAction
    dsimp only
    split_ifs with hport
    · refine .silent (fun violation hviolation => ?_) .nil
      cases hviolation with
      | route hmissing => exact hmissing hport
    · exact .report (.route hport) .nil
  | deadLetter reason =>
    unfold validateAction
    dsimp only
    split_ifs with hport
    · exact .report (.deadLetter (by simpa using hport)) .nil
    · refine .silent (fun violation hviolation => ?_) .nil
      cases hviolation with
      | deadLetter hmissing => exact hport (by simpa using hmissing)
  | drop | tag | halt => exact .silent (fun violation hviolation => by cases hviolation) .nil

lemma nodeExists_iff {nodeId : NodeId} :
    nodeExists workflow nodeId = true ↔ nodeId ∈ nodeIds workflow.nodes := by
  simp [nodeExists, nodeIds]

lemma validateSourceNode_reports (nodeId : NodeId) :
    Reports (Offends workflow host ruleSet.id) [.source rule.id nodeId]
      (validateSourceNode workflow host.id ruleSet rule nodeId) := by
  unfold validateSourceNode
  split_ifs with hexists hpath
  · rw [Bool.not_eq_true', ← Bool.not_eq_true, nodeExists_iff] at hexists
    exact .report (.unknownSource hexists) .nil
  · rw [Bool.not_eq_true', ← Bool.not_eq_true, nodeExists_iff, not_not] at hexists
    rw [Bool.not_eq_true', ← Bool.not_eq_true, hasPath_iff] at hpath
    exact .report (.unreachable hexists hpath) .nil
  · rw [Bool.not_eq_true', ← Bool.not_eq_true, nodeExists_iff, not_not] at hexists
    rw [Bool.not_eq_true', ← Bool.not_eq_true, hasPath_iff, not_not] at hpath
    refine .silent (fun violation hviolation => ?_) .nil
    cases hviolation with
    | unknownSource hunknown => exact hunknown hexists
    | unreachable _ hunreachable => exact hunreachable hpath

lemma validateArrivalPort_reports (portId : PortId) :
    Reports (Offends workflow host ruleSet.id) [.arrival rule.id portId]
      (validateArrivalPort host ruleSet rule portId) := by
  unfold validateArrivalPort
  split_ifs with hport
  · refine .silent (fun violation hviolation => ?_) .nil
    cases hviolation with
    | arrival hunknown => exact hunknown hport
  · exact .report (.arrival hport) .nil

lemma validateCondition_reports :
    Reports (Offends workflow host ruleSet.id)
      ((sourceRefs rule.condition).map (.source rule.id) ++
        (arrivalRefs rule.condition).map (.arrival rule.id))
      (validateCondition workflow host ruleSet rule) := by
  have hrefs : collectConditionRefs ⟨[], []⟩ rule.condition =
      ⟨sourceRefs rule.condition, arrivalRefs rule.condition⟩ := by
    rw [collectConditionRefs_eq]
    simp [ConditionRefs.behind]
  unfold validateCondition
  rw [hrefs]
  exact (Reports.map fun nodeId _ => validateSourceNode_reports nodeId).append
    (Reports.map fun portId _ => validateArrivalPort_reports portId)

/-- **The checks of a host** report on every reference. -/
lemma ruleSetViolations_reports (hhost : host ∈ workflow.nodes) :
    Reports (Offends workflow host ruleSet.id) (references ruleSet)
      (ruleSetViolations workflow host.id ruleSet) := by
  unfold ruleSetViolations references
  rw [find_node_eq_some.mpr ⟨hhost, rfl⟩]
  have hrules : Reports (Offends workflow host ruleSet.id)
      (ruleSet.rules.map fun rule => .action (.rule rule.id) rule.action)
      (ruleSet.rules.flatMap fun rule => validateAction ruleSet host (.rule rule.id) rule.action) :=
    Reports.map fun rule _ => validateAction_reports (.rule rule.id) rule.action
  have hactions := hrules.append (validateAction_reports .defaultAction ruleSet.defaultAction)
  exact hactions.append (Reports.flatMap fun rule _ => validateCondition_reports)

lemma validateRuleSet_ok {nodeId : NodeId} :
    validateRuleSet workflow nodeId ruleSet = .ok () ↔
      ruleSetViolations workflow nodeId ruleSet = [] := by
  unfold validateRuleSet
  cases ruleSetViolations workflow nodeId ruleSet with
  | nil => simp
  | cons violation rest => simp

end Exact

/-- **The diagnostics of a rule set are exact.** A host that the workflow does not have is the one
diagnostic. With a host, the diagnostics are those of the references that break the contract, one
for each, in the order of the references, where a source node can be reached if some path of at
least one edge leads from it to the host. The search for a path ends on every graph, in one way,
with what the model computes. A rule set is accepted if and only if there is no diagnostic. -/
theorem rule_set_diagnostics_exact (workflow : WorkflowDefinition) (ruleNodeId : NodeId)
    (ruleSet : RuleSet) :
    (ruleNodeId ∉ nodeIds workflow.nodes →
      ruleSetViolations workflow ruleNodeId ruleSet =
        [.unknownRuleNode ruleSet.id ruleNodeId]) ∧
    (∀ host ∈ workflow.nodes, host.id = ruleNodeId → ∀ violations,
      Reports (Offends workflow host ruleSet.id) (references ruleSet) violations ↔
        violations = ruleSetViolations workflow ruleNodeId ruleSet) ∧
    (∀ source target found,
      Ends (hasPath.round workflow target) (hasPath.start source) found ↔
        found = hasPath workflow source target) ∧
    (∀ source target,
      hasPath workflow source target = true ↔ TransGen (Joins workflow.edges) source target) ∧
    (validateRuleSet workflow ruleNodeId ruleSet = .ok () ↔
      ruleSetViolations workflow ruleNodeId ruleSet = []) := by
  refine ⟨fun hmissing => ?_, ?_, ?_, fun _ _ => hasPath_iff, validateRuleSet_ok⟩
  · have hnone : workflow.nodes.find? (·.id = ruleNodeId) = none := by
      rw [List.find?_eq_none]
      intro node hnode hid
      exact hmissing (List.mem_map.mpr ⟨node, hnode, by simpa using hid⟩)
    unfold ruleSetViolations
    rw [hnone]
  · rintro host hhost rfl violations
    have hreports : Reports (Offends workflow host ruleSet.id) (references ruleSet)
        (ruleSetViolations workflow host.id ruleSet) := ruleSetViolations_reports hhost
    constructor
    · intro h
      exact h.unique offends_unique hreports
    · rintro rfl
      exact hreports
  · intro source target found
    have hends := hasPath_ends workflow source target
    constructor
    · intro h
      exact h.unique hends
    · rintro rfl
      exact hends

end Pureflow.Contract
