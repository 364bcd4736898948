import Pureflow.Rules.Eval
import Pureflow.Workflow.Topology

/-!
Rule sets against the workflow around them: every port and node that a rule set names exists, has
the right direction and can be reached.

A path is searched breadth first. Every node that enters the queue was found through an edge to a
node not visited before, so the search takes no more rounds than there are edges, and one.
-/

namespace Pureflow.Contract

open Std Pureflow.Types Pureflow.Workflow Pureflow.Rules

/-- Conventional output port a rule node routes dead letters to. -/
def deadLetterPortName : String := "dead_letter"

/-- Where in a rule set an action that failed validation appeared. -/
inductive ActionSite
  | rule (ruleId : String)
  | defaultAction
  deriving DecidableEq

inductive RuleContractViolation
  | unknownRuleNode (ruleSetId : String) (nodeId : NodeId)
  | unknownRoutePort (ruleSetId : String) (site : ActionSite) (nodeId : NodeId) (portId : PortId)
  | missingDeadLetterPort (ruleSetId : String) (site : ActionSite) (nodeId : NodeId)
  | unknownSourceNode (ruleSetId ruleId : String) (nodeId : NodeId)
  | unreachableSourceNode (ruleSetId ruleId : String) (nodeId sourceNodeId : NodeId)
  | unknownArrivalPort (ruleSetId ruleId : String) (nodeId : NodeId) (portId : PortId)
  deriving DecidableEq

/-- One action of the rule set, against the outputs of its host. -/
def validateAction (ruleSet : RuleSet) (host : NodeDefinition) (site : ActionSite)
    (action : RuleAction) : List RuleContractViolation :=
  match action with
  | .route portId =>
    if portId ∉ host.outputPorts then [.unknownRoutePort ruleSet.id site host.id portId] else []
  | .deadLetter _ =>
    if !host.outputPorts.any (·.value = deadLetterPortName) then
      [.missingDeadLetterPort ruleSet.id site host.id]
    else []
  | .drop | .tag _ _ | .halt _ => []

/-- Provenance references gathered from a condition tree. -/
structure ConditionRefs where
  sourceNodes : List NodeId
  arrivalPorts : List PortId

mutual

def collectConditionRefs (refs : ConditionRefs) : Condition → ConditionRefs
  | .sourceNode nodeId => { refs with sourceNodes := refs.sourceNodes ++ [nodeId] }
  | .arrivedOnPort portId => { refs with arrivalPorts := refs.arrivalPorts ++ [portId] }
  | .and children => collectAllRefs refs children
  | .or children => collectAllRefs refs children
  | .not inner => collectConditionRefs refs inner
  | _ => refs

def collectAllRefs (refs : ConditionRefs) : List Condition → ConditionRefs
  | [] => refs
  | child :: rest => collectAllRefs (collectConditionRefs refs child) rest

end

def nodeExists (workflow : WorkflowDefinition) (nodeId : NodeId) : Bool :=
  workflow.nodes.any (·.id = nodeId)

/-- The loop over the edges for one node of the queue; nothing is returned once the target has
been found. -/
def hasPath.scan (current target : NodeId) :
    List EdgeDefinition → List NodeId × ExtTreeSet NodeId →
      Option (List NodeId × ExtTreeSet NodeId)
  | [], search => some search
  | edge :: rest, (queue, visited) =>
    if edge.source.nodeId ≠ current then scan current target rest (queue, visited)
    else if edge.target.nodeId = target then none
    else if edge.target.nodeId ∈ visited then scan current target rest (queue, visited)
    else scan current target rest
      (queue ++ [edge.target.nodeId], visited.insert edge.target.nodeId)

/-- The loop over the queue, for a number of rounds. -/
def hasPath.go (workflow : WorkflowDefinition) (target : NodeId) :
    ℕ → List NodeId × ExtTreeSet NodeId → Bool
  | 0, _ => false
  | _ + 1, ([], _) => false
  | rounds + 1, (current :: queue, visited) =>
    match scan current target workflow.edges (queue, visited) with
    | none => true
    | some search => go workflow target rounds search

/-- Return whether a directed path exists through workflow edges. -/
def hasPath (workflow : WorkflowDefinition) (source target : NodeId) : Bool :=
  hasPath.go workflow target (workflow.edges.length + 1) ([source], ExtTreeSet.empty.insert source)

/-- One source node that a rule refers to. -/
def validateSourceNode (workflow : WorkflowDefinition) (ruleNodeId : NodeId) (ruleSet : RuleSet)
    (rule : Rule) (sourceNodeId : NodeId) : List RuleContractViolation :=
  if !nodeExists workflow sourceNodeId then [.unknownSourceNode ruleSet.id rule.id sourceNodeId]
  else if !hasPath workflow sourceNodeId ruleNodeId then
    [.unreachableSourceNode ruleSet.id rule.id ruleNodeId sourceNodeId]
  else []

/-- One port on which a rule wants packets to arrive. -/
def validateArrivalPort (host : NodeDefinition) (ruleSet : RuleSet) (rule : Rule)
    (portId : PortId) : List RuleContractViolation :=
  if portId ∉ host.inputPorts then [.unknownArrivalPort ruleSet.id rule.id host.id portId] else []

/-- The conditions of one rule. -/
def validateCondition (workflow : WorkflowDefinition) (host : NodeDefinition) (ruleSet : RuleSet)
    (rule : Rule) : List RuleContractViolation :=
  let refs := collectConditionRefs ⟨[], []⟩ rule.condition
  refs.sourceNodes.flatMap (validateSourceNode workflow host.id ruleSet rule) ++
    refs.arrivalPorts.flatMap (validateArrivalPort host ruleSet rule)

/-- Collect every violation of a rule set hosted by a node. -/
def ruleSetViolations (workflow : WorkflowDefinition) (ruleNodeId : NodeId) (ruleSet : RuleSet) :
    List RuleContractViolation :=
  match workflow.nodes.find? (·.id = ruleNodeId) with
  | none => [.unknownRuleNode ruleSet.id ruleNodeId]
  | some host =>
    ruleSet.rules.flatMap (fun rule => validateAction ruleSet host (.rule rule.id) rule.action) ++
      validateAction ruleSet host .defaultAction ruleSet.defaultAction ++
      ruleSet.rules.flatMap (validateCondition workflow host ruleSet)

/-- Validate a rule set against its host node and the workflow graph. -/
def validateRuleSet (workflow : WorkflowDefinition) (ruleNodeId : NodeId) (ruleSet : RuleSet) :
    Except RuleContractViolation Unit :=
  match ruleSetViolations workflow ruleNodeId ruleSet with
  | [] => .ok ()
  | violation :: _ => .error violation

section Search

variable {workflow : WorkflowDefinition} {current target : NodeId}

/-- How many edges lead to nodes that were not visited. -/
def unvisited (edges : List EdgeDefinition) (visited : ExtTreeSet NodeId) : ℕ :=
  edges.countP (·.target.nodeId ∉ visited)

/-- A visit uses up an edge to the node visited. -/
lemma unvisited_insert {edges : List EdgeDefinition} {edge : EdgeDefinition}
    {visited : ExtTreeSet NodeId} (hedge : edge ∈ edges) (hnew : edge.target.nodeId ∉ visited) :
    unvisited edges (visited.insert edge.target.nodeId) < unvisited edges visited := by
  have hsplit (e : EdgeDefinition) : decide (e.target.nodeId ∉ visited.insert edge.target.nodeId) =
      (decide (e.target.nodeId ∉ visited) && decide (e.target.nodeId ≠ edge.target.nodeId)) := by
    rw [← Bool.decide_and]
    refine decide_eq_decide.mpr ?_
    rw [ExtTreeSet.mem_insert, Std.compare_eq_iff_eq, not_or, and_comm, ne_comm]
  have hleft := List.countP_eq_countP_filter_add edges (fun e => decide (e.target.nodeId ∉ visited))
    (fun e => decide (e.target.nodeId ≠ edge.target.nodeId))
  have hmem : 0 < (edges.filter fun e => !decide (e.target.nodeId ≠ edge.target.nodeId)).countP
      (fun e => decide (e.target.nodeId ∉ visited)) :=
    List.countP_pos_iff.mpr ⟨edge, List.mem_filter.mpr ⟨hedge, by simp⟩, by simpa using hnew⟩
  unfold unvisited
  simp only [hsplit]
  rw [List.countP_filter] at hleft
  omega

lemma scan_measure {edges rest : List EdgeDefinition} (hrest : rest ⊆ edges) {queue queue' : List NodeId}
    {visited visited' : ExtTreeSet NodeId}
    (h : hasPath.scan current target rest (queue, visited) = some (queue', visited')) :
    queue'.length + unvisited edges visited' ≤ queue.length + unvisited edges visited := by
  induction rest generalizing queue visited with
  | nil =>
    cases h
    exact le_rfl
  | cons edge rest ih =>
    have hsub : rest ⊆ edges := fun e he => hrest (List.mem_cons_of_mem _ he)
    unfold hasPath.scan at h
    split_ifs at h with hsource htarget hvisited
    · exact ih hsub h
    · exact ih hsub h
    · have hless := unvisited_insert (hrest List.mem_cons_self) hvisited
      have hle := ih hsub h
      rw [List.length_append, List.length_singleton] at hle
      omega

/-- **The rounds suffice**: more of them change nothing. -/
theorem hasPath_rounds {rounds : ℕ} {search : List NodeId × ExtTreeSet NodeId}
    (h : search.1.length + unvisited workflow.edges search.2 ≤ rounds) (more : ℕ) :
    hasPath.go workflow target (rounds + more) search = hasPath.go workflow target rounds search := by
  obtain ⟨queue, visited⟩ := search
  simp only at h
  induction rounds generalizing queue visited with
  | zero =>
    have hempty : queue = [] := List.length_eq_zero_iff.mp (by omega)
    subst hempty
    cases more with
    | zero => rfl
    | succ more => rfl
  | succ rounds ih =>
    rw [Nat.add_right_comm]
    cases queue with
    | nil => rfl
    | cons current queue =>
      simp only [hasPath.go]
      cases hscan : hasPath.scan current target workflow.edges (queue, visited) with
      | none => rfl
      | some search =>
        obtain ⟨queue', visited'⟩ := search
        have hle := scan_measure (List.Subset.refl _) hscan
        simp only [List.length_cons] at h
        exact ih _ _ (by omega)

end Search

end Pureflow.Contract
