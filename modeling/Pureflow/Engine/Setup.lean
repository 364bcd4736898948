import Pureflow.Engine.Contracts
import Pureflow.Engine.Execution

/-!
The setup of a run: the run policy is checked, and one node run is built for every node, before
any of them is polled.

The whole function is a computation over what it has built and done so far, so that a failure
keeps both. The registry is what it answers for a node.
-/

namespace Pureflow.Engine

open Std Pureflow.Types Pureflow.Core Pureflow.Lib Pureflow.Runtime Pureflow.Workflow

def cycleLabel (cycle : List NodeId) : String := " -> ".intercalate (cycle.map (·.value))

def validateCycleRunPolicy (workflow : WorkflowDefinition) (policy : WorkflowRunPolicy)
    (cycle : List NodeId) : Except PureflowError Unit :=
  match policy.cyclePolicy with
  | .reject => .error (.execution (s!"workflow `{workflow.id}` contains directed cycle " ++
      s!"{cycleLabel cycle}; use an explicit feedback-loop run policy to execute cyclic graphs"))
  | .allowFeedbackLoops ⟨.startAllNodes, .allNodesComplete⟩ => .ok ()

def validateWorkflowRunPolicy (workflow : WorkflowDefinition) (policy : WorkflowRunPolicy) :
    Except PureflowError Unit :=
  match workflow.graph.topologicalOrder with
  | .ok _ => .ok ()
  | .error (.cycleDetected cycle) => validateCycleRunPolicy workflow policy cycle
  | .error err => .error (.execution (s!"workflow `{workflow.id}` topology validation failed " ++
      s!"before execution: {err}"))

variable {Executor : Type}

/-- A node run that was built and not polled. -/
structure NodeRun (Executor : Type) where
  executor : Executor
  context : NodeContext
  inputs : PortsIn
  outputs : PortsOut

/-- What a run has built, and what it has done. -/
structure World (Executor : Type) where
  nodeRuns : List (NodeRun Executor)
  execution : Execution

/-- A failure keeps what was built and done before it. -/
abbrev Running (Executor : Type) := ExceptT PureflowError (StateM (World Executor))

namespace Running

def check {α : Type} (x : Except PureflowError α) : Running Executor α := fun w => (x, w)

def push (run : NodeRun Executor) : Running Executor Unit := fun w =>
  (.ok (), { w with nodeRuns := w.nodeRuns ++ [run] })

end Running

section Setup

variable (workflow : WorkflowDefinition) (execution : ExecutionMetadata)
  (registry : NodeId → Except PureflowError Executor)
  (outputContracts : Option WorkflowOutputContracts)

/-- A run with output contracts gives the outputs of a node its validator. -/
def withOutputContracts (node : NodeDefinition) (outputs : PortsOut) :
    Except PureflowError PortsOut :=
  match outputContracts with
  | none => .ok outputs
  | some contracts =>
    match contracts.outputContractsFor node.id with
    | none => .error (.execution s!"no output contracts supplied for workflow node `{node.id}`")
    | some nodeOutputContracts =>
      let validator : ContractOutputValidator :=
        ⟨workflow.id, node.id, execution, nodeOutputContracts⟩
      .ok { outputs with validator := some validator.validate }

/-- The loop over the nodes. -/
def buildNodeRuns : List NodeDefinition → PortWiring → Running Executor Unit
  | [], _ => return ()
  | node :: rest, (inputsByNode, outputsByNode) => do
    let executor ← Running.check (registry node.id)
    let inputs : PortsIn :=
      .fromHandles node.inputPorts (inputsByNode[node.id]?.getD [])
    let outputs ← Running.check (withOutputContracts workflow execution outputContracts node
      (.fromHandles node.outputPorts (outputsByNode[node.id]?.getD [])))
    Running.push ⟨executor, nodeContext workflow execution node, inputs, outputs⟩
    buildNodeRuns rest (inputsByNode.erase node.id, outputsByNode.erase node.id)

variable (policy : WorkflowRunPolicy) (observers : Observers)

/-- The collecting loop over a schedule; an action that is not possible is skipped. There is no
summary until the loop has returned. -/
def collectWorkflowSummary (schedule : List Action) :
    Running Executor (Option WorkflowRunSummary) := fun w =>
  let setting := Setting.of workflow execution policy observers
  let done := schedule.foldl (fun s action => (s.next setting action).getD s) w.execution
  match done.loop.result with
  | none => (.ok none, { w with execution := done })
  | some (.ok summary) => (.ok (some summary), { w with execution := done })
  | some (.error err) => (.error err, { w with execution := done })

/-- Set up a run and collect it over a schedule. -/
def runWorkflowInner (schedule : List Action) : Running Executor (Option WorkflowRunSummary) := do
  Running.check (validateWorkflowRunPolicy workflow policy)
  buildNodeRuns workflow execution registry outputContracts workflow.nodes
    (buildPortWiring workflow)
  collectWorkflowSummary workflow execution policy observers schedule

end Setup

/-- Before a run: nothing is built, and no node was polled. -/
def World.fresh (n : SliceLen) : World Executor := ⟨[], .fresh n⟩

section Building

variable {workflow : WorkflowDefinition} {execution : ExecutionMetadata}
  {registry : NodeId → Except PureflowError Executor}
  {outputContracts : Option WorkflowOutputContracts}

/-- One round of the loop: it stops at the first node that lacks an executor or its contracts. -/
lemma buildNodeRuns_cons (node : NodeDefinition) (rest : List NodeDefinition)
    (wiring : PortWiring) (w : World Executor) :
    buildNodeRuns workflow execution registry outputContracts (node :: rest) wiring w =
      match registry node.id, withOutputContracts workflow execution outputContracts node
        (.fromHandles node.outputPorts (wiring.2[node.id]?.getD [])) with
      | .error err, _ => (.error err, w)
      | .ok _, .error err => (.error err, w)
      | .ok executor, .ok outputs =>
        buildNodeRuns workflow execution registry outputContracts rest
          (wiring.1.erase node.id, wiring.2.erase node.id)
          { w with nodeRuns := w.nodeRuns ++ [⟨executor, nodeContext workflow execution node,
            .fromHandles node.inputPorts (wiring.1[node.id]?.getD []), outputs⟩] } := by
  obtain ⟨inputsByNode, outputsByNode⟩ := wiring
  rw [buildNodeRuns]
  cases hexecutor : registry node.id with
  | error err => rw [Result.run_bind_error (show Running.check _ w = (.error err, w) by rfl)]
  | ok executor =>
    rw [Result.run_bind_ok (show Running.check _ w = (.ok executor, w) by rfl)]
    cases houtputs : withOutputContracts workflow execution outputContracts node
        (.fromHandles node.outputPorts (outputsByNode[node.id]?.getD [])) with
    | error err => rw [Result.run_bind_error (show Running.check _ w = (.error err, w) by rfl)]
    | ok outputs =>
      rw [Result.run_bind_ok (show Running.check _ w = (.ok outputs, w) by rfl)]
      rfl

lemma buildNodeRuns_execution (nodes : List NodeDefinition) (wiring : PortWiring)
    (w : World Executor) :
    (buildNodeRuns workflow execution registry outputContracts nodes wiring w).2.execution =
      w.execution := by
  induction nodes generalizing wiring w with
  | nil => rfl
  | cons node rest ih =>
    rw [buildNodeRuns_cons]
    split
    · rfl
    · rfl
    · exact ih _ _

lemma withOutputContracts_error {node : NodeDefinition} {outputs : PortsOut} {err : PureflowError}
    (h : withOutputContracts workflow execution outputContracts node outputs = .error err)
    (others : PortsOut) :
    withOutputContracts workflow execution outputContracts node others = .error err := by
  unfold withOutputContracts at h ⊢
  split at h
  · cases h
  · split at h
    · next hnone => simpa [hnone] using h
    · cases h

/-- What can go wrong with a node before it is run. -/
def NodeFailure (workflow : WorkflowDefinition) (execution : ExecutionMetadata)
    (registry : NodeId → Except PureflowError Executor)
    (outputContracts : Option WorkflowOutputContracts) (node : NodeDefinition)
    (err : PureflowError) : Prop :=
  registry node.id = .error err ∨
    ∀ outputs, withOutputContracts workflow execution outputContracts node outputs = .error err

/-- **The loop fails exactly if something is wrong with a node**, wherever it stands, and fails
with one of these errors. -/
lemma buildNodeRuns_error (nodes : List NodeDefinition) (wiring : PortWiring)
    (w : World Executor) :
    ((∃ node ∈ nodes, ∃ err, NodeFailure workflow execution registry outputContracts node err) →
      ∃ err, (buildNodeRuns workflow execution registry outputContracts nodes wiring w).1 =
        .error err) ∧
    ∀ err, (buildNodeRuns workflow execution registry outputContracts nodes wiring w).1 =
      .error err → ∃ node ∈ nodes,
        NodeFailure workflow execution registry outputContracts node err := by
  induction nodes generalizing wiring w with
  | nil =>
    refine ⟨?_, fun err h => by cases h⟩
    rintro ⟨node, hmem, -⟩
    cases hmem
  | cons node rest ih =>
    rw [buildNodeRuns_cons]
    split
    · next err hexecutor =>
      refine ⟨fun _ => ⟨err, rfl⟩, fun err' h => ?_⟩
      cases h
      exact ⟨node, List.mem_cons_self, .inl hexecutor⟩
    · next executor err hexecutor houtputs =>
      refine ⟨fun _ => ⟨err, rfl⟩, fun err' h => ?_⟩
      cases h
      exact ⟨node, List.mem_cons_self, .inr (withOutputContracts_error houtputs)⟩
    · next executor outputs hexecutor houtputs =>
      obtain ⟨hfails, herror⟩ := ih (wiring.1.erase node.id, wiring.2.erase node.id) _
      refine ⟨?_, fun err h => ?_⟩
      · rintro ⟨other, hother, err, hfailure⟩
        rcases List.mem_cons.mp hother with rfl | hother
        · -- nothing is wrong with this node
          rcases hfailure with h | h
          · cases hexecutor.symm.trans h
          · cases houtputs.symm.trans (h _)
        · exact hfails ⟨other, hother, err, hfailure⟩
      · obtain ⟨other, hother, hfailure⟩ := herror err h
        exact ⟨other, List.mem_cons_of_mem _ hother, hfailure⟩

/-- A node run as it is built for a node with its ports. -/
structure Built (workflow : WorkflowDefinition) (execution : ExecutionMetadata)
    (registry : NodeId → Except PureflowError Executor)
    (outputContracts : Option WorkflowOutputContracts) (node : NodeDefinition) (ports : NodePorts)
    (run : NodeRun Executor) : Prop where
  executor : registry node.id = .ok run.executor
  context : run.context = nodeContext workflow execution node
  inputs : run.inputs = ports.inputs
  outputs : withOutputContracts workflow execution outputContracts node ports.outputs =
    .ok run.outputs

/-- **The loop that does not fail builds a run for every node**, with the ports of the wiring. -/
lemma buildNodeRuns_ok (nodes : List NodeDefinition) (wiring : PortWiring) {w w' : World Executor}
    (h : buildNodeRuns workflow execution registry outputContracts nodes wiring w =
      (.ok (), w')) :
    ∃ runs, w'.nodeRuns = w.nodeRuns ++ runs ∧
      List.Forall₂ (fun (p : NodeDefinition × NodePorts) run =>
        Built workflow execution registry outputContracts p.1 p.2 run)
        (nodes.zip (connectNodes nodes wiring)) runs := by
  induction nodes generalizing wiring w with
  | nil =>
    cases h
    exact ⟨[], by simp, .nil⟩
  | cons node rest ih =>
    rw [buildNodeRuns_cons] at h
    split at h
    · cases h
    · cases h
    · next executor outputs hexecutor houtputs =>
      obtain ⟨runs, hruns, hbuilt⟩ := ih (wiring.1.erase node.id, wiring.2.erase node.id) h
      refine ⟨_ :: runs, by rw [hruns, List.append_assoc]; rfl, .cons ?_ hbuilt⟩
      exact ⟨hexecutor, rfl, rfl, houtputs⟩

lemma nodeRuns_built {n : SliceLen} {w : World Executor}
    (h : buildNodeRuns workflow execution registry outputContracts workflow.nodes
      (buildPortWiring workflow) (.fresh n) = (.ok (), w)) :
    List.Forall₂ (fun node run =>
      Built workflow execution registry outputContracts node (wired workflow node) run)
      workflow.nodes w.nodeRuns := by
  obtain ⟨runs, hruns, hbuilt⟩ := buildNodeRuns_ok workflow.nodes (buildPortWiring workflow) h
  have hports : connectNodes workflow.nodes (buildPortWiring workflow) =
      workflow.nodes.map (wired workflow) := nodePorts_eq workflow
  rw [World.fresh, List.nil_append] at hruns
  rw [hports, ← List.map_prod_left_eq_zip, List.forall₂_map_left_iff] at hbuilt
  rw [hruns]
  exact hbuilt

/-- Where something is wrong with a node, the loop stops with the error of such a node before any
node was polled. -/
lemma buildNodeRuns_fails {nodes : List NodeDefinition}
    (h : ∃ node ∈ nodes, ∃ err, NodeFailure workflow execution registry outputContracts node err)
    (wiring : PortWiring) (w : World Executor) :
    ∃ err, ∃ node ∈ nodes, NodeFailure workflow execution registry outputContracts node err ∧
      buildNodeRuns workflow execution registry outputContracts nodes wiring w =
        (.error err, { w with nodeRuns := (buildNodeRuns workflow execution registry
          outputContracts nodes wiring w).2.nodeRuns }) := by
  obtain ⟨hfails, herror⟩ := buildNodeRuns_error nodes wiring w
  obtain ⟨err, herr⟩ := hfails h
  obtain ⟨node, hmem, hfailure⟩ := herror err herr
  refine ⟨err, node, hmem, hfailure, Prod.ext herr ?_⟩
  rw [← buildNodeRuns_execution nodes wiring w]

end Building

section Failures

/-- What can go wrong before a run: the policy rejects the topology, or something is wrong with a
node. -/
def SetupFailure (workflow : WorkflowDefinition) (execution : ExecutionMetadata)
    (registry : NodeId → Except PureflowError Executor) (policy : WorkflowRunPolicy)
    (outputContracts : Option WorkflowOutputContracts) (err : PureflowError) : Prop :=
  validateWorkflowRunPolicy workflow policy = .error err ∨
    ∃ node ∈ workflow.nodes, NodeFailure workflow execution registry outputContracts node err

/-- **Setup failures have no effects.** If the policy rejects the topology, or some node has no
executor or no output contracts, the run returns one of these errors, whatever the schedule would
have done: no executor was called, no node run polled, and no observer told anything. -/
theorem setup_failure_silent (workflow : WorkflowDefinition) (execution : ExecutionMetadata)
    (registry : NodeId → Except PureflowError Executor) (observers : Observers)
    (policy : WorkflowRunPolicy) (outputContracts : Option WorkflowOutputContracts)
    (schedule : List Action) (n : SliceLen)
    (h : ∃ err, SetupFailure workflow execution registry policy outputContracts err) :
    ∃ err w, runWorkflowInner workflow execution registry outputContracts policy observers schedule
        (.fresh n) = (.error err, w) ∧
      SetupFailure workflow execution registry policy outputContracts err ∧
      w.execution.invoked = [] ∧ (∀ phase ∈ w.execution.phases, phase = .waiting) ∧
      w.execution.journal.events = [] ∧ w.execution.journal.records = [] := by
  have hfresh : ∀ phase ∈ (Execution.fresh n).phases, phase = .waiting :=
    fun phase hphase => List.eq_of_mem_replicate hphase
  rw [runWorkflowInner]
  cases hpolicy : validateWorkflowRunPolicy workflow policy with
  | error err =>
    rw [Result.run_bind_error (show Running.check _ (World.fresh n) = (.error err, _) by rfl)]
    exact ⟨err, _, rfl, .inl hpolicy, rfl, hfresh, rfl, rfl⟩
  | ok u =>
    rw [Result.run_bind_ok (show Running.check _ (World.fresh n) = (.ok u, _) by rfl)]
    have hnode : ∃ node ∈ workflow.nodes, ∃ err,
        NodeFailure workflow execution registry outputContracts node err := by
      obtain ⟨err, hpolicyErr | ⟨node, hmem, hfailure⟩⟩ := h
      · cases hpolicy.symm.trans hpolicyErr
      · exact ⟨node, hmem, err, hfailure⟩
    obtain ⟨err, node, hmem, hfailure, hrun⟩ := buildNodeRuns_fails hnode
      (buildPortWiring workflow) (.fresh n)
    rw [Result.run_bind_error hrun]
    exact ⟨err, _, rfl, .inr ⟨node, hmem, hfailure⟩, rfl, hfresh, rfl, rfl⟩

/-- Only node `a` has an executor. -/
def sampleRegistry (nodeId : NodeId) : Except PureflowError Unit :=
  if nodeId.value = "a" then .ok () else .error (.execution "no executor")

theorem setup_failure_silent_sample :
    SetupFailure sampleContext.workflow sampleContext.execution sampleRegistry
      sampleContext.policy none (.execution "no executor") ∧
    ∃ err w, runWorkflowInner sampleContext.workflow sampleContext.execution sampleRegistry none
        sampleContext.policy ⟨fun _ => .ok (), fun _ => .ok ()⟩ [.start 0] (.fresh 2) =
          (.error err, w) ∧
      w.execution.invoked = [] ∧ w.execution.journal.events = [] := by
  have hfailure : SetupFailure sampleContext.workflow sampleContext.execution sampleRegistry
      sampleContext.policy none (.execution "no executor") :=
    .inr ⟨⟨⟨"b", by decide⟩, [], [], by decide⟩, .tail _ (.head _), .inl rfl⟩
  obtain ⟨err, w, hrun, -, hinvoked, -, hevents, -⟩ := setup_failure_silent sampleContext.workflow
    sampleContext.execution sampleRegistry ⟨fun _ => .ok (), fun _ => .ok ()⟩
    sampleContext.policy none [.start 0] 2 ⟨_, hfailure⟩
  exact ⟨hfailure, err, w, hrun, hinvoked, hevents⟩

end Failures

end Pureflow.Engine
