import Pureflow.Cli.NativeOutcome
import Pureflow.Engine.BatchOutcome
import Pureflow.Wasm.Copies

/-!
The executors of the repository in one workflow: passive native executors, batch components and
rule nodes.
-/

namespace Pureflow.Runs

open Std Pureflow.Types Pureflow.Core Pureflow.Lib Pureflow.Workflow Pureflow.Engine Pureflow.Rules
  Pureflow.Wasm Pureflow.Cli

/-- What can run a node. The counter of a rule node stands where its earlier runs have left it. -/
inductive NodeExecutor
  | native (executor : CliNativeExecutor)
  | batch (executor : BatchExecutor)
  | rule (node : RuleExecutor) (counter : UInt64)

namespace NodeExecutor

/-- `run` of the executor, between its awaits. -/
def future (ctx : NodeContext) (inputs : PortsIn) (outputs : PortsOut) : NodeExecutor → Future
  | .native executor => executor.future ctx inputs outputs
  | .batch executor => BatchNode.future executor inputs outputs
  | .rule node counter => node.future ctx inputs outputs counter

/-- The node takes the packets of its edges in one order, whatever the schedule: a native executor
counts them only, the others need an edge at most into each port they tell apart. -/
def Ordered (workflow : WorkflowDefinition) (nodeId : NodeId) : NodeExecutor → Prop
  | .native _ => True
  | .batch _ => ∀ portId, workflow.edges.countP (·.target = ⟨nodeId, portId⟩) ≤ 1
  | .rule _ _ => workflow.edges.countP (·.target = ⟨nodeId, inPort⟩) ≤ 1

/-- The ports from which the executor receives to the end before it returns without an error. -/
def Drains : NodeExecutor → PortId → Prop
  | .native executor, portId => portId ∈ executor.inputPorts
  | .batch _, _ => True
  | .rule _ _, portId => portId = inPort

/-- What an executor is for: how what its node sends follows from what its edges carry. -/
def Denotes (ctx : NodeContext) (inputs : PortsIn) (outputs : PortsOut) : NodeExecutor →
    (ℕ → List PortPacket) → List (ℕ × PortPacket) → Prop
  | .native executor => executor.Denotes ctx inputs outputs
  | .batch executor => BatchNode.Denotes executor inputs outputs
  | .rule node counter => node.Denotes ctx inputs outputs counter

/-- **Every executor keeps to the ports it is given.** -/
lemma keeps {run : NodeRun NodeExecutor} {metadataSink : Bool} (executor : NodeExecutor) :
    ∃ good, (executor.future run.context (run.givenInputs metadataSink)
      (run.givenOutputs metadataSink)).Keeps (run.networkNode (executor.future run.context
        (run.givenInputs metadataSink) (run.givenOutputs metadataSink))).Owns good := by
  cases executor with
  | native executor =>
    refine ⟨fun _ => True, trivial, fun stage _ => ⟨?_, Prog.ends_of_forall (fun _ => trivial) _⟩⟩
    exact CliNativeExecutor.step_owns (fun _ _ => NodeRun.mem_receivers_of_channels _)
      (fun _ _ => NodeRun.mem_senders_of_channels _) stage
  | batch executor =>
    refine ⟨fun _ => True, trivial, fun stage _ => ⟨?_, Prog.ends_of_forall (fun _ => trivial) _⟩⟩
    refine BatchNode.step_owns (fun port hport c hc => ?_) (fun _ _ => ?_) stage
    · exact List.mem_flatMap.mpr ⟨port, hport, hc⟩
    · exact NodeRun.mem_senders_of_channels _
  | rule node counter =>
    obtain ⟨hstart, hturn⟩ := node.keeps run.context (run.givenInputs metadataSink)
      (run.givenOutputs metadataSink) counter
    refine ⟨_, hstart, fun stage hstage => ⟨?_, (hturn stage hstage).2⟩⟩
    refine (hturn stage hstage).1.mono fun op hop => ?_
    cases op with
    | permitSend c packet =>
      obtain ⟨-, portId, -, -, hc, -⟩ := hop
      exact NodeRun.mem_senders_of_channels _ hc
    | tryRecv c | pollRecv c => exact NodeRun.mem_receivers_of_channels _ hop
    | tryReserve c | permitAbort c | len c | isCancelled | record r => exact trivial

end NodeExecutor

/-- The future of a node run. -/
abbrev runFuture (metadataSink : Bool) (run : NodeRun NodeExecutor) : Future :=
  run.executor.future run.context (run.givenInputs metadataSink) (run.givenOutputs metadataSink)

/-- The node runs of a run as nodes of a network. -/
abbrev runNetwork (metadataSink : Bool) (runs : List (NodeRun NodeExecutor)) :
    Fin runs.length → NetworkNode :=
  runNodes runs fun i => runFuture metadataSink (runs.get i)

section Built

variable {workflow : WorkflowDefinition} {execution : ExecutionMetadata}
  {registry : NodeId → Except PureflowError NodeExecutor}
  {outputContracts : Option WorkflowOutputContracts} {runs : List (NodeRun NodeExecutor)}
  {node : NodeDefinition} {run : NodeRun NodeExecutor} {metadataSink : Bool}

/-- **The edges of a run are wires.** -/
lemma runNetwork_wires (h : List.Forall₂ (fun node run =>
      Built workflow execution registry outputContracts node (wired workflow node) run)
      workflow.nodes runs) : Wires (runNetwork metadataSink runs) where
  sender_unique hi hj := sender_unique h hi hj
  receiver_unique hi hj := receiver_unique h hi hj
  keeps i := (runs.get i).executor.keeps

lemma length_wiresInto (endpoint : EdgeEndpoint) :
    (wiresInto workflow endpoint).length = workflow.edges.countP (·.target = endpoint) := by
  rw [wiresInto, ← List.countP_eq_length_filter, wires]
  conv_rhs => rw [← List.zipIdx_map_fst 0 workflow.edges, List.countP_map]
  rfl

lemma length_channels_le (portId : PortId) : ((wired workflow node).inputs.channels portId).length ≤
    workflow.edges.countP (·.target = ⟨node.id, portId⟩) := by
  by_cases hport : portId ∈ node.inputPorts
  · rw [channels_of_input hport, List.length_map, length_wiresInto]
  · have hnone : (wired workflow node).inputs.channels portId = [] :=
      List.eq_nil_iff_forall_not_mem.mpr fun c hc => hport (wire_of_input hc).1
    rw [hnone]
    exact Nat.zero_le _

lemma nodup_wires (workflow : WorkflowDefinition) : ((wires workflow).map Prod.snd).Nodup := by
  rw [wires, List.zipIdx_map_snd]
  exact List.nodup_range'

lemma nodup_inputChannels (portId : PortId) :
    ((wired workflow node).inputs.channels portId).Nodup := by
  by_cases hport : portId ∈ node.inputPorts
  · rw [channels_of_input hport]
    exact (nodup_wires workflow).sublist (List.filter_sublist.map _)
  · have hnone : (wired workflow node).inputs.channels portId = [] :=
      List.eq_nil_iff_forall_not_mem.mpr fun c hc => hport (wire_of_input hc).1
    rw [hnone]
    exact List.nodup_nil

lemma mem_channels_of_wire {future : Future}
    (hbuilt : Built workflow execution registry outputContracts node (wired workflow node) run)
    {c : ℕ} (hc : c ∈ (run.networkNode future).receivers) :
    ∃ wire ∈ wires workflow, wire.1.target.nodeId = node.id ∧ wire.2 = c ∧
      c ∈ (run.givenInputs metadataSink).channels wire.1.target.portId := by
  obtain ⟨port, hport, hc⟩ := List.mem_flatMap.mp hc
  rw [hbuilt.inputs] at hport
  obtain ⟨portId, hportId, rfl⟩ := List.mem_map.mp hport
  have hchannels : c ∈ (wired workflow node).inputs.channels portId := by
    rw [PortsIn.channels, (wired_node workflow node).inputs portId hportId]
    exact hc
  obtain ⟨-, wire, hwire, htarget, hchannel⟩ := wire_of_input hchannels
  refine ⟨wire, hwire, by rw [htarget], hchannel, ?_⟩
  rw [NodeRun.givenInputs, hbuilt.inputs, htarget]
  exact hchannels

/-- **Every node computes what its executor is for**, from all that the ports it drains have
carried. -/
lemma run_computes
    (hbuilt : Built workflow execution registry outputContracts node (wired workflow node) run) :
    ∃ computes : Computes (run.networkNode (runFuture metadataSink run)),
      computes.Emits = run.executor.Denotes run.context (run.givenInputs metadataSink)
        (run.givenOutputs metadataSink) ∧
      ∀ portId, run.executor.Drains portId →
        (run.givenInputs metadataSink).channels portId ⊆ computes.reads := by
  have hgiven (portId : PortId) : (run.givenInputs metadataSink).channels portId ⊆
      (run.networkNode (runFuture metadataSink run)).receivers :=
    fun c hc => NodeRun.mem_receivers_of_channels _ hc
  have hnodup (portId : PortId) : ((run.givenInputs metadataSink).channels portId).Nodup := by
    have hchannels : (run.givenInputs metadataSink).channels portId =
        (wired workflow node).inputs.channels portId := by
      rw [← hbuilt.inputs]
      rfl
    rw [hchannels]
    exact nodup_inputChannels portId
  unfold runFuture at hgiven ⊢
  cases run.executor with
  | native executor =>
    refine ⟨executor.computes run.context _ _ fun c hc => ?_, rfl, fun portId hport c hc => ?_⟩
    · obtain ⟨portId, -, hc⟩ := List.mem_flatMap.mp hc
      exact hgiven portId hc
    · exact List.mem_flatMap.mpr ⟨portId, hport, hc⟩
  | batch executor =>
    have hapart : BatchNode.Apart run.inputs := by
      rw [hbuilt.inputs]
      exact wired_apart node
    exact ⟨BatchNode.computes executor _ _ (List.Subset.refl _) hapart hnodup, rfl,
      fun portId _ => BatchNode.channels_subset_reads _ portId⟩
  | rule rule counter =>
    refine ⟨rule.computes run.context _ _ counter (hgiven inPort) (hnodup inPort), rfl, ?_⟩
    rintro portId rfl
    exact List.Subset.refl _

/-- **A node that takes its packets in one order is determined.** -/
lemma run_determined
    (hbuilt : Built workflow execution registry outputContracts node (wired workflow node) run)
    (hordered : run.executor.Ordered workflow node.id) :
    Nonempty (Determined (run.networkNode (runFuture metadataSink run))) := by
  have hgiven (portId : PortId) : (run.givenInputs metadataSink).channels portId ⊆
      (run.networkNode (runFuture metadataSink run)).receivers :=
    fun c hc => NodeRun.mem_receivers_of_channels _ hc
  have hlength (portId : PortId) : ((run.givenInputs metadataSink).channels portId).length ≤
      workflow.edges.countP (·.target = ⟨node.id, portId⟩) := by
    have hchannels : (run.givenInputs metadataSink).channels portId =
        (wired workflow node).inputs.channels portId := by
      rw [← hbuilt.inputs]
      rfl
    rw [hchannels]
    exact length_channels_le portId
  unfold runFuture at hgiven ⊢
  cases hexecutor : run.executor with
  | native executor =>
    refine ⟨executor.determined run.context _ _ fun c hc => ?_⟩
    obtain ⟨portId, -, hc⟩ := List.mem_flatMap.mp hc
    exact hgiven portId hc
  | batch executor =>
    rw [hexecutor] at hordered
    have hapart : BatchNode.Apart run.inputs := by
      rw [hbuilt.inputs]
      exact wired_apart node
    exact ⟨BatchNode.determined executor _ _ (List.Subset.refl _) hapart
      fun portId => (hlength portId).trans (hordered portId)⟩
  | rule rule counter =>
    rw [hexecutor] at hordered
    exact ⟨rule.determined run.context _ _ counter (hgiven inPort)
      ((hlength inPort).trans hordered)⟩

end Built

end Pureflow.Runs
