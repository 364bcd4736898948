import Pureflow.Runs.Executors

/-!
Feedback loops starve.

A workflow may be built with cycles, to be run under a policy that allows feedback loops and waits
for all nodes to complete. All executors of the repository receive to the end from the ports they
drain, and an edge ends only once its source has returned. No node on a loop of such edges, and
none behind one, ever returns: a run of the workflow fails, or it is the watchdog that ends it.
-/

namespace Pureflow.Runs

open Std Pureflow.Types Pureflow.Core Pureflow.Lib Pureflow.Workflow Pureflow.Engine Pureflow.Rules
  Pureflow.Wasm Pureflow.Cli

/-- An edge leads from one node to another one, which drains it. -/
def Feeds (workflow : WorkflowDefinition) (registry : NodeId → Except PureflowError NodeExecutor)
    (source target : NodeId) : Prop :=
  ∃ e ∈ workflow.edges, e.source.nodeId = source ∧ e.target.nodeId = target ∧
    ∃ executor, registry target = .ok executor ∧ executor.Drains e.target.portId

/-- The node is on a loop of such edges, or behind one. -/
def BehindLoop (workflow : WorkflowDefinition)
    (registry : NodeId → Except PureflowError NodeExecutor) (nodeId : NodeId) : Prop :=
  ∃ onLoop, Relation.TransGen (Feeds workflow registry) onLoop onLoop ∧
    Relation.ReflTransGen (Feeds workflow registry) onLoop nodeId

section Built

variable {workflow : WorkflowDefinition} {execution : ExecutionMetadata}
  {registry : NodeId → Except PureflowError NodeExecutor}
  {outputContracts : Option WorkflowOutputContracts} {runs : List (NodeRun NodeExecutor)}
  {metadataSink : Bool}

/-- A node behind a loop is fed by another one, or by itself. -/
lemma BehindLoop.fed {nodeId : NodeId} (h : BehindLoop workflow registry nodeId) :
    ∃ source, BehindLoop workflow registry source ∧ Feeds workflow registry source nodeId := by
  obtain ⟨onLoop, hloop, hpath⟩ := h
  rcases Relation.ReflTransGen.cases_tail hpath with rfl | ⟨source, hbefore, hfeeds⟩
  · obtain ⟨source, hbefore, hfeeds⟩ := Relation.TransGen.tail'_iff.mp hloop
    exact ⟨source, ⟨nodeId, hloop, hbefore⟩, hfeeds⟩
  · exact ⟨source, ⟨onLoop, hloop, hbefore⟩, hfeeds⟩

lemma channel_of_feeds (h : List.Forall₂ (fun node run =>
      Built workflow execution registry outputContracts node (wired workflow node) run)
      workflow.nodes runs)
    {computes : (i : Fin runs.length) → Computes (runNetwork metadataSink runs i)}
    (hdrains : ∀ i portId, (runs.get i).executor.Drains portId →
      ((runs.get i).givenInputs metadataSink).channels portId ⊆ (computes i).reads)
    {i : Fin runs.length} {source : NodeId}
    (hfeeds : Feeds workflow registry source (runs.get i).context.nodeId) :
    ∃ j, (runs.get j).context.nodeId = source ∧
      ∃ c ∈ (computes i).reads, c ∈ (runNetwork metadataSink runs j).senders := by
  obtain ⟨e, he, rfl, htarget, executor, hexecutor, hport⟩ := hfeeds
  obtain ⟨wire, hwire, rfl⟩ : ∃ wire ∈ wires workflow, wire.1 = e := by
    obtain ⟨k, hk, rfl⟩ := List.mem_iff_getElem.mp he
    exact ⟨_, List.mk_mem_zipIdx_iff_getElem?.mpr (List.getElem?_eq_getElem hk), rfl⟩
  obtain ⟨node, -, hbuilt⟩ := built_get h i
  have hid : (runs.get i).context.nodeId = node.id := by
    rw [hbuilt.context]
    rfl
  -- the sender
  obtain ⟨j, hj⟩ := sender_of_wire h (fun i => runFuture metadataSink (runs.get i)) hwire
  obtain ⟨_, -, hbuiltj⟩ := built_get h j
  obtain ⟨wire', hwire', hsource, hchannel⟩ := wire_of_sender hbuiltj hj
  obtain rfl := wire_unique hwire' hwire hchannel
  refine ⟨j, hsource.symm, wire'.2, ?_, hj⟩
  -- the receiver
  obtain ⟨k, hk, hreceiver⟩ :=
    receiver_of_wire h (fun i => runFuture metadataSink (runs.get i)) hwire
  obtain rfl := index_unique h (hk.trans htarget)
  obtain ⟨wire, hmem, -, hsame, hc⟩ := mem_channels_of_wire hbuilt hreceiver
  obtain rfl := wire_unique hmem hwire hsame
  have hfound : (runs.get k).executor = executor := by
    have hbuiltExecutor := hbuilt.executor
    rw [← hid, hexecutor] at hbuiltExecutor
    exact (Except.ok.inj hbuiltExecutor).symm
  rw [← hfound] at hport
  exact hdrains k _ hport hc

/-- **Feedback loops starve.** In every run of the nodes that were built for a workflow, with any
interleaving, any capacities of the edges and any channels, and as long as no node has failed, the
nodes on a loop and behind one are still running. -/
theorem feedback_loop_starves {m : Mpsc PortPacket} {senders : m.State → ℕ} (hm : m.Prompt senders)
    (workflow : WorkflowDefinition) (execution : ExecutionMetadata)
    (registry : NodeId → Except PureflowError NodeExecutor)
    (outputContracts : Option WorkflowOutputContracts) (n : SliceLen) (w : World NodeExecutor)
    (hbuild : buildNodeRuns workflow execution registry outputContracts workflow.nodes
      (buildPortWiring workflow) (.fresh n) = (.ok (), w))
    (metadataSink : Bool) (capacity : ℕ → ℕ)
    (s : Network m (runNetwork metadataSink w.nodeRuns))
    (hs : Relation.ReflTransGen Network.RunStep (Network.initial m _ capacity) s)
    (hsound : ¬ s.Failed) (i : Fin w.nodeRuns.length)
    (hloop : BehindLoop workflow registry (w.nodeRuns.get i).context.nodeId) :
    s.gone i = false ∧ ∀ result, ¬ s.Returned i result := by
  have hbuilt := nodeRuns_built hbuild
  have hcomputes (i : Fin w.nodeRuns.length) :
      ∃ computes : Computes (runNetwork metadataSink w.nodeRuns i), ∀ portId,
        (w.nodeRuns.get i).executor.Drains portId →
          ((w.nodeRuns.get i).givenInputs metadataSink).channels portId ⊆ computes.reads := by
    obtain ⟨node, -, hrun⟩ := built_get hbuilt i
    obtain ⟨computes, -, hreads⟩ := run_computes hrun
    exact ⟨computes, hreads⟩
  choose computes hdrains using hcomputes
  have hcircle : Network.Circular computes
      {i | BehindLoop workflow registry (w.nodeRuns.get i).context.nodeId} := by
    intro i hi
    obtain ⟨source, hsource, hfeeds⟩ := BehindLoop.fed hi
    obtain ⟨j, rfl, c, hreads, hsends⟩ := channel_of_feeds hbuilt hdrains hfeeds
    exact ⟨j, hsource, c, hreads, hsends⟩
  have hreachable := Network.reachable_of_sound hs hsound
  have hstarves := Network.circle_starves hm (runNetwork_wires hbuilt) hcircle hreachable hsound hloop
  refine ⟨by_contra fun hgone => ?_, hstarves⟩
  obtain ⟨result, hreturned⟩ := Network.returned_of_gone id hreachable (by simpa using hgone)
  exact hstarves result hreturned

end Built

section Sample

lemma loopNode_valid : rejectDuplicatePorts ⟨"a", node_a_valid⟩ [⟨"in", port_in_valid⟩]
    [⟨"out", port_out_valid⟩] = .ok () := by decide

/-- Node `a` sends to itself and to node `b`. -/
def loopWorkflow : WorkflowDefinition where
  id := ⟨"flow", workflow_flow_valid⟩
  graph := ⟨[⟨⟨"a", node_a_valid⟩, [⟨"in", port_in_valid⟩], [⟨"out", port_out_valid⟩], loopNode_valid⟩,
      ⟨⟨"b", node_b_valid⟩, [⟨"in", port_in_valid⟩], [], edgeTarget_valid⟩],
    [⟨⟨⟨"a", node_a_valid⟩, ⟨"out", port_out_valid⟩⟩,
       ⟨⟨"a", node_a_valid⟩, ⟨"in", port_in_valid⟩⟩, .default⟩,
     ⟨⟨⟨"a", node_a_valid⟩, ⟨"out", port_out_valid⟩⟩,
       ⟨⟨"b", node_b_valid⟩, ⟨"in", port_in_valid⟩⟩, .default⟩],
    by decide +kernel⟩

/-- Batch nodes that send nothing. -/
def silentRegistry (_ : NodeId) : Except PureflowError NodeExecutor := .ok (.batch fun _ => .ok .new)

/-- In its first turn the node looks whether it is cancelled, and goes on with another call when it
is not. -/
def FirstCalls (run : NodeRun NodeExecutor) : Bool :=
  match (runFuture false run).step (runFuture false run).start with
  | .call .isCancelled k =>
    match k false with
    | .call _ _ => true
    | .ret _ => false
  | _ => false

lemma FirstCalls.calls {run : NodeRun NodeExecutor} (h : FirstCalls run = true) :
    ∃ k, (runFuture false run).step (runFuture false run).start = .call .isCancelled k ∧
      ∃ op k', k false = .call op k' := by
  unfold FirstCalls at h
  split at h
  · next k hfirst =>
    split at h
    · next op k' hsecond => exact ⟨k, hfirst, op, k', hsecond⟩
    · cases h
  · cases h

/-- What the setup of the loop leaves. -/
def loopSetup : Except PureflowError Unit × World NodeExecutor :=
  buildNodeRuns loopWorkflow edgeExecution silentRegistry none loopWorkflow.nodes
    (buildPortWiring loopWorkflow) (.fresh 2)

lemma loop_setup : loopSetup.1 = .ok () := by decide +kernel

lemma loop_calls : ∀ run ∈ loopSetup.2.nodeRuns, FirstCalls run = true := by decide +kernel

lemma loop_nodes : loopSetup.2.nodeRuns.map (·.context.nodeId) =
    [⟨"a", node_a_valid⟩, ⟨"b", node_b_valid⟩] := by decide +kernel

/-- The node `b` once it has looked at its token. -/
theorem feedback_loop_starves_sample :
    ∃ s, Relation.TransGen Network.RunStep
        (Network.initial (.plain PortPacket) (runNetwork false loopSetup.2.nodeRuns) fun _ => 1) s ∧
      ∃ i, (loopSetup.2.nodeRuns.get i).context.nodeId = ⟨"b", node_b_valid⟩ ∧
        s.gone i = false := by
  have hlength : 1 < loopSetup.2.nodeRuns.length := by decide +kernel
  have hb : (loopSetup.2.nodeRuns.get ⟨1, hlength⟩).context.nodeId = ⟨"b", node_b_valid⟩ := by
    have hget := congrArg (·[1]?) loop_nodes
    simpa [List.getElem?_eq_getElem hlength] using hget
  have hcalls (i : Fin loopSetup.2.nodeRuns.length) :=
    FirstCalls.calls (loop_calls _ (List.get_mem _ i))
  obtain ⟨k, hfirst, op, k', hsecond⟩ := hcalls ⟨1, hlength⟩
  let start := Network.initial (.plain PortPacket) (runNetwork false loopSetup.2.nodeRuns)
    fun _ => 1
  have hprog : start.progs ⟨1, hlength⟩ = .call .isCancelled k := hfirst
  have hperforms : System.Performs (.plain PortPacket) .isCancelled false start.channels
      start.channels := .isCancelled false
  obtain ⟨later, hstep, hself, hothers⟩ :=
    Network.Step.exists_answered rfl hprog hperforms rfl
  refine ⟨later, .single hstep, ⟨1, hlength⟩, hb, ?_⟩
  -- every node is in the middle of a turn
  have hsound : ¬ later.Failed := by
    rintro ⟨i, err, stage, hret, -⟩
    rcases eq_or_ne i ⟨1, hlength⟩ with rfl | hne
    · cases (hself.trans hsecond).symm.trans hret
    · obtain ⟨k, hfirst, -⟩ := hcalls i
      cases hfirst.symm.trans ((hothers i hne).symm.trans hret)
  have hfeeds (target : NodeId) (edge : EdgeDefinition) (hedge : edge ∈ loopWorkflow.edges)
      (hsource : edge.source.nodeId = ⟨"a", node_a_valid⟩) (htarget : edge.target.nodeId = target) :
      Feeds loopWorkflow silentRegistry ⟨"a", node_a_valid⟩ target :=
    ⟨edge, hedge, hsource, htarget, _, rfl, trivial⟩
  have hloop : BehindLoop loopWorkflow silentRegistry
      (loopSetup.2.nodeRuns.get ⟨1, hlength⟩).context.nodeId := by
    rw [hb]
    exact ⟨_, .single (hfeeds _ _ (List.mem_cons_self ..) rfl rfl),
      .single (hfeeds _ _ (List.mem_cons_of_mem _ (List.mem_cons_self ..)) rfl rfl)⟩
  exact (feedback_loop_starves (Mpsc.plain_prompt PortPacket) loopWorkflow edgeExecution
    silentRegistry none 2 _ (Prod.ext loop_setup rfl) false (fun _ => 1) _ (.single hstep) hsound _
    hloop).1

end Sample

end Pureflow.Runs
