import Pureflow.Runs.Executors

/-!
What runs compute, whatever their schedule.

A run of a workflow that ends without an error solves the equations of its nodes. Where every node
takes its packets in one order, all such runs carry the same packets over every edge, in the same
order: whatever the interleaving of the nodes, the capacities of the edges and the channels they
use.
-/

namespace Pureflow.Runs

open Std Pureflow.Types Pureflow.Core Pureflow.Lib Pureflow.Workflow Pureflow.Engine Pureflow.Rules
  Pureflow.Wasm Pureflow.Cli

/-- The equations of a workflow: what its nodes send follows, by what their executors are for, from
what the edges carry, and an edge carries what its node sends over it. -/
structure Dataflow (metadataSink : Bool) (runs : List (NodeRun NodeExecutor))
    (carried : ℕ → List PortPacket) (commits : Fin runs.length → List (ℕ × PortPacket)) : Prop where
  denotes (i : Fin runs.length) : (runs.get i).executor.Denotes (runs.get i).context
    ((runs.get i).givenInputs metadataSink) ((runs.get i).givenOutputs metadataSink) carried
    (commits i)
  carries (i : Fin runs.length) {c : ℕ} : c ∈ (runNetwork metadataSink runs i).senders →
    carried c = withKey c (commits i)

/-- **A run that ends well computes its workflow.** Whatever the interleaving, the capacities and
the channels, and however many edges fan in: what the edges have carried, once all nodes have
returned without an error, solves the equations of the workflow. -/
theorem run_solves_dataflow {m : Mpsc PortPacket} {senders : m.State → ℕ} (hm : m.Prompt senders)
    (workflow : WorkflowDefinition) (execution : ExecutionMetadata)
    (registry : NodeId → Except PureflowError NodeExecutor)
    (outputContracts : Option WorkflowOutputContracts) (n : SliceLen) (w : World NodeExecutor)
    (hbuild : buildNodeRuns workflow execution registry outputContracts workflow.nodes
      (buildPortWiring workflow) (.fresh n) = (.ok (), w))
    (metadataSink : Bool) (capacity : ℕ → ℕ)
    (s : Network m (runNetwork metadataSink w.nodeRuns))
    (hs : Relation.ReflTransGen Network.RunStep (Network.initial m _ capacity) s)
    (hok : ∀ i, s.Returned i (.ok ())) :
    Dataflow metadataSink w.nodeRuns s.committed fun i => (s.accounts i).committed := by
  have hbuilt := nodeRuns_built hbuild
  have hcomputes (i : Fin w.nodeRuns.length) :
      ∃ computes : Computes (runNetwork metadataSink w.nodeRuns i), computes.Emits =
        (w.nodeRuns.get i).executor.Denotes (w.nodeRuns.get i).context
          ((w.nodeRuns.get i).givenInputs metadataSink)
          ((w.nodeRuns.get i).givenOutputs metadataSink) := by
    obtain ⟨node, -, hrun⟩ := built_get hbuilt i
    obtain ⟨computes, hemits, -⟩ := run_computes hrun
    exact ⟨computes, hemits⟩
  choose computes hdenotes using hcomputes
  have hsolves := Network.solves_of_ok hm (runNetwork_wires hbuilt) computes hs hok
  exact ⟨fun i => hdenotes i ▸ hsolves.emits i, fun i _ hc => hsolves.carries i hc⟩

/-- **The outcome is determined.** Two runs of the nodes that were built for an accepted workflow,
both ended with all nodes returning without an error, agree on what every node has sent, over all
its edges together, and on what every edge has carried. -/
theorem run_outcome_determined {m m' : Mpsc PortPacket} {senders : m.State → ℕ}
    {senders' : m'.State → ℕ} (hm : m.Prompt senders) (hm' : m'.Prompt senders')
    (workflow : WorkflowDefinition)
    (haccepted : WorkflowGraph.new workflow.nodes workflow.edges = .ok workflow.graph)
    (execution : ExecutionMetadata) (registry : NodeId → Except PureflowError NodeExecutor)
    (hordered : ∀ node ∈ workflow.nodes, ∀ executor, registry node.id = .ok executor →
      executor.Ordered workflow node.id)
    (outputContracts : Option WorkflowOutputContracts) (n : SliceLen) (w : World NodeExecutor)
    (hbuild : buildNodeRuns workflow execution registry outputContracts workflow.nodes
      (buildPortWiring workflow) (.fresh n) = (.ok (), w))
    (metadataSink : Bool) (capacity capacity' : ℕ → ℕ)
    (s : Network m (runNetwork metadataSink w.nodeRuns))
    (s' : Network m' (runNetwork metadataSink w.nodeRuns))
    (hs : Relation.ReflTransGen Network.RunStep (Network.initial m _ capacity) s)
    (hs' : Relation.ReflTransGen Network.RunStep (Network.initial m' _ capacity') s')
    (hok : ∀ i, s.Returned i (.ok ())) (hok' : ∀ i, s'.Returned i (.ok ())) :
    (∀ i, (s.accounts i).committed = (s'.accounts i).committed) ∧
      ∀ wire ∈ wires workflow, s.committed wire.2 = s'.committed wire.2 := by
  have hbuilt := nodeRuns_built hbuild
  have hpipes : Pipes (runNetwork metadataSink w.nodeRuns) :=
    runNodes_pipes hbuilt (accepts_iff.mp ⟨_, haccepted⟩).1.acyclic _
  have hdetermined (i : Fin w.nodeRuns.length) :
      Nonempty (Determined (runNetwork metadataSink w.nodeRuns i)) := by
    obtain ⟨node, hnode, hrun⟩ := built_get hbuilt i
    exact run_determined hrun
      (hordered node (List.mem_of_getElem? hnode) _ hrun.executor)
  have houtcome := Network.outcome_determined hm hm' hpipes (runNetwork_wires hbuilt)
    (fun i => (hdetermined i).some) hs hs' hok hok'
  refine ⟨fun i => (houtcome i).1, fun wire hwire => ?_⟩
  obtain ⟨i, hi⟩ := sender_of_wire hbuilt (fun i => runFuture metadataSink (w.nodeRuns.get i)) hwire
  exact (houtcome i).2 wire.2 hi

section Sample

/-- A rule node that drops every packet. -/
def dropNode : RuleNode := ⟨⟨"rules", .firstMatch, [], .drop, false⟩, false, fun _ => "null"⟩

/-- The source of the edge is a native executor, and its target drops what it is sent. -/
def edgeRegistry (nodeId : NodeId) : Except PureflowError NodeExecutor :=
  if nodeId = edgeSource.id then .ok (.native (nativeExecutor edgeWorkflow edgeSource))
  else .ok (.rule (.native dropNode) 0)

section Drop

variable {ctx : NodeContext} {inputs : PortsIn} {outputs : PortsOut} {ins outs : List ℕ}
  {awake : Bool} {g : Standing}

/-- What is known of the node that drops, between two turns. -/
def DropsAll (inputs : PortsIn) : LoopState → Standing → Prop
  | (_, .receiving _), g | (_, .between), g => g.account.held = 0
  | (_, .sending _), _ => False
  | (_, .returned result), g =>
    result = .ok () ∧ g.account.held = 0 ∧ inputs.channels inPort ⊆ g.closed

/-- How much it has left to do. -/
def dropsLeft (ins : List ℕ) : LoopState → Standing → ℕ
  | (_, .receiving _), g => 2 * g.awaited ins + 1
  | (_, .between), g => 2 * g.awaited ins + 2
  | _, _ => 0

/-- **One turn** of the node that drops. -/
lemma drop_turn {port : InputPortHandle} (hport : PortHandle.find inputs.ports inPort = some port)
    (hins : ∀ c ∈ inputs.channels inPort, c ∈ ins) {s : LoopState} (h : DropsAll inputs s g) :
    Prog.Wp (oneShot awake ins outs) ((dropNode.loop ctx).step inputs outputs s)
      (fun s' g' => DropsAll inputs s' g' ∧ (awake = true →
        ((RuleExecutor.native dropNode).future ctx inputs outputs 0).result s = none →
          dropsLeft ins s' g' < dropsLeft ins s g)) g := by
  obtain ⟨counter, stage⟩ := s
  cases stage with
  | receiving polled =>
    have hheld : g.account.held = 0 := h
    have hpoll : Prog.Wp (oneShot awake ins outs) (RuleNode.pollInput inputs polled)
        (ReceivedOnce awake ins (inputs.channels inPort) g) g := by
      unfold RuleNode.pollInput
      rw [hport]
      cases polled with
      | true => exact (recv_once inputs hport hins).2
      | false => exact (recv_once inputs hport hins).1
    -- all channels are closed
    have hclosed {g' : Standing} (hlater : g.Later ins g' 0)
        (hchannels : inputs.channels inPort ⊆ g'.closed) :
        DropsAll inputs (counter, .returned (.ok ())) g' :=
      ⟨rfl, hlater.held.trans hheld, hchannels⟩
    rw [RuleLoop.step, Prog.wp_bind]
    refine hpoll.mono fun poll g' hr => ?_
    rcases poll with (err | _ | packet) | _
    · cases err with
      | disconnected portId => exact ⟨hclosed hr.1 hr.2, fun _ _ => Nat.succ_pos _⟩
      | unknownPort portId | cancelled portId => exact hr.elim
    · exact ⟨hclosed hr.1 hr.2, fun _ _ => Nat.succ_pos _⟩
    · have hlater : g.Later ins g' 1 := hr
      have hawaited := hlater.awaited
      show Prog.Wp (oneShot awake ins outs) (.ret (counter + 1, Stage.between)) _ g'
      refine ⟨hlater.held.trans hheld, fun _ _ => ?_⟩
      simp only [dropsLeft]
      omega
    · obtain ⟨hlater, hsleeps⟩ := hr
      refine ⟨hlater.held.trans hheld, fun hawake => ?_⟩
      rw [hsleeps] at hawake
      cases hawake
  | between =>
    rw [RuleLoop.step, Prog.wp_bind]
    exact quiet_oneShot.wp_isCancelled ⟨h, fun _ _ => Nat.lt_succ_self _⟩
  | sending send => exact h.elim
  | returned result => exact ⟨h, fun _ hresult => by cases hresult⟩

end Drop

section Built

variable {workflow : WorkflowDefinition} {execution : ExecutionMetadata}
  {registry : NodeId → Except PureflowError NodeExecutor} {node : NodeDefinition}
  {run : NodeRun NodeExecutor} {metadataSink : Bool}

/-- A node run of a native executor, as the command line builds it. -/
lemma native_sendsOnce (hnode : node ∈ workflow.nodes)
    (hbuilt : Built workflow execution registry none node (wired workflow node) run)
    (hexecutor : run.executor = .native (nativeExecutor workflow node))
    (hshort : ¬ CliNativeExecutor.TooLong (nodeContext workflow execution node)
      (nativeExecutor workflow node)) :
    Nonempty (SendsOnce (run.networkNode (runFuture metadataSink run))) := by
  have hnative : NativeBuilt workflow execution node
      ⟨nativeExecutor workflow node, run.context, run.inputs, run.outputs⟩ :=
    ⟨executorFor_native hnode, hbuilt.context, hbuilt.inputs, hbuilt.outputs⟩
  rw [runFuture, hexecutor]
  exact ⟨nativeSendsOnce hnode hnative hshort⟩

/-- A node run of the one that drops, where nothing leaves its node and all edges into it arrive at
its input port. -/
lemma drop_sendsOnce
    (hbuilt : Built workflow execution registry none node (wired workflow node) run)
    (hexecutor : run.executor = .rule (.native dropNode) 0) (hin : inPort ∈ node.inputPorts)
    (htargets : ∀ edge ∈ workflow.edges, edge.target.nodeId = node.id →
      edge.target.portId = inPort)
    (hsources : ∀ edge ∈ workflow.edges, edge.source.nodeId ≠ node.id) :
    Nonempty (SendsOnce (run.networkNode (runFuture metadataSink run))) := by
  have hport : PortHandle.find (run.givenInputs metadataSink).ports inPort =
      some ⟨inPort, (wiresInto workflow ⟨node.id, inPort⟩).map Wire.receiver⟩ := by
    rw [NodeRun.givenInputs, hbuilt.inputs]
    exact (wired_node workflow node).inputs inPort hin
  have hsenders : (run.networkNode (runFuture metadataSink run)).senders ⊆ [] := by
    intro c hc
    obtain ⟨wire, hwire, hsource, -⟩ := wire_of_sender hbuilt hc
    rw [hbuilt.context] at hsource
    exact absurd hsource (hsources _ (mem_wires hwire))
  have hreceivers : (run.networkNode (runFuture metadataSink run)).receivers ⊆
      (run.givenInputs metadataSink).channels inPort := by
    intro c hc
    obtain ⟨wire, hwire, hnode, -, hmem⟩ := mem_channels_of_wire hbuilt hc
    rwa [htargets _ (mem_wires hwire) hnode] at hmem
  have hins (c : ℕ) (hc : c ∈ (run.givenInputs metadataSink).channels inPort) :
      c ∈ (run.networkNode (runFuture metadataSink run)).receivers :=
    NodeRun.mem_receivers_of_channels _ hc
  rw [runFuture, hexecutor] at hsenders hreceivers hins ⊢
  exact ⟨{
    Good := DropsAll (run.givenInputs metadataSink)
    left := dropsLeft (run.networkNode _).receivers
    start := rfl
    turn := fun awake _ _ hgood => drop_turn hport hins hgood
    returns := by
      rintro ⟨counter, stage⟩ g result hgood hresult
      cases stage with
      | returned last =>
        obtain rfl : last = result := Option.some.inj hresult
        obtain ⟨hok, hheld, hclosed⟩ := hgood
        exact ⟨hok, hheld, List.Subset.trans hsenders (List.nil_subset _),
          List.Subset.trans hreceivers hclosed⟩
      | receiving | sending | between => cases hresult }⟩

end Built

lemma edge_ends {w : World NodeExecutor} (capacity : ℕ+)
    (hbuilt : List.Forall₂ (fun node run => Built edgeWorkflow edgeExecution edgeRegistry none node
      (wired edgeWorkflow node) run) edgeWorkflow.nodes w.nodeRuns) :
    ∃ s : Network (.plain PortPacket) (runNetwork false w.nodeRuns),
      Relation.ReflTransGen Network.RunStep (Network.initial _ _ fun _ => capacity) s ∧
        ∀ i, s.Returned i (.ok ()) := by
  have hacyclic := (accepts_iff.mp ⟨_, edgeWorkflow_accepted⟩).1.acyclic
  have hconduct (i : Fin w.nodeRuns.length) :
      Nonempty (SendsOnce (runNetwork false w.nodeRuns i)) := by
    obtain ⟨node, hnode, hrun⟩ := built_get hbuilt i
    have hmem := List.mem_of_getElem? hnode
    have hfound := hrun.executor
    rcases List.mem_pair.mp hmem with rfl | rfl
    · exact native_sendsOnce hmem hrun (Except.ok.inj hfound).symm (edgeWorkflow_short _ hmem)
    · exact drop_sendsOnce hrun (Except.ok.inj hfound).symm (by decide) (by decide) (by decide)
  have conduct := fun i => (hconduct i).some
  have hpipes := runNodes_pipes hbuilt hacyclic
    fun i => runFuture false (w.nodeRuns.get i)
  have hstart : Network.Reachable .undisturbed (fun _ => capacity)
      (Network.initial (.plain PortPacket) (runNetwork false w.nodeRuns) fun _ => capacity) := .refl
  obtain ⟨s, hsteps, hall⟩ := Network.can_complete
    (Mpsc.plain_prompt PortPacket) hpipes (fun _ => capacity.pos) id id conduct hstart
  obtain ⟨closed, hflows⟩ := Network.flows_of_reachable (Mpsc.plain_prompt PortPacket) hpipes
    (fun _ => capacity.pos) id id conduct hsteps
  refine ⟨s, Relation.ReflTransGen.mono (fun _ _ hstep => hstep.mono False.elim False.elim) _ _
    hsteps, fun i => hflows.returned i (hall i).gone⟩

lemma edge_setup : (buildNodeRuns edgeWorkflow edgeExecution edgeRegistry none
    edgeWorkflow.nodes (buildPortWiring edgeWorkflow) (World.fresh 2 : World NodeExecutor)).1 =
      .ok () := by
  decide +kernel

/-- A native node and a rule node with an edge between them. -/
theorem run_solves_dataflow_sample : ∃ (w : World NodeExecutor)
    (s : Network (.plain PortPacket) (runNetwork false w.nodeRuns)),
    Relation.ReflTransGen Network.RunStep (Network.initial _ _ fun _ => 1) s ∧
    (∀ i, s.Returned i (.ok ())) ∧
    Dataflow false w.nodeRuns s.committed fun i => (s.accounts i).committed := by
  have hbuild := Prod.ext edge_setup rfl
  obtain ⟨s, hs, hok⟩ := edge_ends 1 (nodeRuns_built hbuild)
  exact ⟨_, s, hs, hok, run_solves_dataflow (Mpsc.plain_prompt PortPacket) edgeWorkflow
    edgeExecution edgeRegistry none 2 _ hbuild false (fun _ => 1) s hs hok⟩

/-- The two nodes over an edge of capacity 1 and over one of capacity 2. -/
theorem run_outcome_determined_sample : ∃ (w : World NodeExecutor)
    (s s' : Network (.plain PortPacket) (runNetwork false w.nodeRuns)),
    Relation.ReflTransGen Network.RunStep (Network.initial _ _ fun _ => 1) s ∧
    Relation.ReflTransGen Network.RunStep (Network.initial _ _ fun _ => 2) s' ∧
    (∀ i, s.Returned i (.ok ())) ∧ s.committed 0 = s'.committed 0 := by
  have hbuild := Prod.ext edge_setup rfl
  obtain ⟨s, hs, hok⟩ := edge_ends 1 (nodeRuns_built hbuild)
  obtain ⟨s', hs', hok'⟩ := edge_ends 2 (nodeRuns_built hbuild)
  have hordered : ∀ node ∈ edgeWorkflow.nodes, ∀ executor, edgeRegistry node.id = .ok executor →
      executor.Ordered edgeWorkflow node.id := by
    intro node hnode executor hexecutor
    rcases List.mem_pair.mp hnode with rfl | rfl
    · obtain rfl := Except.ok.inj hexecutor
      exact trivial
    · obtain rfl := Except.ok.inj hexecutor
      show edgeWorkflow.edges.countP _ ≤ 1
      decide
  have houtcome := run_outcome_determined (Mpsc.plain_prompt PortPacket)
    (Mpsc.plain_prompt PortPacket) edgeWorkflow edgeWorkflow_accepted edgeExecution
    edgeRegistry hordered none 2 _ hbuild false (fun _ => 1) (fun _ => 2) s s' hs hs' hok hok'
  exact ⟨_, s, s', hs, hs', hok, houtcome.2 _ List.mem_cons_self⟩

end Sample

end Pureflow.Runs
