import Pureflow.Core.Progress
import Pureflow.Runs.Executors

/-!
Runs of an accepted workflow never deadlock, where every executor waits for all its inputs at once.

A rule node waits on its port `in` only and a native executor drains one port after the other, so
that edges into another port could fill up meanwhile.
-/

namespace Pureflow.Runs

open Std Pureflow.Types Pureflow.Core Pureflow.Lib Pureflow.Workflow Pureflow.Engine Pureflow.Rules
  Pureflow.Wasm Pureflow.Cli

section Native

variable {ctx : NodeContext} {inputs : PortsIn} {outputs : PortsOut} {executor : CliNativeExecutor}
  {live : ℕ → Prop} {ins outs : List ℕ} {g : Load}

/-- What the executor has left: ports to drain, and then packets to send. -/
def nativeRank : NativeState → ℕ ×ₗ ℕ
  | (_, .draining left _ _) => toLex (1, left.length)
  | (_, .preparing _ left) => toLex (0, 2 * left.length + 1)
  | (_, .sending _ _ _ left) => toLex (0, 2 * left.length + 2)
  | (_, .returned _) => toLex (0, 0)

lemma pollPort_streaming {portId : PortId} (hins : inputs.channels portId ⊆ ins) (polled : Bool) :
    Prog.Wp (streaming live ins outs) (CliNativeExecutor.pollPort inputs portId polled)
      (Served live (inputs.channels portId) g) g := by
  unfold CliNativeExecutor.pollPort
  split
  · next port hport =>
    rw [PortsIn.channels, hport] at hins ⊢
    exact recvPoll_streaming inputs hins
  · exact recv_streaming inputs hins

/-- **A turn of a native executor**, where a port with an edge has all edges of the node. -/
lemma native_turn (hins : ∀ portId, inputs.channels portId ⊆ ins)
    (houts : ∀ portId, outputs.channels portId ⊆ outs)
    (hnodup : ∀ portId, (outputs.channels portId).Nodup)
    (hsingle : ∀ portId, ∀ c ∈ inputs.channels portId, ins ⊆ inputs.channels portId)
    {s : NativeState} (hresult : (executor.future ctx inputs outputs).result s = none)
    (hreserved : g.reserved = []) (hstarved : ¬ g.Starved live ins) :
    Prog.Wp (streaming live ins outs) (CliNativeExecutor.step ctx inputs outputs executor s)
      (fun s' g' => toLex (g'.total ins, nativeRank s') < toLex (g.total ins, nativeRank s)) g := by
  obtain ⟨receivedCount, stage⟩ := s
  cases stage with
  | draining ports polled portCount =>
    rcases ports with _ | ⟨portId, rest⟩
    · exact Load.less_of_rank rfl (Load.phase_lt Nat.one_pos _ _)
    · have hnext {g' : Load} (hg' : g' = g) (count : ℕ) :
          toLex (g'.total ins, nativeRank (count, .draining rest false 0)) < toLex (g.total ins,
            nativeRank (receivedCount, .draining (portId :: rest) polled portCount)) :=
        Load.less_of_rank (by rw [hg']) (Load.rank_lt 1 (Nat.lt_succ_self _))
      have hreturned {g' : Load} (hg' : g' = g) (count : ℕ) (result : Except PureflowError Unit) :
          toLex (g'.total ins, nativeRank (count, .returned result)) < toLex (g.total ins,
            nativeRank (receivedCount, .draining (portId :: rest) polled portCount)) :=
        Load.less_of_rank (by rw [hg']) (Load.phase_lt Nat.one_pos _ _)
      rw [CliNativeExecutor.step, Prog.wp_bind]
      refine (pollPort_streaming (hins portId) polled).mono fun poll g' hpoll => ?_
      rcases poll with (err | _ | packet) | _
      · cases err with
        | disconnected port => exact hnext hpoll _
        | unknownPort port | cancelled port => exact hreturned hpoll _ _
      · exact hnext hpoll _
      · obtain ⟨c, hc, hqueued, rfl⟩ := hpoll
        exact Load.less_of_taking (hins portId hc) hqueued _ _
      · -- the port it waits on has all edges of the node
        obtain ⟨-, hempty, c, hc, hlive⟩ := hpoll
        exact absurd ⟨fun d hd => hempty d (hsingle portId c hc hd), c, hins portId hc, hlive⟩
          hstarved
  | preparing outputIndex left =>
    rcases left with _ | ⟨⟨outputPort, targets⟩, rest⟩
    · exact Load.less_of_rank rfl (Load.rank_lt 0 (Nat.succ_pos _))
    · rw [CliNativeExecutor.step]
      split
      · exact Load.less_of_rank rfl (Load.rank_lt 0 (Nat.succ_pos _))
      · refine Load.less_of_rank rfl (Load.rank_lt 0 ?_)
        rw [List.length_cons]
        omega
  | sending outputIndex outputPort packet left =>
    rw [CliNativeExecutor.step, Prog.wp_bind]
    refine (send_streaming outputs (houts outputPort) (hnodup outputPort) hreserved).mono
      fun poll g' hpoll => ?_
    obtain ⟨hready, hqueued⟩ := hpoll
    rcases poll with (err | ⟨⟩) | _
    · exact Load.less_of_rank hqueued (Load.rank_lt 0 (Nat.succ_pos _))
    · exact Load.less_of_rank hqueued (Load.rank_lt 0 (Nat.lt_succ_self _))
    · exact absurd rfl hready
  | returned result => cases hresult

end Native

section Batch

variable {executor : BatchExecutor} {inputs : PortsIn} {outputs : PortsOut} {live : ℕ → Prop}
  {outs : List ℕ} {g : Load}

/-- The packets and the ports that are left to send. -/
def postsLeft (packetsByPort : List (PortId × List PortPacket)) : ℕ :=
  (packetsByPort.map fun entry => entry.2.length + 1).sum

def batchRank (executor : BatchExecutor) : BatchStage → ℕ ×ₗ ℕ
  | .collecting _ _ => toLex (1, 0)
  | .invoking batch =>
    match executor batch with
    | .ok batchOutputs => toLex (0, postsLeft batchOutputs.packetsByPort.toList + 2)
    | .error _ => toLex (0, 2)
  | .sending left => toLex (0, postsLeft left + 1)
  | .returned _ => toLex (0, 0)

lemma batchRank_invoking_lt (batch : BatchInputs) :
    batchRank executor (.invoking batch) < toLex (1, 0) := by
  simp only [batchRank]
  split <;> exact Load.phase_lt Nat.one_pos _ _

/-- **A turn of a batch node.** -/
lemma batch_turn (houts : ∀ portId, outputs.channels portId ⊆ outs)
    (hnodup : ∀ portId, (outputs.channels portId).Nodup) {stage : BatchStage}
    (hresult : (BatchNode.future executor inputs outputs).result stage = none)
    (hreserved : g.reserved = []) (hstarved : ¬ g.Starved live (portChannels inputs.ports)) :
    Prog.Wp (streaming live (portChannels inputs.ports) outs)
      (BatchNode.step executor inputs outputs stage)
      (fun stage' g' => toLex (g'.total (portChannels inputs.ports), batchRank executor stage') <
        toLex (g.total (portChannels inputs.ports), batchRank executor stage)) g := by
  cases stage with
  | collecting polled batch =>
    have hpoll : Prog.Wp (streaming live (portChannels inputs.ports) outs)
        (BatchNode.pollAny inputs polled) (Served live (portChannels inputs.ports) g) g := by
      cases polled with
      | true => exact recvAnyPoll_streaming inputs (List.Subset.refl _)
      | false => exact recvAny_streaming inputs (List.Subset.refl _)
    rw [BatchNode.step, Prog.wp_bind]
    refine hpoll.mono fun poll g' hpoll => ?_
    rcases poll with (err | _ | ⟨portId, packet⟩) | _
    · obtain rfl : g' = g := hpoll
      exact Load.less_of_rank rfl (Load.phase_lt Nat.one_pos _ _)
    · obtain rfl : g' = g := hpoll
      exact Load.less_of_rank rfl (batchRank_invoking_lt batch)
    · obtain ⟨c, hc, hqueued, rfl⟩ := hpoll
      exact Load.less_of_taking hc hqueued _ _
    · exact absurd hpoll.2 hstarved
  | invoking batch =>
    rw [BatchNode.step]
    split
    · next batchOutputs hinvoke =>
      refine Load.less_of_rank rfl ?_
      simp only [batchRank, hinvoke]
      exact Load.rank_lt 0 (Nat.lt_succ_self _)
    · next err hinvoke =>
      refine Load.less_of_rank rfl ?_
      simp only [batchRank, hinvoke]
      exact Load.rank_lt 0 Nat.two_pos
  | sending left =>
    rcases left with _ | ⟨⟨portId, _ | ⟨packet, packets⟩⟩, rest⟩
    · exact Load.less_of_rank rfl (Load.rank_lt 0 (Nat.succ_pos _))
    · refine Load.less_of_rank rfl (Load.rank_lt 0 ?_)
      simp only [postsLeft, List.map_cons, List.sum_cons, List.length_nil]
      omega
    · rw [BatchNode.step, Prog.wp_bind]
      refine (send_streaming outputs (houts portId) (hnodup portId) hreserved).mono
        fun poll g' hpoll => ?_
      obtain ⟨hready, hqueued⟩ := hpoll
      rcases poll with (err | ⟨⟩) | _
      · exact Load.less_of_rank hqueued (Load.rank_lt 0 (Nat.succ_pos _))
      · refine Load.less_of_rank hqueued (Load.rank_lt 0 ?_)
        simp only [postsLeft, List.map_cons, List.sum_cons, List.length_cons]
        omega
      · exact absurd rfl hready
  | returned result => cases hresult

end Batch

section Rule

variable {node : RuleExecutor} {ctx : NodeContext} {inputs : PortsIn} {outputs : PortsOut}
  {live : ℕ → Prop} {ins outs : List ℕ} {g : Load} {start : UInt64}

def ruleRank : LoopState → ℕ ×ₗ ℕ
  | (_, .receiving _) => toLex (0, 1)
  | (_, .between) => toLex (0, 2)
  | (_, .sending _) => toLex (0, 3)
  | (_, .returned _) => toLex (0, 0)

lemma pollInput_streaming (hins : inputs.channels inPort ⊆ ins) (polled : Bool) :
    Prog.Wp (streaming live ins outs) (RuleNode.pollInput inputs polled)
      (Served live (inputs.channels inPort) g) g := by
  unfold RuleNode.pollInput
  split
  · next port hport =>
    rw [PortsIn.channels, hport] at hins ⊢
    exact recvPoll_streaming inputs hins
  · exact recv_streaming inputs hins

/-- **A turn of a rule node** all whose edges arrive at its port `in`. -/
lemma rule_turn (hins : inputs.channels inPort ⊆ ins) (hall : ins ⊆ inputs.channels inPort)
    (houts : ∀ portId, outputs.channels portId ⊆ outs)
    (hnodup : ∀ portId, (outputs.channels portId).Nodup) {s : LoopState}
    (hresult : (node.future ctx inputs outputs start).result s = none) (hreserved : g.reserved = [])
    (hstarved : ¬ g.Starved live ins) :
    Prog.Wp (streaming live ins outs) ((node.loop ctx).step inputs outputs s)
      (fun s' g' => toLex (g'.total ins, ruleRank s') < toLex (g.total ins, ruleRank s)) g := by
  obtain ⟨counter, stage⟩ := s
  cases stage with
  | receiving polled =>
    rw [RuleLoop.step, Prog.wp_bind]
    refine (pollInput_streaming hins polled).mono fun poll g' hpoll => ?_
    rcases poll with (err | _ | packet) | _
    · obtain rfl : g' = g := hpoll
      cases err <;> exact Load.less_of_rank rfl (Load.rank_lt 0 Nat.one_pos)
    · obtain rfl : g' = g := hpoll
      exact Load.less_of_rank rfl (Load.rank_lt 0 Nat.one_pos)
    · obtain ⟨c, hc, hqueued, rfl⟩ := hpoll
      refine wp_steady ((node.process_silent ctx counter packet).mono fun op hop => ?_) fun s =>
        Load.less_of_taking (hins hc) hqueued _ _
      cases op with
      | isCancelled | record r => exact trivial
      | _ => exact hop.elim
    · obtain ⟨-, hempty, c, hc, hlive⟩ := hpoll
      exact absurd ⟨fun d hd => hempty d (hall hd), c, hins hc, hlive⟩ hstarved
  | sending send =>
    rw [RuleLoop.step, Prog.wp_bind]
    refine (send_streaming outputs (houts send.portId) (hnodup send.portId) hreserved).mono
      fun poll g' hpoll => ?_
    obtain ⟨hready, hqueued⟩ := hpoll
    rcases poll with (err | ⟨⟩) | _
    · exact Load.less_of_rank hqueued (Load.rank_lt 0 (by decide))
    · exact Load.less_of_rank hqueued (Load.rank_lt 0 (by decide))
    · exact absurd rfl hready
  | between =>
    rw [RuleLoop.step, Prog.wp_bind]
    exact quiet_streaming.wp_isCancelled (Load.less_of_rank rfl (Load.rank_lt 0 (by decide)))
  | returned result => cases hresult

end Rule

/-- The executor waits for all edges of its node at once. -/
def NodeExecutor.WaitsForAll (workflow : WorkflowDefinition) (nodeId : NodeId) :
    NodeExecutor → Prop
  | .native _ => ∀ e ∈ workflow.edges, ∀ e' ∈ workflow.edges, e.target.nodeId = nodeId →
    e'.target.nodeId = nodeId → e.target = e'.target
  | .batch _ => True
  | .rule _ _ => ∀ e ∈ workflow.edges, e.target.nodeId = nodeId → e.target.portId = inPort

section Built

variable {workflow : WorkflowDefinition} {execution : ExecutionMetadata}
  {registry : NodeId → Except PureflowError NodeExecutor}
  {outputContracts : Option WorkflowOutputContracts} {runs : List (NodeRun NodeExecutor)}
  {node : NodeDefinition} {run : NodeRun NodeExecutor} {metadataSink : Bool}

lemma nodup_outputChannels
    (hbuilt : Built workflow execution registry outputContracts node (wired workflow node) run)
    (portId : PortId) : ((run.givenOutputs metadataSink).channels portId).Nodup := by
  unfold PortsOut.channels
  cases hport : PortHandle.find (run.givenOutputs metadataSink).ports portId with
  | none => exact List.nodup_nil
  | some port =>
    have hmem : port ∈ run.outputs.ports := List.mem_of_find?_eq_some hport
    rw [withOutputContracts_ports hbuilt.outputs] at hmem
    obtain ⟨p, -, rfl⟩ := List.mem_map.mp hmem
    have hchannels : ((wiresFrom workflow ⟨node.id, p⟩).map Wire.sender).map Sender.channel =
        (wiresFrom workflow ⟨node.id, p⟩).map Prod.snd := by
      rw [List.map_map]
      rfl
    show (((wiresFrom workflow ⟨node.id, p⟩).map Wire.sender).map Sender.channel).Nodup
    rw [hchannels]
    exact (nodup_wires workflow).sublist (List.filter_sublist.map _)

lemma wire_of_given
    (hbuilt : Built workflow execution registry outputContracts node (wired workflow node) run)
    {portId : PortId} {c : ℕ} (hc : c ∈ (run.givenInputs metadataSink).channels portId) :
    ∃ wire ∈ wires workflow, wire.1.target = ⟨node.id, portId⟩ := by
  have hchannels : c ∈ (wired workflow node).inputs.channels portId := by
    rw [← hbuilt.inputs]
    exact hc
  obtain ⟨-, wire, hwire, htarget, -⟩ := wire_of_input hchannels
  exact ⟨wire, hwire, htarget⟩

/-- **A node that waits for all its edges at once streams.** -/
lemma run_streams
    (hbuilt : Built workflow execution registry outputContracts node (wired workflow node) run)
    (hwaits : run.executor.WaitsForAll workflow node.id) :
    Nonempty (Streams (run.networkNode (runFuture metadataSink run))) := by
  have hins (portId : PortId) : (run.givenInputs metadataSink).channels portId ⊆
      (run.networkNode (runFuture metadataSink run)).receivers :=
    fun c hc => NodeRun.mem_receivers_of_channels _ hc
  have houts (portId : PortId) : (run.givenOutputs metadataSink).channels portId ⊆
      (run.networkNode (runFuture metadataSink run)).senders :=
    fun c hc => NodeRun.mem_senders_of_channels _ hc
  have hnodup (portId : PortId) : ((run.givenOutputs metadataSink).channels portId).Nodup :=
    nodup_outputChannels hbuilt portId
  have hall {c : ℕ} (hc : c ∈ (run.networkNode (runFuture metadataSink run)).receivers) :
      ∃ wire ∈ wires workflow, wire.1.target.nodeId = node.id ∧ wire.2 = c ∧
        c ∈ (run.givenInputs metadataSink).channels wire.1.target.portId :=
    mem_channels_of_wire hbuilt hc
  unfold runFuture at hins houts hall ⊢
  cases hexecutor : run.executor with
  | native executor =>
    rw [hexecutor] at hwaits hins houts hall
    refine ⟨nativeRank, fun _ => rfl, fun live _ _ hresult hreserved hstarved => ?_⟩
    refine native_turn hins houts hnodup (fun portId c hc d hd => ?_) hresult hreserved hstarved
    obtain ⟨wire, hwire, htarget⟩ := wire_of_given hbuilt hc
    obtain ⟨wire', hwire', hnode, -, hmem⟩ := hall hd
    have hsame : wire.1.target = wire'.1.target := hwaits _ (mem_wires hwire) _ (mem_wires hwire')
      (by rw [htarget]) hnode
    rwa [← hsame, htarget] at hmem
  | batch executor =>
    rw [hexecutor] at houts
    exact ⟨batchRank executor, fun _ => rfl, fun live _ _ hresult hreserved hstarved =>
      batch_turn houts hnodup hresult hreserved hstarved⟩
  | rule rule counter =>
    rw [hexecutor] at hwaits hins houts hall
    refine ⟨ruleRank, fun _ => rfl, fun live _ _ hresult hreserved hstarved => ?_⟩
    refine rule_turn (hins inPort) (fun c hc => ?_) houts hnodup hresult hreserved hstarved
    obtain ⟨wire, hwire, hnode, -, hmem⟩ := hall hc
    rwa [hwaits _ (mem_wires hwire) hnode] at hmem

/-- **The channels of a run are joined** along the graph of the workflow. -/
lemma runNetwork_joined (h : List.Forall₂ (fun node run =>
      Built workflow execution registry outputContracts node (wired workflow node) run)
      workflow.nodes runs) (hacyclic : Digraph.Acyclic (Joins workflow.edges)) :
    Network.Joined (runNetwork metadataSink runs) where
  toPipes := runNodes_pipes h hacyclic _
  keeps := (runNetwork_wires h).keeps
  received {i c} hc := by
    obtain ⟨node, -, hbuilt⟩ := built_get h i
    obtain ⟨wire, hwire, -, rfl⟩ := wire_of_sender hbuilt hc
    obtain ⟨j, -, hj⟩ := receiver_of_wire h (fun i => runFuture metadataSink (runs.get i)) hwire
    exact ⟨j, hj⟩

/-- **No deadlock.** Whatever a run of an accepted workflow has come to without cancellation, with
any capacities of its edges, it can be continued until all nodes are complete: no two nodes wait
for each other, however many edges fan out and in. -/
theorem run_never_deadlocks {m : Mpsc PortPacket} {senders : m.State → ℕ} (hm : m.Candid senders)
    (workflow : WorkflowDefinition)
    (haccepted : WorkflowGraph.new workflow.nodes workflow.edges = .ok workflow.graph)
    (execution : ExecutionMetadata) (registry : NodeId → Except PureflowError NodeExecutor)
    (hwaits : ∀ node ∈ workflow.nodes, ∀ executor, registry node.id = .ok executor →
      executor.WaitsForAll workflow node.id)
    (outputContracts : Option WorkflowOutputContracts) (n : SliceLen) (w : World NodeExecutor)
    (hbuild : buildNodeRuns workflow execution registry outputContracts workflow.nodes
      (buildPortWiring workflow) (.fresh n) = (.ok (), w))
    (metadataSink : Bool) (capacity : ℕ → ℕ+) (regime : Regime) (hquiet : ¬ regime.cancels)
    (s : Network m (runNetwork metadataSink w.nodeRuns))
    (hs : Network.Reachable regime (fun c => capacity c) s) :
    ∃ s', Relation.ReflTransGen (Network.Step .undisturbed) s s' ∧ ∀ i, s'.Completed i := by
  have hbuilt := nodeRuns_built hbuild
  have hjoined : Network.Joined (runNetwork metadataSink w.nodeRuns) :=
    runNetwork_joined hbuilt (accepts_iff.mp ⟨_, haccepted⟩).1.acyclic
  have hstreams (i : Fin w.nodeRuns.length) :
      Nonempty (Streams (runNetwork metadataSink w.nodeRuns i)) := by
    obtain ⟨node, hnode, hrun⟩ := built_get hbuilt i
    exact run_streams hrun (hwaits node (List.mem_of_getElem? hnode) _ hrun.executor)
  exact Network.can_finish hm hjoined (fun c => (capacity c).pos) hquiet
    (fun i => (hstreams i).some) hs

end Built

section Sample

/-- Two batch nodes with an edge between them, both of which send nothing. -/
theorem run_never_deadlocks_sample : ∃ (w : World NodeExecutor)
    (s : Network (.plain PortPacket) (runNetwork false w.nodeRuns)),
    Relation.ReflTransGen (Network.Step .undisturbed) (Network.initial _ _ fun _ => 1) s ∧
      ∀ i, s.Completed i := by
  let registry : NodeId → Except PureflowError NodeExecutor := fun _ => .ok (.batch fun _ => .ok .new)
  have hsetup : (buildNodeRuns edgeWorkflow edgeExecution registry none edgeWorkflow.nodes
      (buildPortWiring edgeWorkflow) (World.fresh 2 : World NodeExecutor)).1 = .ok () := by
    decide +kernel
  have hwaits : ∀ node ∈ edgeWorkflow.nodes, ∀ executor, registry node.id = .ok executor →
      executor.WaitsForAll edgeWorkflow node.id := by
    rintro node hnode executor ⟨⟩
    exact trivial
  exact ⟨_, run_never_deadlocks (Mpsc.plain_candid PortPacket) edgeWorkflow edgeWorkflow_accepted
    edgeExecution registry hwaits none 2 _ (Prod.ext hsetup rfl) false (fun _ => 1) .undisturbed id _
    .refl⟩

end Sample

end Pureflow.Runs
