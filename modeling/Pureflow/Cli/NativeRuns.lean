import Pureflow.Cli.Native
import Pureflow.Core.Completion
import Pureflow.Engine.RunNetwork

/-!
Runs of a workflow under the passive native executors of the command line.

Each executor drains its input ports one after the other and then sends one packet to each output
port, so that every edge carries one packet. The edges form no cycle, and no run gets stuck.
-/

namespace Pureflow.Cli

open Std Pureflow.Types Pureflow.Core Pureflow.Lib Pureflow.Workflow Pureflow.Engine

/-- The executor of a node. -/
def StaticNodeExecutorRegistry.executorFor {Executor : Type}
    (registry : StaticNodeExecutorRegistry Executor) (nodeId : NodeId) :
    Except PureflowError Executor :=
  match registry.executors[nodeId]? with
  | some executor => .ok executor
  | none => .error (.execution s!"no executor registered for workflow node `{nodeId}`")

namespace CliNativeExecutor

section Future

variable (ctx : NodeContext) (inputs : PortsIn) (outputs : PortsOut)
  (executor : CliNativeExecutor)

lemma pollPort_spec (portId : PortId) (polled : Bool) {g : Account} :
    Prog.Wp ledger (pollPort inputs portId polled) (PollReceived g) g := by
  unfold pollPort
  split
  · exact recvPoll_spec inputs _
  · exact portsIn_recv_spec inputs portId

lemma step_disciplined (s : NativeState) {g : Account} (hheld : g.held = 0) :
    Prog.Wp ledger (step ctx inputs outputs executor s) (fun _ g' => g'.held = 0) g := by
  obtain ⟨receivedCount, stage⟩ := s
  cases stage with
  | draining ports polled portCount =>
    rcases ports with _ | ⟨portId, rest⟩
    · exact hheld
    · rw [step, Prog.wp_bind]
      refine (pollPort_spec inputs portId polled).mono fun poll g' hpoll => ?_
      rcases poll with (err | _ | packet) | _
      · cases hpoll
        exact hheld
      · cases hpoll
        exact hheld
      · obtain ⟨c, rfl⟩ := hpoll
        exact hheld
      · cases hpoll
        exact hheld
  | preparing outputIndex rest =>
    rcases rest with _ | ⟨⟨outputPort, targets⟩, rest⟩
    · exact hheld
    · rw [step]
      split <;> exact hheld
  | sending outputIndex outputPort packet rest =>
    rw [step, Prog.wp_bind]
    refine (send_spec outputs outputPort packet).mono fun poll g' hpoll => ?_
    rcases poll with (err | ⟨⟩) | _
    all_goals
      cases hpoll
      exact hheld
  | returned result => exact hheld

/-- The future of the node. -/
def future : Future where
  Stage := NativeState
  start := (0, .draining executor.inputPorts false 0)
  step := step ctx inputs outputs executor
  result
    | (_, .returned result) => some result
    | _ => none
  holds _ := 0
  holds_start := Future.holds_nothing
  disciplined s _ hheld := step_disciplined ctx inputs outputs executor s hheld

end Future

section Turns

variable {ctx : NodeContext} {inputs : PortsIn} {outputs : PortsOut}
  {executor : CliNativeExecutor} {ins outs : List ℕ} {awake : Bool} {g g' : Standing}

/-- The channels of the output ports, in the order of the routes. -/
def outputChannels (outputs : PortsOut) (executor : CliNativeExecutor) : List ℕ :=
  executor.outputRoutes.toList.flatMap fun route => outputs.channels route.1

/-- The ports are those the executor was made for, no contract is attached, and the ids fit. -/
structure Suits (ctx : NodeContext) (inputs : PortsIn) (outputs : PortsOut)
    (executor : CliNativeExecutor) : Prop where
  hasInput : ∀ portId ∈ executor.inputPorts,
    ∃ port, PortHandle.find inputs.ports portId = some port
  hasOutput : ∀ route ∈ executor.outputRoutes.toList,
    ∃ port, PortHandle.find outputs.ports route.1 = some port
  apart : (outputChannels outputs executor).Nodup
  validator : outputs.validator = none
  short : ¬ TooLong ctx executor

/-- Everything is received, and the packets for the output ports before this one are sent. -/
structure Sent (inputs : PortsIn) (outputs : PortsOut) (executor : CliNativeExecutor)
    (outputIndex : ℕ) (g : Standing) : Prop where
  held : g.account.held = 0
  closed : ∀ portId ∈ executor.inputPorts, inputs.channels portId ⊆ g.closed
  sent : g.sent = (executor.outputRoutes.toList.take outputIndex).flatMap fun route =>
    outputs.channels route.1

/-- What is known of the node at a stage. -/
def Good (inputs : PortsIn) (outputs : PortsOut) (executor : CliNativeExecutor) :
    NativeState → Standing → Prop
  | (_, .draining left _ _), g => g.account.held = 0 ∧ g.sent = [] ∧
    ∃ drained, executor.inputPorts = drained ++ left ∧
      ∀ portId ∈ drained, inputs.channels portId ⊆ g.closed
  | (_, .preparing outputIndex left), g => Sent inputs outputs executor outputIndex g ∧
    executor.outputRoutes.toList.drop outputIndex = left
  | (_, .sending outputIndex outputPort _ left), g => Sent inputs outputs executor outputIndex g ∧
    ∃ targets, executor.outputRoutes.toList.drop outputIndex = (outputPort, targets) :: left
  | (_, .returned result), g => result = .ok () ∧
    Sent inputs outputs executor executor.outputRoutes.toList.length g

/-- What the node has left to do: packets to receive, ports to drain and packets to send. -/
def left (executor : CliNativeExecutor) (ins : List ℕ) : NativeState → Standing → ℕ
  | (_, .draining ports _ _), g =>
    g.awaited ins + ports.length + 2 * executor.outputRoutes.toList.length + 2
  | (_, .preparing _ routes), _ => 2 * routes.length + 1
  | (_, .sending _ _ _ routes), _ => 2 * routes.length + 2
  | (_, .returned _), _ => 0

lemma good_start : Good inputs outputs executor (0, .draining executor.inputPorts false 0) .fresh :=
  ⟨rfl, rfl, [], rfl, fun _ h => absurd h List.not_mem_nil⟩

lemma pollPort_once (hsuits : Suits ctx inputs outputs executor) {portId : PortId}
    (hport : portId ∈ executor.inputPorts) (hins : inputs.channels portId ⊆ ins) (polled : Bool) :
    Prog.Wp (oneShot awake ins outs) (pollPort inputs portId polled)
      (ReceivedOnce awake ins (inputs.channels portId) g) g := by
  obtain ⟨port, hfind⟩ := hsuits.hasInput portId hport
  unfold pollPort
  rw [hfind]
  cases polled with
  | true => exact (recv_once inputs hfind hins).2
  | false => exact (recv_once inputs hfind hins).1

/-- **Draining**: a port that is closed is left, a packet is counted, and the node waits only where
it has to. -/
lemma drain_turn (hsuits : Suits ctx inputs outputs executor) {portId : PortId}
    {rest : List PortId} {receivedCount portCount : ℕ} {polled : Bool}
    (hins : inputs.channels portId ⊆ ins)
    (h : Good inputs outputs executor (receivedCount, .draining (portId :: rest) polled portCount)
      g) :
    Prog.Wp (oneShot awake ins outs)
      (step ctx inputs outputs executor (receivedCount, .draining (portId :: rest) polled portCount))
      (fun s' g' => Good inputs outputs executor s' g' ∧ (awake = true →
        left executor ins s' g' <
          left executor ins (receivedCount, .draining (portId :: rest) polled portCount) g)) g := by
  obtain ⟨hheld, hsent, drained, hports, hclosed⟩ := h
  have hport : portId ∈ executor.inputPorts := by
    rw [hports]
    exact List.mem_append_right _ List.mem_cons_self
  have hkept {g' : Standing} {packets : ℕ} (hlater : g.Later ins g' packets) :
      g'.account.held = 0 ∧ g'.sent = [] ∧
        ∀ portId ∈ drained, inputs.channels portId ⊆ g'.closed := by
    refine ⟨hlater.held.trans hheld, ?_, fun p hp => List.Subset.trans (hclosed p hp) hlater.closed⟩
    rw [Standing.sent, hlater.committed]
    exact hsent
  -- the port is closed, and the next one is drained
  have hnext {g' : Standing} (hlater : g.Later ins g' 0)
      (hchannels : inputs.channels portId ⊆ g'.closed) (count : ℕ) :
      Good inputs outputs executor (count, .draining rest false 0) g' ∧ (awake = true →
        left executor ins (count, .draining rest false 0) g' <
          left executor ins (receivedCount, .draining (portId :: rest) polled portCount) g) := by
    obtain ⟨hheld', hsent', hclosed'⟩ := hkept hlater
    refine ⟨⟨hheld', hsent', drained ++ [portId], by simp [hports], fun p hp => ?_⟩, fun _ => ?_⟩
    · rcases List.mem_append.mp hp with hp | hp
      · exact hclosed' p hp
      · rw [List.mem_singleton.mp hp]
        exact hchannels
    · have hawaited := hlater.awaited
      simp only [left, List.length_cons]
      omega
  rw [step, Prog.wp_bind]
  refine (pollPort_once hsuits hport hins polled).mono fun poll g' hpoll => ?_
  rcases poll with (err | _ | packet) | _
  · cases err with
    | disconnected portId => exact hnext hpoll.1 hpoll.2 _
    | unknownPort portId | cancelled portId => exact hpoll.elim
  · exact hnext hpoll.1 hpoll.2 _
  · have hlater : g.Later ins g' 1 := hpoll
    obtain ⟨hheld', hsent', hclosed'⟩ := hkept hlater
    refine ⟨⟨hheld', hsent', drained, hports, hclosed'⟩, fun _ => ?_⟩
    have hawaited := hlater.awaited
    simp only [afterPoll, left, List.length_cons]
    omega
  · obtain ⟨hlater, hsleeps⟩ := hpoll
    obtain ⟨hheld', hsent', hclosed'⟩ := hkept hlater
    refine ⟨⟨hheld', hsent', drained, hports, hclosed'⟩, fun hawake => ?_⟩
    rw [hsleeps] at hawake
    cases hawake

/-- **Sending**: the packet goes out at once. -/
lemma send_turn (hsuits : Suits ctx inputs outputs executor) {outputPort : PortId}
    {packet : PortPacket} {rest : List (PortId × List MessageEndpoint)}
    {receivedCount outputIndex : ℕ} (houts : outputs.channels outputPort ⊆ outs)
    (h : Good inputs outputs executor
      (receivedCount, .sending outputIndex outputPort packet rest) g) :
    Prog.Wp (oneShot awake ins outs)
      (step ctx inputs outputs executor
        (receivedCount, .sending outputIndex outputPort packet rest))
      (fun s' g' => Good inputs outputs executor s' g' ∧ (awake = true →
        left executor ins s' g' <
          left executor ins (receivedCount, .sending outputIndex outputPort packet rest) g)) g := by
  obtain ⟨hsent, targets, hdrop⟩ := h
  obtain ⟨hroute, htail⟩ := split_of_drop hdrop
  have hsplit : outputChannels outputs executor =
      ((executor.outputRoutes.toList.take outputIndex).flatMap fun route =>
        outputs.channels route.1) ++
      (outputs.channels outputPort ++ rest.flatMap fun route => outputs.channels route.1) := by
    have hall := List.take_append_drop outputIndex executor.outputRoutes.toList
    rw [hdrop] at hall
    rw [outputChannels]
    conv_lhs => rw [← hall]
    rw [List.flatMap_append, List.flatMap_cons]
  have hapart := hsuits.apart
  rw [hsplit] at hapart
  obtain ⟨-, hlater, hdisjoint⟩ := List.nodup_append.mp hapart
  obtain ⟨port, hport⟩ := hsuits.hasOutput _ (List.mem_of_getElem? hroute)
  have hfresh : ∀ c ∈ outputs.channels outputPort, c ∉ g.account.held ∧ c ∉ g.sent := by
    intro c hc
    rw [hsent.held, hsent.sent]
    refine ⟨Multiset.notMem_zero c, fun hbefore => ?_⟩
    exact hdisjoint c hbefore c (List.mem_append_left _ hc) rfl
  have hsend : Prog.Wp (oneShot awake ins outs) (outputs.send outputPort packet)
      (fun r g' => r = .ready (.ok ()) ∧ g' = g.sending (outputs.channels outputPort) packet) g := by
    refine send_once outputs hport ?_ houts (List.nodup_append.mp hlater).1 hfresh
    intro validator hvalidator
    rw [hsuits.validator] at hvalidator
    cases hvalidator
  rw [step, Prog.wp_bind]
  refine hsend.mono fun r g' hr => ?_
  obtain ⟨rfl, rfl⟩ := hr
  refine ⟨⟨⟨hsent.held, hsent.closed, ?_⟩, htail⟩, fun _ => ?_⟩
  · rw [Standing.sending_sent, hsent.sent, List.take_add_one, hroute]
    simp
  · simp only [left]
    omega

/-- **One turn** of the node. -/
theorem turn_good (hsuits : Suits ctx inputs outputs executor)
    (hins : ∀ portId, inputs.channels portId ⊆ ins) (houts : ∀ portId, outputs.channels portId ⊆ outs)
    {s : NativeState} (h : Good inputs outputs executor s g) :
    Prog.Wp (oneShot awake ins outs) (step ctx inputs outputs executor s)
      (fun s' g' => Good inputs outputs executor s' g' ∧
        (awake = true → (future ctx inputs outputs executor).result s = none →
          left executor ins s' g' < left executor ins s g)) g := by
  obtain ⟨receivedCount, stage⟩ := s
  cases stage with
  | draining ports polled portCount =>
    rcases ports with _ | ⟨portId, rest⟩
    · obtain ⟨hheld, hsent, drained, hports, hclosed⟩ := h
      rw [List.append_nil] at hports
      refine ⟨⟨⟨hheld, hports ▸ hclosed, hsent⟩, List.drop_zero⟩, fun _ _ => ?_⟩
      simp only [left]
      omega
    · exact (drain_turn hsuits (hins portId) h).mono fun s' g' h' => ⟨h'.1, fun ha _ => h'.2 ha⟩
  | preparing outputIndex routes =>
    obtain ⟨hsent, hdrop⟩ := h
    rcases routes with _ | ⟨⟨outputPort, targets⟩, rest⟩
    · have hlength : executor.outputRoutes.toList.length ≤ outputIndex := List.drop_eq_nil_iff.mp hdrop
      refine ⟨⟨rfl, hsent.held, hsent.closed, ?_⟩, fun _ _ => ?_⟩
      · rw [hsent.sent, List.take_of_length_le hlength, List.take_length]
      · simp only [left, List.length_nil]
        omega
    · obtain ⟨hroute, -⟩ := split_of_drop hdrop
      have hfits : (cliMessageId ctx outputPort outputIndex).utf8ByteSize ≤ maxIdentifierLen := by
        by_contra hlong
        exact hsuits.short ⟨outputIndex, _, hroute, Nat.lt_of_not_le hlong⟩
      obtain ⟨packet, hpacket⟩ := cliOutputPacket_ok hfits targets receivedCount
      rw [step, hpacket]
      refine ⟨⟨hsent, targets, hdrop⟩, fun _ _ => ?_⟩
      simp only [left, List.length_cons]
      omega
  | sending outputIndex outputPort packet rest =>
    exact (send_turn hsuits (houts outputPort) h).mono fun s' g' h' => ⟨h'.1, fun ha _ => h'.2 ha⟩
  | returned result => exact ⟨h, fun _ hresult => by cases hresult⟩

end Turns

end CliNativeExecutor

section Built

open CliNativeExecutor

variable {workflow : WorkflowDefinition} {execution : ExecutionMetadata}
  {node : NodeDefinition} {run : NodeRun CliNativeExecutor} {metadataSink : Bool}

/-- The future of a node run. -/
def nativeFuture (metadataSink : Bool) (run : NodeRun CliNativeExecutor) : Future :=
  run.executor.future run.context (run.givenInputs metadataSink) (run.givenOutputs metadataSink)

lemma executorFor_native (hnode : node ∈ workflow.nodes) :
    (nativeRegistryForWorkflow workflow).executorFor node.id =
      .ok (nativeExecutor workflow node) := by
  have hkeys : ((workflow.nodes.map fun node => (node.id, nativeExecutor workflow node)).map
      Prod.fst).Nodup := by
    rw [List.map_map]
    exact (graph_valid workflow).1
  have hfound : (nativeRegistryForWorkflow workflow).executors[node.id]? =
      some (nativeExecutor workflow node) :=
    (Grouping.ofEntries_eq_some_iff hkeys).mpr (List.mem_map.mpr ⟨node, hnode, rfl⟩)
  rw [StaticNodeExecutorRegistry.executorFor, hfound]

lemma mem_outputRoutes {portId : PortId} : (∃ targets, (portId, targets) ∈
    (nativeExecutor workflow node).outputRoutes.toList) ↔ portId ∈ node.outputPorts := by
  simp only [ExtTreeMap.mem_toList_iff_getElem?_eq_some]
  constructor
  · rintro ⟨targets, hfound⟩
    obtain ⟨port, hport, heq⟩ := List.mem_map.mp (Grouping.mem_of_ofEntries hfound)
    exact (Prod.mk.inj heq).1 ▸ hport
  · intro hport
    exact Grouping.ofEntries_isSome (List.mem_map.mpr ⟨portId, hport, rfl⟩)

lemma outputChannels_nodup :
    (outputChannels (wired workflow node).outputs (nativeExecutor workflow node)).Nodup := by
  have hports {route : PortId × List MessageEndpoint}
      (hroute : route ∈ (nativeExecutor workflow node).outputRoutes.toList) :
      (wired workflow node).outputs.channels route.1 =
        (wiresFrom workflow ⟨node.id, route.1⟩).map Prod.snd :=
    channels_of_output (mem_outputRoutes.mp ⟨route.2, hroute⟩)
  have hnodup : ((wires workflow).map Prod.snd).Nodup := by
    rw [wires, List.zipIdx_map_snd]
    exact List.nodup_range'
  refine List.nodup_flatMap.mpr ⟨fun route hroute => ?_, ?_⟩
  · rw [hports hroute]
    exact hnodup.sublist (List.filter_sublist.map _)
  · refine ExtTreeMap.distinct_keys_toList.imp_of_mem ?_
    intro route other hroute hother hne c hc hc'
    have hc : c ∈ (wiresFrom workflow ⟨node.id, route.1⟩).map Prod.snd := hports hroute ▸ hc
    have hc' : c ∈ (wiresFrom workflow ⟨node.id, other.1⟩).map Prod.snd := hports hother ▸ hc'
    obtain ⟨wire, hwire, rfl⟩ := List.mem_map.mp hc
    obtain ⟨wire', hwire', hchannel⟩ := List.mem_map.mp hc'
    obtain ⟨hwire, hsource⟩ := List.mem_filter.mp hwire
    obtain ⟨hwire', hsource'⟩ := List.mem_filter.mp hwire'
    obtain rfl := wire_unique hwire hwire' hchannel.symm
    have hsame := (of_decide_eq_true hsource).symm.trans (of_decide_eq_true hsource')
    exact hne (compare_eq_iff_eq.mpr (congrArg EdgeEndpoint.portId hsame))

/-- A node run as it is built for a node, where no contract is attached. -/
abbrev NativeBuilt (workflow : WorkflowDefinition) (execution : ExecutionMetadata)
    (node : NodeDefinition) (run : NodeRun CliNativeExecutor) : Prop :=
  Built workflow execution (nativeRegistryForWorkflow workflow).executorFor none node
    (wired workflow node) run

lemma executor_of_built (hnode : node ∈ workflow.nodes)
    (hbuilt : NativeBuilt workflow execution node run) :
    run.executor = nativeExecutor workflow node :=
  (Except.ok.inj ((executorFor_native hnode).symm.trans hbuilt.executor)).symm

lemma outputs_of_built (hbuilt : NativeBuilt workflow execution node run) :
    run.outputs = (wired workflow node).outputs := (Except.ok.inj hbuilt.outputs).symm

/-- **A node run that was built suits its executor.** -/
lemma suits_of_built (hnode : node ∈ workflow.nodes)
    (hbuilt : NativeBuilt workflow execution node run)
    (hshort : ¬ TooLong (nodeContext workflow execution node) (nativeExecutor workflow node)) :
    Suits run.context (run.givenInputs metadataSink) (run.givenOutputs metadataSink) run.executor := by
  have hexecutor := executor_of_built hnode hbuilt
  have houtputs := outputs_of_built hbuilt
  have hchannels : outputChannels (run.givenOutputs metadataSink) run.executor =
      outputChannels (wired workflow node).outputs (nativeExecutor workflow node) := by
    rw [hexecutor, ← houtputs]
    rfl
  constructor
  case hasInput =>
    intro portId hport
    rw [hexecutor] at hport
    rw [NodeRun.givenInputs, hbuilt.inputs]
    exact ⟨_, (wired_node workflow node).inputs portId hport⟩
  case hasOutput =>
    intro route hroute
    rw [hexecutor] at hroute
    rw [NodeRun.givenOutputs, houtputs]
    exact ⟨_, (wired_node workflow node).outputs _ (mem_outputRoutes.mp ⟨_, hroute⟩)⟩
  case apart =>
    rw [hchannels]
    exact outputChannels_nodup
  case validator =>
    rw [NodeRun.givenOutputs, houtputs]
    rfl
  case short =>
    rw [hbuilt.context, hexecutor]
    exact hshort

lemma finished_of_sent (hnode : node ∈ workflow.nodes)
    (hbuilt : NativeBuilt workflow execution node run) (future : Future) {g : Standing}
    (h : Sent (run.givenInputs metadataSink) (run.givenOutputs metadataSink) run.executor
      run.executor.outputRoutes.toList.length g) : g.Finished (run.networkNode future) := by
  have hexecutor := executor_of_built hnode hbuilt
  have houtputs := outputs_of_built hbuilt
  refine ⟨h.held, fun c hc => ?_, fun c hc => ?_⟩
  · obtain ⟨port, hport, hc⟩ := List.mem_flatMap.mp hc
    rw [houtputs] at hport
    obtain ⟨portId, hportId, rfl⟩ := List.mem_map.mp hport
    obtain ⟨targets, hroute⟩ := mem_outputRoutes.mpr hportId
    rw [h.sent, List.take_length, hexecutor]
    refine List.mem_flatMap.mpr ⟨_, hroute, ?_⟩
    rw [NodeRun.givenOutputs, houtputs]
    rw [PortsOut.channels, (wired_node workflow node).outputs portId hportId]
    exact hc
  · obtain ⟨port, hport, hc⟩ := List.mem_flatMap.mp hc
    rw [hbuilt.inputs] at hport
    obtain ⟨portId, hportId, rfl⟩ := List.mem_map.mp hport
    refine h.closed portId (by rw [hexecutor]; exact hportId) ?_
    rw [NodeRun.givenInputs, hbuilt.inputs, PortsIn.channels,
      (wired_node workflow node).inputs portId hportId]
    exact hc

/-- **A native node sends once**: it receives from all its channels to their end, sends into each
of its channels once, and returns without an error. -/
def nativeSendsOnce (hnode : node ∈ workflow.nodes)
    (hbuilt : NativeBuilt workflow execution node run)
    (hshort : ¬ TooLong (nodeContext workflow execution node) (nativeExecutor workflow node)) :
    SendsOnce (run.networkNode (nativeFuture metadataSink run)) where
  Good := Good (run.givenInputs metadataSink) (run.givenOutputs metadataSink) run.executor
  left := left run.executor (run.networkNode (nativeFuture metadataSink run)).receivers
  start := good_start
  turn awake _ _ hgood := turn_good (suits_of_built hnode hbuilt hshort)
    (fun _ _ hc => NodeRun.mem_receivers_of_channels _ hc)
    (fun _ _ hc => NodeRun.mem_senders_of_channels _ hc) hgood
  returns {s g result} hgood hresult := by
    obtain ⟨receivedCount, stage⟩ := s
    cases stage with
    | returned last =>
      obtain rfl : last = result := Option.some.inj hresult
      exact ⟨hgood.1, finished_of_sent hnode hbuilt _ hgood.2⟩
    | draining | preparing | sending => cases hresult

lemma native_built (workflow : WorkflowDefinition) (execution : ExecutionMetadata) (n : SliceLen) :
    ∃ w : World CliNativeExecutor,
      buildNodeRuns workflow execution (nativeRegistryForWorkflow workflow).executorFor none
        workflow.nodes (buildPortWiring workflow) (.fresh n) = (.ok (), w) := by
  cases hbuild : (buildNodeRuns workflow execution
      (nativeRegistryForWorkflow workflow).executorFor none workflow.nodes
      (buildPortWiring workflow) (.fresh n)).1 with
  | ok => exact ⟨_, Prod.ext hbuild rfl⟩
  | error err =>
    obtain ⟨node, hnode, hfailure⟩ := (buildNodeRuns_error _ _ _).2 err hbuild
    rcases hfailure with hexecutor | hcontracts
    · rw [executorFor_native hnode] at hexecutor
      cases hexecutor
    · cases hcontracts (wired workflow node).outputs

end Built

section Runs

/-- The node runs of a run under the native executors, as nodes of a network. -/
abbrev nativeNodes (metadataSink : Bool) (runs : List (NodeRun CliNativeExecutor)) :
    Fin runs.length → NetworkNode :=
  runNodes runs fun i => nativeFuture metadataSink (runs.get i)

/-- **Native runs never get stuck.** For a workflow whose graph is accepted and whose message ids
fit, every node gets a run; and in every state that any schedule can reach, whatever the capacities
of the edges, either all nodes are complete, or one that is not can run to its end while all others
stand still; no node has returned an error; and when all are complete, every edge has carried one
packet, which its target has received. -/
theorem native_runs_complete {m : Mpsc PortPacket} {senders : m.State → ℕ} (hm : m.Prompt senders)
    (workflow : WorkflowDefinition)
    (haccepted : WorkflowGraph.new workflow.nodes workflow.edges = .ok workflow.graph)
    (execution : ExecutionMetadata) (n : SliceLen)
    (hshort : ∀ node ∈ workflow.nodes, ¬ CliNativeExecutor.TooLong
      (nodeContext workflow execution node) (nativeExecutor workflow node)) :
    ∃ w : World CliNativeExecutor,
      buildNodeRuns workflow execution (nativeRegistryForWorkflow workflow).executorFor none
        workflow.nodes (buildPortWiring workflow) (.fresh n) = (.ok (), w) ∧
      ∀ (metadataSink : Bool) (capacity : ℕ → ℕ+)
        (s : Network m (nativeNodes metadataSink w.nodeRuns)),
        Relation.ReflTransGen Network.RunStep (Network.initial m _ fun c => capacity c) s →
        ((∀ i, s.Completed i) ∨
          ∃ i, ¬ s.Completed i ∧ ∃ s', Network.Drives .undisturbed i s s' ∧ s'.Completed i) ∧
        (∃ s', Relation.ReflTransGen (Network.Step .undisturbed) s s' ∧ ∀ i, s'.Completed i) ∧
        (∀ i result, s.Returned i result → result = .ok ()) ∧
        ((∀ i, s.Completed i) → ∀ wire ∈ wires workflow, ∃ packet,
          s.committed wire.2 = [packet] ∧ s.received wire.2 = [packet] ∧
          ∃ j, (w.nodeRuns.get j).context.nodeId = wire.1.target.nodeId ∧
            withKey wire.2 (s.accounts j).received = [packet]) := by
  obtain ⟨w, hbuild⟩ := native_built workflow execution n
  have hbuilt : List.Forall₂ (NativeBuilt workflow execution) workflow.nodes w.nodeRuns :=
    nodeRuns_built hbuild
  have hacceptable : Acceptable workflow.nodes workflow.edges :=
    (accepts_iff.mp ⟨_, haccepted⟩).1
  refine ⟨w, hbuild, fun metadataSink capacity s hs => ?_⟩
  have hpipes : Pipes (nativeNodes metadataSink w.nodeRuns) :=
    runNodes_pipes hbuilt hacceptable.acyclic _
  have hcapacity (c : ℕ) : 0 < (capacity c : ℕ) := (capacity c).pos
  have hconduct (i : Fin w.nodeRuns.length) :
      Nonempty (SendsOnce (nativeNodes metadataSink w.nodeRuns i)) := by
    obtain ⟨node, hnode, hrun⟩ := built_get hbuilt i
    have hmem := List.mem_of_getElem? hnode
    exact ⟨nativeSendsOnce hmem hrun (hshort node hmem)⟩
  have conduct := fun i => (hconduct i).some
  have hs := Network.reachable_of_run hm hpipes hcapacity conduct hs
  refine ⟨?_, ?_, fun i result hreturned => ?_, fun hall wire hwire => ?_⟩
  · exact Network.not_stuck hm hpipes hcapacity id id conduct hs
  · exact Network.can_complete hm hpipes hcapacity id id conduct hs
  · exact Network.returns_ok hm hpipes hcapacity id id conduct hs hreturned
  · obtain ⟨i, hi⟩ := sender_of_wire hbuilt
      (fun i => nativeFuture metadataSink (w.nodeRuns.get i)) hwire
    obtain ⟨j, htarget, hj⟩ := receiver_of_wire hbuilt
      (fun i => nativeFuture metadataSink (w.nodeRuns.get i)) hwire
    obtain ⟨packet, hcommitted, hreceived, htaken⟩ := Network.carried_once hm hpipes hcapacity id id
      conduct hs (fun i => (hall i).gone) hi hj
    exact ⟨packet, hcommitted, hreceived, j, htarget, htaken⟩

lemma edgeWorkflow_accepted :
    WorkflowGraph.new edgeWorkflow.nodes edgeWorkflow.edges = .ok edgeWorkflow.graph := by
  decide +kernel

lemma edgeWorkflow_short : ∀ node ∈ edgeWorkflow.nodes, ¬ CliNativeExecutor.TooLong
    (nodeContext edgeWorkflow edgeExecution node) (nativeExecutor edgeWorkflow node) := by
  have hroutes : ∀ node ∈ edgeWorkflow.nodes,
      (nativeExecutor edgeWorkflow node).outputRoutes.toList.length ≤ 1 ∧
        node.id.value.utf8ByteSize ≤ 1 ∧
        ∀ route ∈ (nativeExecutor edgeWorkflow node).outputRoutes.toList,
          route.1.value.utf8ByteSize ≤ 3 := by
    decide +kernel
  rintro node hnode ⟨outputIndex, route, hroute, hlong⟩
  obtain ⟨hlength, hnodeId, hports⟩ := hroutes node hnode
  have hport := hports route (List.mem_of_getElem? hroute)
  obtain ⟨hindex, -⟩ := List.getElem?_eq_some_iff.mp hroute
  obtain rfl : outputIndex = 0 := by omega
  have hzero : (toString 0).utf8ByteSize = 1 := by decide
  have hnode : (nodeContext edgeWorkflow edgeExecution node).nodeId = node.id := rfl
  rw [cliMessageId_size, hzero, hnode, maxIdentifierLen] at hlong
  omega

/-- A run of two nodes to its end: the edge between them has carried one packet. -/
theorem native_runs_complete_sample : ∃ (w : World CliNativeExecutor)
    (s : Network (.plain PortPacket) (nativeNodes false w.nodeRuns)),
    Relation.ReflTransGen (Network.Step .undisturbed) (Network.initial _ _ fun _ => 1) s ∧
      (∀ i, s.Completed i) ∧ ∃ packet, s.committed 0 = [packet] ∧ s.received 0 = [packet] := by
  obtain ⟨w, -, hruns⟩ := native_runs_complete (Mpsc.plain_prompt PortPacket) edgeWorkflow
    edgeWorkflow_accepted edgeExecution 2 edgeWorkflow_short
  obtain ⟨s, hsteps, hall⟩ := (hruns false (fun _ => 1) _ .refl).2.1
  have hrun : Relation.ReflTransGen Network.RunStep _ s :=
    Relation.ReflTransGen.mono (fun _ _ hstep => hstep.mono False.elim False.elim) _ _ hsteps
  obtain ⟨packet, hcommitted, hreceived, -⟩ :=
    (hruns false (fun _ => 1) s hrun).2.2.2 hall _ (List.mem_cons_self)
  exact ⟨w, s, hsteps, hall, packet, hcommitted, hreceived⟩

end Runs

end Pureflow.Cli
