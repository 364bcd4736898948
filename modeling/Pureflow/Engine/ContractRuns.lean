import Pureflow.Core.Guards
import Pureflow.Engine.Setup

/-!
Runs with output contracts attached: every packet on an edge is of the run, and says truly where
it comes from.

The outputs of every node have the validator of its contracts. Executors may clone them, hold
permits as long as they like and send in any order; the channels of an edge are only those of the
port it leaves, and what is sent on them has passed the validator of that port.
-/

namespace Pureflow.Engine

open Std Pureflow.Types Pureflow.Core Pureflow.Lib Pureflow.Lib.Grouping Pureflow.Workflow

variable {Executor : Type}

/-- A packet of the run that names the source of the edge, which has an output contract. -/
structure OfRun (workflow : WorkflowDefinition) (execution : ExecutionMetadata)
    (contracts : WorkflowOutputContracts) (edge : EdgeDefinition) (packet : PortPacket) :
    Prop where
  workflowId : packet.metadata.workflowId = workflow.id
  execution : packet.metadata.execution = execution
  source : packet.metadata.route.source = some ⟨edge.source.nodeId, edge.source.portId⟩
  contract : ∃ stored, contracts.outputContractsFor edge.source.nodeId = some stored ∧
    edge.source.portId ∈ stored

/-- Outputs that a node was given, or a clone of them; the sink and the context may be others. -/
def GivenOut (runs : List (NodeRun Executor)) (outputs : PortsOut) : Prop :=
  ∃ run ∈ runs, outputs.ports = run.outputs.ports ∧ outputs.validator = run.outputs.validator

lemma source_of_channel {workflow : WorkflowDefinition} {node : NodeDefinition} {portId : PortId}
    {channel : ℕ} {edge : EdgeDefinition}
    (h : channel ∈ (wired workflow node).outputs.channels portId)
    (hedge : workflow.edges[channel]? = some edge) : edge.source = ⟨node.id, portId⟩ := by
  obtain ⟨wire, hwire, hsource, rfl⟩ := wire_of_channel h
  have hget := List.mem_zipIdx_iff_getElem?.mp hwire
  rw [hedge, Option.some.injEq] at hget
  rw [hget, hsource]

lemma withOutputContracts_some {workflow : WorkflowDefinition} {execution : ExecutionMetadata}
    {contracts : WorkflowOutputContracts} {node : NodeDefinition} {outputs attached : PortsOut}
    (h : withOutputContracts workflow execution (some contracts) node outputs = .ok attached) :
    ∃ stored, contracts.outputContractsFor node.id = some stored ∧
      attached = { outputs with
        validator := some (ContractOutputValidator.mk workflow.id node.id execution
          stored).validate } := by
  simp only [withOutputContracts] at h
  cases hstored : contracts.outputContractsFor node.id with
  | none => simp [hstored] at h
  | some stored =>
    simp only [hstored, Except.ok.injEq] at h
    exact ⟨stored, rfl, h.symm⟩

lemma guards_of_contracts {workflow : WorkflowDefinition} {execution : ExecutionMetadata}
    {contracts : WorkflowOutputContracts} {node : NodeDefinition} {attached outputs : PortsOut}
    (hattached : withOutputContracts workflow execution (some contracts) node
      (wired workflow node).outputs = .ok attached)
    (hports : outputs.ports = attached.ports) (hvalidator : outputs.validator = attached.validator) :
    System.Guards (fun channel packet => ∀ edge, workflow.edges[channel]? = some edge →
      OfRun workflow execution contracts edge packet) outputs := by
  obtain ⟨stored, hstored, rfl⟩ := withOutputContracts_some hattached
  intro portId channel hchannel packet haccepts edge hedge
  have hsource : edge.source = ⟨node.id, portId⟩ := by
    refine source_of_channel ?_ hedge
    rwa [PortsOut.channels, hports] at hchannel
  obtain ⟨hport, hworkflow, hexecution, hroute⟩ :=
    (ContractOutputValidator.validate_eq_ok_iff _ _ _).mp (haccepts _ hvalidator)
  refine ⟨hworkflow, hexecution, ?_, stored, ?_, ?_⟩
  · rw [hsource]
    exact hroute
  · rw [hsource]
    exact hstored
  · rw [hsource]
    exact hport

/-- **Contract-run safety.** In every state of every run whose nodes send on the outputs they were
given, with output contracts attached:
every packet ever committed to an edge is of the run, names the source of the edge and leaves a
port with a contract, and what is queued or received was committed;
a send whose packet the validator rejects puts nothing on any channel, at no time, and gives back
the slots it reserved or was handed. -/
theorem contract_run_safe (workflow : WorkflowDefinition) (execution : ExecutionMetadata)
    (registry : NodeId → Except PureflowError Executor) (contracts : WorkflowOutputContracts)
    (n : SliceLen) (w : World Executor)
    (hsetup : buildNodeRuns workflow execution registry (some contracts) workflow.nodes
      (buildPortWiring workflow) (.fresh n) = (.ok (), w))
    (m : Mpsc PortPacket) (hm : m.Lawful) (capacity : ℕ → ℕ) (s : System m)
    (h : System.ReachableOn m (GivenOut w.nodeRuns) capacity s) :
    (∀ index edge, workflow.edges[index]? = some edge → ∀ packet ∈ s.committed index,
      OfRun workflow execution contracts edge packet) ∧
    (∀ index packet, packet ∈ (s.view index).queue ∨ packet ∈ s.received index →
      packet ∈ s.committed index) ∧
    (∀ r ∈ s.running, ¬ r.call.Accepted → r.account.committed = []) ∧
    (∀ r ∈ s.returned, ¬ r.call.Accepted →
      r.account.committed = [] ∧ ∀ c, System.netReserved r c = -r.call.holds.count c) := by
  have hbuilt := nodeRuns_built hsetup
  have hguards : ∀ outputs, GivenOut w.nodeRuns outputs →
      System.Guards (fun channel packet => ∀ edge, workflow.edges[channel]? = some edge →
        OfRun workflow execution contracts edge packet) outputs := by
    rintro outputs ⟨run, hrun, hports, hvalidator⟩
    obtain ⟨node, -, hnode⟩ := Result.exists_mem_left hbuilt hrun
    exact guards_of_contracts hnode.outputs hports hvalidator
  have hguarded := System.guarded_of_reachableOn hm hguards h
  have hinv := System.inv_of_reachable hm h.reachable
  obtain ⟨hrunning, hreturned⟩ := System.rejected_of_guarded hinv hguarded
  refine ⟨fun index edge hedge packet hpacket => hguarded.committed index packet hpacket edge hedge,
    fun index packet hpacket => (hinv.sound index).mem_committed hpacket, hrunning, hreturned⟩

section Sample

lemma edgeSource_valid :
    rejectDuplicatePorts ⟨"a", node_a_valid⟩ [] [⟨"out", port_out_valid⟩] = .ok () := by decide

lemma edgeTarget_valid :
    rejectDuplicatePorts ⟨"b", node_b_valid⟩ [⟨"in", port_in_valid⟩] [] = .ok () := by decide

def edgeSource : NodeDefinition :=
  ⟨⟨"a", node_a_valid⟩, [], [⟨"out", port_out_valid⟩], edgeSource_valid⟩

/-- Node `a` sends to node `b`. -/
def edgeWorkflow : WorkflowDefinition where
  id := ⟨"flow", workflow_flow_valid⟩
  graph := ⟨[edgeSource, ⟨⟨"b", node_b_valid⟩, [⟨"in", port_in_valid⟩], [], edgeTarget_valid⟩],
    [⟨⟨⟨"a", node_a_valid⟩, ⟨"out", port_out_valid⟩⟩,
       ⟨⟨"b", node_b_valid⟩, ⟨"in", port_in_valid⟩⟩, .default⟩],
    by decide +kernel⟩

/-- The output of `a` has a contract without a schema. -/
def edgeStored : ExtTreeMap PortId (Option Contract.SchemaRef) :=
  ofEntries [(⟨"out", port_out_valid⟩, none)]

def edgeContracts : WorkflowOutputContracts :=
  ⟨ofEntries [(⟨"a", node_a_valid⟩, edgeStored), (⟨"b", node_b_valid⟩, ∅)]⟩

def edgeExecution : ExecutionMetadata := .firstAttempt ⟨"run-1", execution_run_valid⟩

/-- A packet of the run that leaves `a`. -/
def edgePacket : PortPacket where
  metadata :=
    { messageId := ⟨"m1", message_m1_valid⟩
      workflowId := ⟨"flow", workflow_flow_valid⟩
      execution := edgeExecution
      route := ⟨some ⟨⟨"a", node_a_valid⟩, ⟨"out", port_out_valid⟩⟩,
        ⟨⟨"b", node_b_valid⟩, ⟨"in", port_in_valid⟩⟩⟩ }
  payload := .bytes [1]

def edgeValidator : ContractOutputValidator :=
  ⟨edgeWorkflow.id, edgeSource.id, edgeExecution, edgeStored⟩

/-- The outputs of `a`. -/
def edgeOutputs : PortsOut :=
  ⟨[⟨"out", port_out_valid⟩], [⟨⟨"out", port_out_valid⟩, [⟨0, 1⟩]⟩], false,
    some edgeValidator.validate, none⟩

lemma edgePacket_accepted : edgeValidator.validate ⟨"out", by decide⟩ edgePacket = .ok () := by
  rw [ContractOutputValidator.validate_eq_ok_iff]
  refine ⟨?_, rfl, rfl, rfl⟩
  rw [← ExtTreeMap.isSome_getElem?_iff_mem]
  decide +kernel

/-- The permit that a reservation on the outputs returns. -/
def edgePermit : OutputPortSendPermit :=
  ⟨⟨"out", port_out_valid⟩, [0], false, some edgeValidator.validate, none, 1, some 1⟩

lemma edgePermit_send :
    edgePermit.send edgePacket = .call (.permitSend 0 edgePacket) fun _ => .ret (.ok ()) := by
  have hvalid : edgePermit.validate edgePacket = .ok () := edgePacket_accepted
  simp only [OutputPortSendPermit.send, hvalid]
  rfl

/-- The send of the packet, from its start to its commit. -/
lemma edge_reachable {given : PortsOut → Prop} (hgiven : given edgeOutputs) :
    ∃ s : System (.plain PortPacket), System.ReachableOn _ given (fun _ => 1) s ∧
      s.committed 0 = [edgePacket] := by
  let call : PortCall := .trySend edgeOutputs ⟨"out", by decide⟩ edgePacket
  obtain ⟨k, hfirst, hk⟩ : ∃ k, call.first = .call (.tryReserve 0) k ∧ k (.ok ()) =
      .call (.permitSend 0 edgePacket) fun _ => .ret (.ready (.sent (.ok ()))) := by
    refine ⟨_, rfl, ?_⟩
    exact congrArg (fun p : PortM (Except PortSendError Unit) =>
      p >>= fun r => .ret (Poll.ready (PortResult.sent r))) edgePermit_send
  have hcalls {p : PortM (Poll PortResult)} {g : Account} :
      ∀ r ∈ [(⟨call, p, g⟩ : Core.Running)], ∀ outputs ∈ r.call.outputs?, given outputs := by
    intro r hr outputs houtputs
    obtain rfl := List.mem_singleton.mp hr
    cases houtputs
    exact hgiven
  have hstart : System.ReachableOn (.plain PortPacket) given (fun _ => 1) _ :=
    .tail .refl ⟨.start call (List.Perm.refl []), hcalls⟩
  rw [hfirst] at hstart
  have hreserve : System.ReachableOn (.plain PortPacket) given (fun _ => 1) _ :=
    .tail hstart ⟨.advance (List.nil_append _).symm (.tryReserve rfl), hcalls⟩
  rw [hk] at hreserve
  exact ⟨_, .tail hreserve ⟨.advance (List.nil_append _).symm (.permitSend rfl), hcalls⟩, rfl⟩

/-- These are the outputs that node `a` is given. -/
lemma edgeOutputs_given {registry : NodeId → Except PureflowError Executor}
    {runs : List (NodeRun Executor)}
    (h : List.Forall₂ (fun node run => Built edgeWorkflow edgeExecution registry
      (some edgeContracts) node (wired edgeWorkflow node) run) edgeWorkflow.nodes runs) :
    GivenOut runs edgeOutputs := by
  have hcontracts : edgeContracts.outputContractsFor edgeSource.id = some edgeStored := by
    rw [WorkflowOutputContracts.outputContractsFor, edgeContracts, ofEntries_eq_some_iff]
    · exact List.mem_cons_self
    · decide
  have hports : (wired edgeWorkflow edgeSource).outputs.ports = edgeOutputs.ports := by
    decide +kernel
  cases h with
  | cons hnode hrest =>
    obtain ⟨stored, hstored, houtputs⟩ := withOutputContracts_some hnode.outputs
    cases hcontracts.symm.trans hstored
    refine ⟨_, List.mem_cons_self, ?_, ?_⟩
    · rw [houtputs]
      exact hports.symm
    · rw [houtputs]
      rfl

theorem contract_run_safe_sample : ∃ w : World Unit,
    buildNodeRuns edgeWorkflow edgeExecution (fun _ => .ok ()) (some edgeContracts)
      edgeWorkflow.nodes (buildPortWiring edgeWorkflow) (.fresh 2) = (.ok (), w) ∧
    ∃ s : System (.plain PortPacket),
      System.ReachableOn _ (GivenOut w.nodeRuns) (fun _ => 1) s ∧ s.committed 0 = [edgePacket] ∧
      ∀ edge, edgeWorkflow.edges[0]? = some edge →
        OfRun edgeWorkflow edgeExecution edgeContracts edge edgePacket := by
  have hsetup : (buildNodeRuns edgeWorkflow edgeExecution (fun _ => .ok ())
      (some edgeContracts) edgeWorkflow.nodes (buildPortWiring edgeWorkflow)
      (World.fresh 2 : World Unit)).1 = .ok () := by
    decide +kernel
  let w : World Unit := (buildNodeRuns edgeWorkflow edgeExecution (fun _ => .ok ())
    (some edgeContracts) edgeWorkflow.nodes (buildPortWiring edgeWorkflow) (.fresh 2)).2
  have hbuild : buildNodeRuns edgeWorkflow edgeExecution (fun _ => .ok ()) (some edgeContracts)
      edgeWorkflow.nodes (buildPortWiring edgeWorkflow) (.fresh 2) = (.ok (), w) :=
    Prod.ext hsetup rfl
  have hgiven : GivenOut w.nodeRuns edgeOutputs := edgeOutputs_given (nodeRuns_built hbuild)
  obtain ⟨s, hs, hcommitted⟩ := edge_reachable hgiven
  refine ⟨w, hbuild, s, hs, hcommitted, fun edge hedge => ?_⟩
  have hsafe := (contract_run_safe edgeWorkflow edgeExecution _ edgeContracts 2 w hbuild
    (.plain PortPacket) (Mpsc.plain_lawful PortPacket) (fun _ => 1) s hs).1
  exact hsafe 0 edge hedge edgePacket (by rw [hcommitted]; exact List.mem_cons_self)

end Sample

end Pureflow.Engine
