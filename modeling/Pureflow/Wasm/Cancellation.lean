import Pureflow.Engine.Lifecycle
import Pureflow.Rules.Drain
import Pureflow.Wasm.RuleNode

/-!
What becomes of a cancellation that reaches a rule node in a send or in its guest.

The port and the guest call report it as a cancellation. The rule node wraps both in an execution
error, and from there on the runtime and the summary see a failure.
-/

namespace Pureflow.Wasm

open Std Pureflow.Types Pureflow.Core Pureflow.Lib Pureflow.Rules Pureflow.Engine
  Pureflow.Runtime Pureflow.Workflow

section Ends

variable {setting : Setting} {n : SliceLen} {schedule : List Action} {e e' : Execution}
  {index : ℕ} {result : Except PureflowError Unit}

lemma finish_counted (hids : (setting.nodes.map NodeContext.nodeId).Nodup)
    (hn : setting.nodes.length = n) (ho : Accept setting.observers)
    (h : Reaches (Execution.next setting) (.fresh n) schedule e)
    (hnext : e.next setting (.finish index result) = some e') :
    (∃ ctx, setting.nodes[index]? = some ctx ∧
      lifecycleOf ctx.nodeId e'.journal.records = [.nodeStarted, terminalKind result]) ∧
    ∀ kind, countOf e'.loop.summary kind =
      countOf e.loop.summary kind + if kind = terminalKind result then 1 else 0 := by
  have hagrees := agrees_of_reaches hids hn ho h
  have hcases := execution_next_cases ho hnext
  have hagrees' := agrees_next hids hagrees hcases
  obtain ⟨events, hacc⟩ := hagrees.accounted
  cases hcases with
  | @finished _ ctx _ loop more hctx hphase hloop hmore =>
    refine ⟨⟨ctx, hctx, ?_⟩, countOf_next hacc hloop⟩
    have hindex : index < e.phases.length := (List.getElem?_eq_some_iff.mp hphase).1
    exact hagrees'.lifecycle index ctx (.ended result) hctx (by simp [hindex])
  | other hstart hfinish => exact absurd rfl (hfinish index result)

end Ends

section Stops

variable (node : RuleExecutor) (ctx : NodeContext) (inputs : PortsIn) (outputs : PortsOut)

/-- A turn from this state, with these answers, stops the node because its send returned
`Cancelled`, or because the evaluation in its guest returned a cancellation. -/
inductive StopsCancelled : LoopState → List PortEvent → Prop
  | send {counter : UInt64} {send : PendingSend} {events : List PortEvent} {portId : PortId} :
    (outputs.send send.portId send.packet).Yields events (.ready (.error (.cancelled portId))) →
    StopsCancelled (counter, .sending send) events
  | evaluation {wasm : WasmRuleNode} {counter : UInt64} {polled : Bool} {packet : PortPacket}
      {before after : List PortEvent} {reason : String} :
    node = .wasm wasm →
    (RuleNode.pollInput inputs polled).Yields before (.ready (.ok (some packet))) →
    (wasm.component.evaluateWithCancellation wasm.request wasm.ruleSet
      (buildHostContext ctx packet)).Yields after (.error (.cancellation reason)) →
    StopsCancelled (counter, .receiving polled) (before ++ after)

variable {node : RuleExecutor} {ctx : NodeContext} {inputs : PortsIn} {outputs : PortsOut}
  {s s' : LoopState} {events : List PortEvent}

/-- A failed send is an execution error, whatever failed. -/
lemma pendingSend_error (send : PendingSend) (err : PortSendError) :
    ∃ message, send.error err = .execution message := by
  unfold PendingSend.error
  split
  · exact ⟨_, rfl⟩
  · exact ⟨_, rfl⟩

/-- **A cancelled turn ends in an execution error.** -/
lemma execution_of_stopsCancelled (hstops : StopsCancelled node ctx inputs outputs s events)
    (hturn : ((node.loop ctx).step inputs outputs s).Yields events s') :
    ∃ message, s'.2 = .returned (.error (.execution message)) := by
  cases hstops with
  | @send counter send _ portId hsend =>
    cases RuleLoop.step_cases hturn with
    | send hpoll =>
      obtain rfl := hpoll.unique hsend
      obtain ⟨message, hmessage⟩ := pendingSend_error send (.cancelled portId)
      exact ⟨message, by rw [RuleLoop.afterSend, hmessage]⟩
  | @evaluation wasm counter polled packet before after reason hnode hpoll hevaluation =>
    subst hnode
    have hprocess : (wasm.process ctx counter packet).Yields (after ++ []) (counter,
        .returned (.error (.execution
          s!"wasm rule evaluation error: {PureflowError.cancellation reason}"))) :=
      hevaluation.bind .ret
    rw [List.append_nil] at hprocess
    have hstep : ((RuleExecutor.wasm wasm).loop ctx |>.step inputs outputs
        (counter, .receiving polled)).Yields (before ++ after) _ := hpoll.bind hprocess
    obtain rfl := hturn.unique hstep
    exact ⟨_, rfl⟩

end Stops

section Results

/-- The result is a cancellation. -/
def IsCancellation (result : Except PureflowError Unit) : Prop :=
  ∃ reason, result = .error (.cancellation reason)

/-- **A cancelled rule node is reported as failed.** In every run of a rule node of either kind
that stops because a send was cancelled or because the evaluation in its guest was, the result is
an execution error. Wherever a node run of an execution ends with that result its lifecycle ends
in `NodeFailed`, and the summary counts it as failed and not as cancelled. -/
theorem cancelled_rule_node_fails (node : RuleExecutor) (ctx : NodeContext) (inputs : PortsIn)
    (outputs : PortsOut) (start : UInt64) (turns : List (Prog.Turn PortOp.Answer LoopState))
    (s s' : LoopState) (events : List PortEvent)
    (hrun : (node.loop ctx).Runs inputs outputs start (turns ++ [⟨s, events, s'⟩]) s')
    (hstops : StopsCancelled node ctx inputs outputs s events) :
    ∃ result, s'.2 = .returned result ∧ ¬ IsCancellation result ∧
    ∀ (workflow : WorkflowDefinition) (execution : ExecutionMetadata) (policy : WorkflowRunPolicy)
      (observers : Observers) (n : SliceLen) (schedule : List Action) (e e' : Execution)
      (index : ℕ), workflow.nodes.length = n → Accept observers →
      Reaches (Execution.next (.of workflow execution policy observers)) (.fresh n) schedule e →
      e.next (.of workflow execution policy observers) (.finish index result) = some e' →
      (∃ node, workflow.nodes[index]? = some node ∧
        lifecycleOf node.id e'.journal.records = [.nodeStarted, .nodeFailed]) ∧
      e'.loop.summary.failedNodeCount = e.loop.summary.failedNodeCount + 1 ∧
      e'.loop.summary.cancelledNodeCount = e.loop.summary.cancelledNodeCount := by
  obtain ⟨message, hmessage⟩ := execution_of_stopsCancelled hstops hrun.last.2.1
  refine ⟨_, hmessage, by rintro ⟨reason, ⟨⟩⟩, ?_⟩
  intro workflow execution policy observers n schedule e e' index hn ho h hnext
  have hids : ((Setting.of workflow execution policy observers).nodes.map
      NodeContext.nodeId).Nodup := by
    rw [Setting.of, List.map_map]
    exact (graph_valid workflow).1
  have hlen : (Setting.of workflow execution policy observers).nodes.length = n := by
    rw [Setting.of, List.length_map, hn]
  obtain ⟨⟨nodeCtx, hctx, hlifecycle⟩, hcount⟩ := finish_counted hids hlen ho h hnext
  refine ⟨?_, hcount .nodeFailed, hcount .nodeCancelled⟩
  rw [Setting.of, List.getElem?_map, Option.map_eq_some_iff] at hctx
  obtain ⟨node, hnode, rfl⟩ := hctx
  exact ⟨node, hnode, hlifecycle⟩

section Sample

open RuleNode

/-- The node receives a packet that it routes, and cancellation is requested before its send is
first polled. -/
lemma cancelled_run : ∃ turns s events s',
    ((RuleExecutor.native sampleNode).loop RuleNode.sampleContext).Runs sampleInputs sampleOutputs 0
      (turns ++ [⟨s, events, s'⟩]) s' ∧
    StopsCancelled (.native sampleNode) RuleNode.sampleContext sampleInputs sampleOutputs s
      events := by
  let loop := (RuleExecutor.native sampleNode).loop RuleNode.sampleContext
  obtain ⟨forwarded, hforwarded⟩ :=
    forwardPacket_ok
      (show (mintedId RuleNode.sampleContext ⟨"out", by decide⟩ 0).utf8ByteSize ≤ _ by decide)
      System.samplePacket
  let send : PendingSend := ⟨⟨"out", by decide⟩, forwarded, none⟩
  have haction : executeAction (.route ⟨"out", by decide⟩) RuleNode.sampleContext 0
      System.samplePacket = .sending send := by
    rw [executeAction, startSend, hforwarded]
  have hreceive : (loop.step sampleInputs sampleOutputs (0, .receiving false)).Yields
      [⟨.isCancelled, false⟩, ⟨.pollRecv 0, .ready (.ok System.samplePacket)⟩]
      (1, executeAction (.route ⟨"out", by decide⟩) RuleNode.sampleContext 0 System.samplePacket) :=
    .call (.call .ret)
  rw [haction] at hreceive
  have hpoll : (sampleOutputs.send send.portId send.packet).Yields
      [⟨.isCancelled, true⟩] (.ready (.error (.cancelled send.portId))) := .call .ret
  have hsend : (loop.step sampleInputs sampleOutputs (1, .sending send)).Yields
      [⟨.isCancelled, true⟩] (1, .returned (.error (send.error (.cancelled send.portId)))) :=
    hpoll.bind .ret
  exact ⟨_, _, _, _, .turn (.turn .refl hreceive) hsend, .send hpoll⟩

theorem cancelled_rule_node_fails_sample : ∃ turns s events s',
    ((RuleExecutor.native sampleNode).loop RuleNode.sampleContext).Runs sampleInputs sampleOutputs 0
      (turns ++ [⟨s, events, s'⟩]) s' ∧
    StopsCancelled (.native sampleNode) RuleNode.sampleContext sampleInputs sampleOutputs s events ∧
    ∃ result, s'.2 = .returned result ∧ ¬ IsCancellation result := by
  obtain ⟨turns, s, events, s', hrun, hstops⟩ := cancelled_run
  obtain ⟨result, hresult, hnot, -⟩ := cancelled_rule_node_fails _ _ _ _ _ _ _ _ _ hrun hstops
  exact ⟨turns, s, events, s', hrun, hstops, result, hresult, hnot⟩

/-- **Not every cancelled run is reported as cancelled.** -/
theorem cancelled_send_is_execution_error : ¬ ∀ (node : RuleExecutor) (ctx : NodeContext)
    (inputs : PortsIn) (outputs : PortsOut) (start : UInt64)
    (turns : List (Prog.Turn PortOp.Answer LoopState)) (s s' : LoopState)
    (events : List PortEvent),
    (node.loop ctx).Runs inputs outputs start (turns ++ [⟨s, events, s'⟩]) s' →
    StopsCancelled node ctx inputs outputs s events →
    ∃ result, s'.2 = .returned result ∧ IsCancellation result := by
  intro hall
  obtain ⟨turns, s, events, s', hrun, hstops⟩ := cancelled_run
  obtain ⟨result, hresult, reason, hreason⟩ := hall _ _ _ _ _ _ _ _ _ hrun hstops
  obtain ⟨message, hmessage⟩ := execution_of_stopsCancelled hstops hrun.last.2.1
  rw [hresult, hreason] at hmessage
  cases hmessage

end Sample

end Results

end Pureflow.Wasm
