import Pureflow.Contract.RuleSets
import Pureflow.Engine.RunNetwork
import Pureflow.Wasm.RuleFuture

/-!
Where a rule node believes a packet comes from that another rule node sent.

A rule node forwards a packet with a route from its output port to the same output port. The node
at the other end of the edge reads the arrival port off this route, so it takes the sender's port
for its own.
-/

namespace Pureflow.Wasm

open Pureflow.Types Pureflow.Core Pureflow.Lib Pureflow.Workflow Pureflow.Contract
  Pureflow.Rules Pureflow.Engine

/-- What the executor of a node does with its ports: it is a rule node, or something else that
keeps to the ports it is given. -/
inductive Behaviour (ctx : NodeContext) (inputs : PortsIn) (outputs : PortsOut)
  | rule (node : RuleExecutor) (start : UInt64)
  | other (future : Future) (good : future.Stage → Prop)
      (keeps : future.Keeps (Owns inputs outputs) good)

namespace Behaviour

variable {ctx : NodeContext} {inputs : PortsIn} {outputs : PortsOut}

def future : Behaviour ctx inputs outputs → Future
  | .rule node start => node.future ctx inputs outputs start
  | .other future _ _ => future

def IsRule (b : Behaviour ctx inputs outputs) : Prop := ∃ node start, b = .rule node start

/-- The calls it makes. -/
def calls : Behaviour ctx inputs outputs → PortOp → Prop
  | .rule _ _ => RuleCalls ctx inputs outputs
  | .other _ _ _ => Owns inputs outputs

lemma keeps (b : Behaviour ctx inputs outputs) : ∃ good, b.future.Keeps b.calls good := by
  cases b with
  | rule node start => exact ⟨_, node.keeps ctx inputs outputs start⟩
  | other future good keeps => exact ⟨good, keeps⟩

lemma owns_of_calls {b : Behaviour ctx inputs outputs} {op : PortOp} (h : b.calls op) :
    Owns inputs outputs op := by
  cases b with
  | rule node start =>
    cases op with
    | permitSend c packet =>
      obtain ⟨-, portId, -, -, hc, -⟩ := h
      exact ⟨portId, hc⟩
    | tryRecv c | pollRecv c => exact ⟨inPort, h⟩
    | _ => exact h
  | other future good keeps => exact h

end Behaviour

/-- A node of either kind evaluates the packet as one of this node that arrived on this port. -/
structure EvaluatedFrom (ctx : NodeContext) (packet : PortPacket) (nodeId : NodeId)
    (portId : PortId) : Prop where
  sourceNode : (evalContext ctx packet).sourceNode = some nodeId
  arrivalPort : (evalContext ctx packet).arrivalPort = some portId
  hostSource : (buildHostContext ctx packet).sourceNode = some (toString nodeId)
  hostArrival : (buildHostContext ctx packet).arrivalPort = some (toString portId)

/-- A forwarded packet is evaluated as one that arrived on the port it was sent from. -/
lemma evaluatedFrom_forwarded {sender receiver : NodeContext} {portId : PortId} {seq : UInt64}
    {incoming packet : PortPacket} (h : forwardPacket sender portId seq incoming = .ok packet) :
    EvaluatedFrom receiver packet sender.nodeId portId := by
  have hroute : packet.metadata.route =
      ⟨some ⟨sender.nodeId, portId⟩, ⟨sender.nodeId, portId⟩⟩ := by
    unfold forwardPacket at h
    split at h
    · cases h
    · cases h
      rfl
  constructor <;> simp [evalContext, buildHostContext, hroute]

section Chained

variable {Executor : Type} {workflow : WorkflowDefinition} {execution : ExecutionMetadata}
  {registry : NodeId → Except PureflowError Executor}
  {outputContracts : Option WorkflowOutputContracts} {runs : List (NodeRun Executor)}
  {metadataSink : Bool}

/-- A packet that a rule node received from a rule node: it is a copy made for the port it left,
which is not the port it came in at. -/
lemma forwarded_of_received
    (hbuilt : List.Forall₂ (fun node run =>
      Built workflow execution registry outputContracts node (wired workflow node) run)
      workflow.nodes runs)
    (behaviour : (i : Fin runs.length) → Behaviour (runs.get i).context
      ((runs.get i).givenInputs metadataSink) ((runs.get i).givenOutputs metadataSink))
    {m : Mpsc PortPacket} (hm : m.Lawful) {regime : Regime} {capacity : ℕ → ℕ}
    {s : Network m (runNodes runs fun i => (behaviour i).future)}
    (hs : Network.Reachable regime capacity s) {wire : Wire} (hwire : wire ∈ wires workflow)
    {a b : Fin runs.length} (ha : (runs.get a).context.nodeId = wire.1.source.nodeId)
    (hb : (runs.get b).context.nodeId = wire.1.target.nodeId) (hrulea : (behaviour a).IsRule)
    (hruleb : (behaviour b).IsRule) {packet : PortPacket} (hpacket : packet ∈ s.received wire.2) :
    (∃ seq incoming, forwardPacket (runs.get a).context wire.1.source.portId seq incoming =
      .ok packet) ∧ wire.1.source.portId ≠ wire.1.target.portId := by
  choose good hkeeps using fun i => (behaviour i).keeps
  have hkept := Network.kept_of_reachable hkeeps hs
  have hcommitted : packet ∈ s.committed wire.2 :=
    ((Network.inv_of_reachable hm hs).sound wire.2).received_isPrefix.subset hpacket
  -- who committed it
  obtain ⟨i, hi⟩ := hkept.committed _ _ hcommitted
  obtain ⟨portId, hport⟩ := Behaviour.owns_of_calls hi
  have hsource := source_of_given hbuilt hwire hport
  obtain rfl : i = a := index_unique hbuilt (by rw [ha, hsource])
  obtain ⟨node, start, hrule⟩ := hrulea
  rw [hrule] at hi
  obtain ⟨hin, sent, seq, incoming, hsent, hforward⟩ := hi
  have hsource := source_of_given hbuilt hwire hsent
  -- who received it
  have hreceiver : ∃ j, ∃ portId, wire.1.target = ⟨(runs.get j).context.nodeId, portId⟩ ∧
      ((behaviour j).IsRule → portId = inPort) := by
    obtain ⟨j, hj⟩ := hkept.received _ _ hpacket
    have howned : ∃ portId, wire.2 ∈ ((runs.get j).givenInputs metadataSink).channels portId := by
      rcases hj with hj | hj
      · exact Behaviour.owns_of_calls hj
      · exact Behaviour.owns_of_calls hj
    obtain ⟨portId, hportId⟩ := howned
    refine ⟨j, portId, target_of_given hbuilt hwire hportId, ?_⟩
    rintro ⟨node, start, hrule⟩
    have hmem : wire.2 ∈ ((runs.get j).givenInputs metadataSink).channels inPort := by
      rw [hrule] at hj
      rcases hj with hj | hj <;> exact hj
    have hsame := (target_of_given hbuilt hwire hportId).symm.trans
      (target_of_given hbuilt hwire hmem)
    exact congrArg EdgeEndpoint.portId hsame
  obtain ⟨j, portId', htarget, hinPort⟩ := hreceiver
  obtain rfl : j = b := index_unique hbuilt (by rw [hb, htarget])
  obtain rfl := hinPort hruleb
  rw [hsource, htarget]
  refine ⟨⟨seq, incoming, hforward⟩, ?_⟩
  -- a node does not declare `in` on both sides
  obtain ⟨declared, -, hdeclared⟩ := built_get hbuilt i
  have hinputs : inPort ∈ declared.inputPorts := by
    have hids : ((runs.get i).givenInputs metadataSink).ports.map (·.portId) =
        declared.inputPorts := by
      show (runs.get i).inputs.ports.map _ = _
      rw [hdeclared.inputs, wired, List.map_map]
      exact List.map_id _
    rwa [← hids]
  have houtputs : sent ∈ declared.outputPorts := by
    have hchannel : wire.2 ∈ (wired workflow declared).outputs.channels sent := by
      rw [PortsOut.channels, ← withOutputContracts_ports hdeclared.outputs]
      exact hsent
    exact declared_of_channel hchannel
  rintro rfl
  exact (List.nodup_append.mp (ports_nodup declared)).2.2 _ hinputs _ houtputs rfl

/-- **The arrival port of a chained packet is the sender's port.** In every run, a packet that a
rule node receives from a rule node is evaluated as one of its sender, but never as one that
arrived on the port it came in at: a condition on this port passes the validation of the rule set
and does not hold. -/
theorem chained_arrival_port (workflow : WorkflowDefinition) (execution : ExecutionMetadata)
    (registry : NodeId → Except PureflowError Executor)
    (outputContracts : Option WorkflowOutputContracts) (n : SliceLen) (w : World Executor)
    (hbuild : buildNodeRuns workflow execution registry outputContracts workflow.nodes
      (buildPortWiring workflow) (.fresh n) = (.ok (), w))
    (metadataSink : Bool)
    (behaviour : (i : Fin w.nodeRuns.length) → Behaviour (w.nodeRuns.get i).context
      ((w.nodeRuns.get i).givenInputs metadataSink) ((w.nodeRuns.get i).givenOutputs metadataSink))
    (m : Mpsc PortPacket) (hm : m.Lawful) (regime : Regime) (capacity : ℕ → ℕ)
    (s : Network m (runNodes w.nodeRuns fun i => (behaviour i).future))
    (hs : Network.Reachable regime capacity s) (wire : Wire) (hwire : wire ∈ wires workflow)
    (a b : Fin w.nodeRuns.length)
    (ha : (w.nodeRuns.get a).context.nodeId = wire.1.source.nodeId)
    (hb : (w.nodeRuns.get b).context.nodeId = wire.1.target.nodeId)
    (hrulea : (behaviour a).IsRule) (hruleb : (behaviour b).IsRule)
    (packet : PortPacket) (hpacket : packet ∈ s.received wire.2) :
    let ctx := (w.nodeRuns.get b).context
    EvaluatedFrom ctx packet wire.1.source.nodeId wire.1.source.portId ∧
    ¬ EvaluatedFrom ctx packet wire.1.source.nodeId wire.1.target.portId ∧
    evalCondition packet.payload (evalContext ctx packet) (.arrivedOnPort wire.1.target.portId) =
      false ∧
    ∀ host ∈ workflow.nodes, host.id = wire.1.target.nodeId → ∀ ruleSet rule,
      validateArrivalPort host ruleSet rule wire.1.target.portId = [] := by
  obtain ⟨⟨seq, incoming, hforward⟩, hne⟩ := forwarded_of_received (nodeRuns_built hbuild)
    behaviour hm hs hwire ha hb hrulea hruleb hpacket
  have hfrom : EvaluatedFrom (w.nodeRuns.get b).context packet wire.1.source.nodeId
      wire.1.source.portId := by
    rw [← ha]
    exact evaluatedFrom_forwarded hforward
  refine ⟨hfrom, fun h => ?_, ?_, fun host hhost hid ruleSet rule => ?_⟩
  · exact hne (Option.some.inj (hfrom.arrivalPort.symm.trans h.arrivalPort))
  · rw [evalCondition, hfrom.arrivalPort]
    simpa using hne
  · obtain ⟨hnodes, hdeclared⟩ := graph_valid workflow
    obtain ⟨target, htarget, htargetId, hport⟩ := (hdeclared _ (mem_wires hwire)).2
    obtain rfl : host = target :=
      List.inj_on_of_nodup_map hnodes hhost htarget (hid.trans htargetId.symm)
    rw [validateArrivalPort, if_neg (not_not.mpr hport)]

end Chained

section Sample

def outPort : PortId := ⟨"out", port_out_valid⟩

def startNode : NodeDefinition := ⟨⟨"s", by decide⟩, [], [outPort], by decide⟩

def firstNode : NodeDefinition := ⟨⟨"a", node_a_valid⟩, [inPort], [outPort], by decide⟩

def secondNode : NodeDefinition := ⟨⟨"b", node_b_valid⟩, [inPort], [], by decide⟩

/-- Node `s` sends to the rule node `a`, which sends to the rule node `b`. -/
def chainWorkflow : WorkflowDefinition where
  id := ⟨"flow", workflow_flow_valid⟩
  graph := ⟨[startNode, firstNode, secondNode],
    [⟨⟨startNode.id, outPort⟩, ⟨firstNode.id, inPort⟩, .default⟩,
      ⟨⟨firstNode.id, outPort⟩, ⟨secondNode.id, inPort⟩, .default⟩],
    by decide +kernel⟩

def chainRun (node : NodeDefinition) (inputs : List InputPortHandle)
    (outputs : List OutputPortHandle) : NodeRun Unit where
  executor := ()
  context := nodeContext chainWorkflow edgeExecution node
  inputs := ⟨node.inputPorts, inputs, false, none⟩
  outputs := ⟨node.outputPorts, outputs, false, none, none⟩

def chainRuns : List (NodeRun Unit) :=
  [chainRun startNode [] [⟨outPort, [⟨0, 1⟩]⟩],
    chainRun firstNode [⟨inPort, [⟨0, 1⟩]⟩] [⟨outPort, [⟨1, 1⟩]⟩],
    chainRun secondNode [⟨inPort, [⟨1, 1⟩]⟩] []]

abbrev startRun : Fin chainRuns.length := ⟨0, by decide⟩

abbrev firstRun : Fin chainRuns.length := ⟨1, by decide⟩

abbrev secondRun : Fin chainRuns.length := ⟨2, by decide⟩

lemma run_of_built {node : NodeDefinition} {inputs : List InputPortHandle}
    {outputs : List OutputPortHandle} {run : NodeRun Unit}
    (h : Built chainWorkflow edgeExecution (fun _ => .ok ()) none node (wired chainWorkflow node)
      run)
    (hinputs : (wired chainWorkflow node).inputs.ports = inputs)
    (houtputs : (wired chainWorkflow node).outputs.ports = outputs) :
    run = chainRun node inputs outputs := by
  obtain ⟨executor, context, ins, outs⟩ := run
  obtain ⟨hexecutor, hcontext, hins, houts⟩ := h
  cases houts
  simp only at hcontext hins
  rw [hcontext, hins, chainRun, ← hinputs, ← houtputs]
  rfl

lemma wired_start : (wired chainWorkflow startNode).inputs.ports = [] ∧
    (wired chainWorkflow startNode).outputs.ports = [⟨outPort, [⟨0, 1⟩]⟩] := by
  decide +kernel

lemma wired_first : (wired chainWorkflow firstNode).inputs.ports = [⟨inPort, [⟨0, 1⟩]⟩] ∧
    (wired chainWorkflow firstNode).outputs.ports = [⟨outPort, [⟨1, 1⟩]⟩] := by
  decide +kernel

lemma wired_second : (wired chainWorkflow secondNode).inputs.ports = [⟨inPort, [⟨1, 1⟩]⟩] ∧
    (wired chainWorkflow secondNode).outputs.ports = [] := by
  decide +kernel

lemma chain_built : ∃ w : World Unit,
    buildNodeRuns chainWorkflow edgeExecution (fun _ => .ok ()) none chainWorkflow.nodes
      (buildPortWiring chainWorkflow) (.fresh 3) = (.ok (), w) ∧ w.nodeRuns = chainRuns := by
  have hsetup : (buildNodeRuns chainWorkflow edgeExecution (fun _ => .ok ()) none
      chainWorkflow.nodes (buildPortWiring chainWorkflow) (World.fresh 3 : World Unit)).1 =
        .ok () := by
    decide +kernel
  refine ⟨_, Prod.ext hsetup rfl, ?_⟩
  have hbuilt := nodeRuns_built (Prod.ext hsetup rfl)
  generalize (buildNodeRuns chainWorkflow edgeExecution (fun _ => .ok ()) none
      chainWorkflow.nodes (buildPortWiring chainWorkflow) (World.fresh 3 : World Unit)).2.nodeRuns =
        runs at hbuilt ⊢
  cases hbuilt with
  | cons hstart hrest =>
    cases hrest with
    | cons hfirst hrest =>
      cases hrest with
      | cons hsecond hrest =>
        cases hrest
        rw [run_of_built hstart wired_start.1 wired_start.2,
          run_of_built hfirst wired_first.1 wired_first.2,
          run_of_built hsecond wired_second.1 wired_second.2]
        rfl

/-- A future that sends one packet. -/
def sendOnce (outputs : PortsOut) (portId : PortId) (packet : PortPacket) : Future where
  Stage := Bool
  start := false
  step
    | false => do
      match ← outputs.send portId packet with
      | .pending => return false
      | .ready _ => return true
    | true => return true
  result sent := if sent then some (.ok ()) else none
  holds _ := 0
  holds_start := Future.holds_nothing
  disciplined sent g hheld := by
    cases sent with
    | true => exact hheld
    | false =>
      refine Prog.wp_bind.mpr ((send_spec outputs portId packet).mono fun poll g' hpoll => ?_)
      rcases poll with (err | ⟨⟩) | _ <;> cases hpoll <;> exact hheld

lemma sendOnce_keeps (inputs : PortsIn) (outputs : PortsOut) (portId : PortId)
    (packet : PortPacket) :
    (sendOnce outputs portId packet).Keeps (Owns inputs outputs) fun _ => True := by
  refine ⟨trivial, fun sent _ => ⟨?_, Prog.ends_of_forall (fun _ => trivial) _⟩⟩
  cases sent with
  | true => exact trivial
  | false =>
    refine Prog.calls_bind ((sending_send outputs portId packet).mono fun op h => ?_) fun poll => ?_
    · cases op with
      | tryReserve c | permitAbort c => exact ⟨portId, h⟩
      | permitSend c sent => exact ⟨portId, h.1⟩
      | isCancelled | record _ => exact trivial
      | _ => cases h
    · cases poll <;> exact trivial

/-- The packet that starts at `s`. -/
def chainPacket : PortPacket where
  metadata :=
    { messageId := ⟨"m1", message_m1_valid⟩
      workflowId := chainWorkflow.id
      execution := edgeExecution
      route := ⟨some ⟨startNode.id, outPort⟩, ⟨firstNode.id, inPort⟩⟩ }
  payload := .bytes [1]

/-- The copy of it that `a` sends to `b`. -/
def chainCopy : PortPacket where
  metadata :=
    { messageId := ⟨"a-rule-out-0", by decide⟩
      workflowId := chainWorkflow.id
      execution := edgeExecution
      route := ⟨some ⟨firstNode.id, outPort⟩, ⟨firstNode.id, outPort⟩⟩ }
  payload := .bytes [1]

/-- `a` routes every packet to its output. -/
def routingNode : RuleNode := ⟨⟨"forward", .firstMatch, [], .route outPort, false⟩, false, fun _ => ""⟩

/-- `b` drops what arrived on `in` and stops at everything else. -/
def arrivalRules : RuleSet where
  id := "arrivals"
  strategy := .firstMatch
  rules := [⟨"arrived", .arrivedOnPort inPort, .drop, 0, ""⟩]
  defaultAction := .halt "came from nowhere"
  traceConditions := false

def arrivalNode : RuleNode := ⟨arrivalRules, false, fun _ => ""⟩

def chainBehaviour : (i : Fin chainRuns.length) → Behaviour (chainRuns.get i).context
    ((chainRuns.get i).givenInputs false) ((chainRuns.get i).givenOutputs false)
  | ⟨0, _⟩ => .other (sendOnce _ outPort chainPacket) _ (sendOnce_keeps _ _ outPort chainPacket)
  | ⟨1, _⟩ => .rule (.native routingNode) 0
  | ⟨2, _⟩ => .rule (.native arrivalNode) 0

/-- The edge from `a` to `b`. -/
def chainWire : Wire := (⟨⟨firstNode.id, outPort⟩, ⟨secondNode.id, inPort⟩, .default⟩, 1)

abbrev ChainNetwork := Network (.plain PortPacket) (runNodes chainRuns fun i =>
  (chainBehaviour i).future)

/-- What the run has come to: what the two rule nodes do next, the channels of the edges, and what
`b` has received. -/
structure ChainAt (first second : PortM LoopState) (into out : Channel PortPacket × ℕ)
    (taken : List PortPacket) (s : ChainNetwork) : Prop where
  reachable : Network.Reachable ⟨False, False⟩ (fun _ => 1) s
  first : s.progs firstRun = first
  second : s.progs secondRun = second
  gone : s.gone = fun _ => false
  quiet : s.cancelled = false
  into : s.channels 0 = into
  out : s.channels 1 = out
  taken : s.received 1 = taken

/-- The programs of the two rule nodes at a stage. -/
abbrev firstStep (s : LoopState) : PortM LoopState :=
  ((chainBehaviour firstRun).future).step s

abbrev secondStep (s : LoopState) : PortM LoopState :=
  ((chainBehaviour secondRun).future).step s

abbrev waiting : LoopState := (0, .receiving false)

abbrev forwarding : LoopState := (1, .sending ⟨outPort, chainCopy, none⟩)

/-- `s` sends the packet. -/
lemma chain_sent : ∃ s, ChainAt (firstStep waiting) (secondStep waiting)
    (⟨1, [chainPacket], 0, true⟩, 1) (.new 1, 1) [] s := by
  let s₀ : ChainNetwork := Network.initial (.plain PortPacket) _ (fun _ => 1)
  have hyields : (s₀.progs startRun).Yields
      [⟨.isCancelled, false⟩, ⟨.tryReserve 0, .ok ()⟩, ⟨.permitSend 0 chainPacket, ()⟩] true :=
    .call (.call (.call .ret))
  have hsteps : Relation.ReflTransGen (Network.Step ⟨False, False⟩) s₀ _ :=
    Network.steps_of_yields rfl hyields
      (.cons (.isCancelled false) (.cons (.tryReserve rfl) (.cons (.permitSend rfl) .nil)))
      (Network.tells_of_unrequested rfl (not_seesRequest_of_forall (by simp)))
  exact ⟨_, ⟨hsteps, rfl, rfl, rfl, rfl, rfl, rfl, rfl⟩⟩

/-- `a` receives it and starts to forward it. -/
lemma chain_routed : ∃ s, ChainAt (firstStep forwarding) (secondStep waiting)
    (.new 1, 1) (.new 1, 1) [] s := by
  obtain ⟨s, h⟩ := chain_sent
  have hyields : (s.progs firstRun).Yields
      [⟨.isCancelled, false⟩, ⟨.pollRecv 0, .ready (.ok chainPacket)⟩] forwarding := by
    rw [h.first]
    exact .call (.call .ret)
  have hsteps : Relation.ReflTransGen (Network.Step ⟨False, False⟩) s _ :=
    Network.steps_of_turn (by rw [h.gone]) hyields
      (.cons (.isCancelled false) (.cons (.pollRecv (by rw [h.into]; rfl)) .nil))
      (Network.tells_of_unrequested h.quiet (not_seesRequest_of_forall (by simp))) rfl
  exact ⟨_, ⟨h.reachable.trans hsteps, rfl, h.second, h.gone, h.quiet, rfl,
    h.out, h.taken⟩⟩

/-- `a` forwards it. -/
lemma chain_forwarded : ∃ s, ChainAt (firstStep (1, .between)) (secondStep waiting)
    (.new 1, 1) (⟨1, [chainCopy], 0, true⟩, 1) [] s := by
  obtain ⟨s, h⟩ := chain_routed
  have hyields : (s.progs firstRun).Yields
      [⟨.isCancelled, false⟩, ⟨.tryReserve 1, .ok ()⟩, ⟨.permitSend 1 chainCopy, ()⟩]
      (1, .between) := by
    rw [h.first]
    exact .call (.call (.call .ret))
  have hsteps : Relation.ReflTransGen (Network.Step ⟨False, False⟩) s _ :=
    Network.steps_of_turn (by rw [h.gone]) hyields
      (.cons (.isCancelled false) (.cons (.tryReserve (by rw [h.out]; rfl))
        (.cons (.permitSend rfl) .nil)))
      (Network.tells_of_unrequested h.quiet (not_seesRequest_of_forall (by simp))) rfl
  exact ⟨_, ⟨h.reachable.trans hsteps, rfl, h.second, h.gone, h.quiet, h.into,
    rfl, h.taken⟩⟩

/-- `b` receives the copy. -/
lemma chain_received : ∃ s : ChainNetwork, Network.Reachable ⟨False, False⟩ (fun _ => 1) s ∧
    s.received 1 = [chainCopy] := by
  obtain ⟨s, h⟩ := chain_forwarded
  have hyields : ∃ stage, (s.progs secondRun).Yields
      [⟨.isCancelled, false⟩, ⟨.pollRecv 1, .ready (.ok chainCopy)⟩] stage := by
    rw [h.second]
    exact ⟨_, .call (.call .ret)⟩
  obtain ⟨stage, hyields⟩ := hyields
  have hsteps : Relation.ReflTransGen (Network.Step ⟨False, False⟩) s _ :=
    Network.steps_of_yields (by rw [h.gone]) hyields
      (.cons (.isCancelled false) (.cons (.pollRecv (by rw [h.out]; rfl)) .nil))
      (Network.tells_of_unrequested h.quiet (not_seesRequest_of_forall (by simp)))
  refine ⟨_, h.reachable.trans hsteps, ?_⟩
  show s.received 1 ++ [chainCopy] = [chainCopy]
  rw [h.taken]
  rfl

theorem chained_arrival_port_sample :
    let ctx := nodeContext chainWorkflow edgeExecution secondNode
    EvaluatedFrom ctx chainCopy firstNode.id outPort ∧
    ¬ EvaluatedFrom ctx chainCopy firstNode.id inPort ∧
    evalCondition chainCopy.payload (evalContext ctx chainCopy) (.arrivedOnPort inPort) = false ∧
    ∀ host ∈ chainWorkflow.nodes, host.id = secondNode.id → ∀ ruleSet rule,
      validateArrivalPort host ruleSet rule inPort = [] := by
  obtain ⟨⟨runs, execution⟩, hbuild, rfl⟩ := chain_built
  obtain ⟨s, hs, hreceived⟩ := chain_received
  exact chained_arrival_port chainWorkflow edgeExecution (fun _ => .ok ()) none 3 _ hbuild false
    chainBehaviour (.plain PortPacket) (Mpsc.plain_lawful PortPacket) _ _ s hs chainWire
    (by decide +kernel) firstRun secondRun rfl rfl ⟨_, _, rfl⟩ ⟨_, _, rfl⟩ chainCopy
    (by rw [show s.received chainWire.2 = [chainCopy] from hreceived]; exact List.mem_cons_self)

/-- **Provenance does not survive chaining**: `b` receives the copy on `in`, its rule set is
accepted, and its condition on `in` does not hold. -/
theorem provenance_lost : ¬ ∀ (workflow : WorkflowDefinition) (execution : ExecutionMetadata)
    (registry : NodeId → Except PureflowError Unit)
    (outputContracts : Option WorkflowOutputContracts) (n : SliceLen) (w : World Unit),
    buildNodeRuns workflow execution registry outputContracts workflow.nodes
      (buildPortWiring workflow) (.fresh n) = (.ok (), w) →
    ∀ (metadataSink : Bool)
      (behaviour : (i : Fin w.nodeRuns.length) → Behaviour (w.nodeRuns.get i).context
        ((w.nodeRuns.get i).givenInputs metadataSink)
        ((w.nodeRuns.get i).givenOutputs metadataSink))
      (m : Mpsc PortPacket), m.Lawful → ∀ (regime : Regime) (capacity : ℕ → ℕ)
      (s : Network m (runNodes w.nodeRuns fun i => (behaviour i).future)),
    Network.Reachable regime capacity s → ∀ wire ∈ wires workflow,
    ∀ a b : Fin w.nodeRuns.length,
    (w.nodeRuns.get a).context.nodeId = wire.1.source.nodeId →
    (w.nodeRuns.get b).context.nodeId = wire.1.target.nodeId →
    (behaviour a).IsRule → (behaviour b).IsRule → ∀ packet ∈ s.received wire.2,
    EvaluatedFrom (w.nodeRuns.get b).context packet wire.1.source.nodeId wire.1.target.portId ∧
    ∀ ruleSet, ∀ rule ∈ ruleSet.rules, rule.condition = .arrivedOnPort wire.1.target.portId →
      ruleSetViolations workflow wire.1.target.nodeId ruleSet = [] →
      evalCondition packet.payload (evalContext (w.nodeRuns.get b).context packet)
        rule.condition = true := by
  intro hall
  obtain ⟨⟨runs, execution⟩, hbuild, rfl⟩ := chain_built
  obtain ⟨s, hs, hreceived⟩ := chain_received
  have hholds := (hall chainWorkflow edgeExecution _ none 3 _ hbuild false chainBehaviour _
    (Mpsc.plain_lawful PortPacket) _ _ s hs chainWire (by decide +kernel) firstRun secondRun rfl rfl ⟨_, _, rfl⟩ ⟨_, _, rfl⟩ chainCopy
    (by rw [show s.received chainWire.2 = [chainCopy] from hreceived]; exact List.mem_cons_self)).2
    arrivalRules _ List.mem_cons_self rfl (by decide +kernel)
  cases hholds

end Sample

end Pureflow.Wasm
