import Pureflow.Core.Batch
import Pureflow.Core.Serving
import Pureflow.Engine.RunNetwork

/-!
The batch node executor: it collects all packets of its input ports, invokes its executor once on
the whole batch, and sends what this returns.

The batch it invokes the executor on is complete: for every input port it is a merge of all that
is ever committed to the edges of the port.
-/

namespace Pureflow.Engine

open Pureflow.Types Pureflow.Core Pureflow.Lib Pureflow.Workflow

/-- What a batch executor returns when it is invoked. -/
abbrev BatchExecutor := BatchInputs → Except PureflowError BatchOutputs

/-- Where `run_batch_node_executor` stands between two awaits: it collects packets, and has polled
this receive before or not; it is about to invoke its executor; or it sends what is left. -/
inductive BatchStage
  | collecting (polled : Bool) (batchInputs : BatchInputs)
  | invoking (batchInputs : BatchInputs)
  | sending (packetsByPort : List (PortId × List PortPacket))
  | returned (result : Except PureflowError Unit)

namespace BatchStage

/-- The executor has not been invoked yet. -/
def isOpen : BatchStage → Bool
  | .collecting _ _ | .invoking _ => true
  | _ => false

/-- How the node goes on with what its executor returned. -/
def answered : Except PureflowError BatchOutputs → BatchStage
  | .ok batchOutputs => .sending batchOutputs.packetsByPort.toList
  | .error e => .returned (.error e)

end BatchStage

namespace BatchNode

section Step

variable (executor : BatchExecutor) (inputs : PortsIn) (outputs : PortsOut)

/-- One poll of the receive. -/
def pollAny (polled : Bool) : PortM (Poll (Except PortRecvError (Option (PortId × PortPacket)))) :=
  if polled then inputs.recvAnyPoll else inputs.recvAny

/-- From one stage to the next one. -/
def step : BatchStage → PortM BatchStage
  | .collecting polled batchInputs => do
    match ← pollAny inputs polled with
    | .pending => return .collecting true batchInputs
    | .ready (.ok (some (portId, packet))) =>
      return .collecting false (batchInputs.push portId packet)
    | .ready (.ok none) => return .invoking batchInputs
    | .ready (.error e) => return .returned (.error (.ofPortRecvError e))
  | .invoking batchInputs =>
    match executor batchInputs with
    | .ok batchOutputs => return .sending batchOutputs.packetsByPort.toList
    | .error e => return .returned (.error e)
  | .sending [] => return .returned (.ok ())
  | .sending ((_, []) :: rest) => return .sending rest
  | .sending ((portId, packet :: packets) :: rest) => do
    match ← outputs.send portId packet with
    | .pending => return .sending ((portId, packet :: packets) :: rest)
    | .ready (.ok ()) => return .sending ((portId, packets) :: rest)
    | .ready (.error e) => return .returned (.error (.ofPortSendError e))
  | .returned result => return .returned result

lemma pollAny_spec (polled : Bool) {g : Account} :
    Prog.Wp ledger (pollAny inputs polled) (PollReceivedAny g) g := by
  cases polled with
  | true => exact recvAnyPoll_spec inputs
  | false => exact recvAny_spec inputs

lemma step_disciplined (stage : BatchStage) {g : Account} (hheld : g.held = 0) :
    Prog.Wp ledger (step executor inputs outputs stage) (fun _ g' => g'.held = 0) g := by
  cases stage with
  | collecting polled batchInputs =>
    rw [step, Prog.wp_bind]
    refine (pollAny_spec inputs polled).mono fun poll g' hpoll => ?_
    rcases poll with (err | _ | ⟨portId, packet⟩) | _
    · cases hpoll
      exact hheld
    · cases hpoll
      exact hheld
    · obtain ⟨c, rfl⟩ := hpoll
      exact hheld
    · cases hpoll
      exact hheld
  | invoking batchInputs =>
    rw [step]
    split <;> exact hheld
  | sending packetsByPort =>
    rcases packetsByPort with _ | ⟨⟨portId, _ | ⟨packet, packets⟩⟩, rest⟩
    · exact hheld
    · exact hheld
    · rw [step, Prog.wp_bind]
      refine (send_spec outputs portId packet).mono fun poll g' hpoll => ?_
      rcases poll with (err | ⟨⟩) | _
      all_goals
        cases hpoll
        exact hheld
  | returned result => exact hheld

/-- The future of the node. -/
def future : Future where
  Stage := BatchStage
  start := .collecting false .new
  step := step executor inputs outputs
  result
    | .returned result => some result
    | _ => none
  holds _ := 0
  holds_start := Future.holds_nothing
  disciplined stage _ hheld := step_disciplined executor inputs outputs stage hheld

end Step

section Calls

variable {executor : BatchExecutor} {inputs : PortsIn} {outputs : PortsOut} {node : NetworkNode}

lemma owns_of_idle {op : PortOp} (h : op.Idle) : node.Owns op := by
  cases op with
  | len c | isCancelled | record r => exact trivial
  | _ => cases h

lemma owns_of_receiving {channels : List ℕ} (hsub : channels ⊆ node.receivers) {op : PortOp}
    (h : op.Receiving channels true) : node.Owns op := by
  cases op with
  | pollRecv c => exact hsub h
  | len c | isCancelled | record r => exact trivial
  | _ => cases h

lemma owns_of_sending {channels : List ℕ} (hsub : channels ⊆ node.senders) {packet : PortPacket}
    {op : PortOp} (h : op.Sending channels packet) : node.Owns op := by
  cases op with
  | permitSend c sent => exact hsub h.1
  | tryReserve c | permitAbort c | isCancelled | record r => exact trivial
  | _ => cases h

lemma owns_recordQueuePressure (port : InputPortHandle) (kind : QueuePressureBoundaryKind) :
    (inputs.recordQueuePressure port kind).Calls node.Owns :=
  (idle_recordQueuePressure inputs port kind).mono fun _ => owns_of_idle

lemma owns_recvAnyPoll
    (hin : ∀ port ∈ inputs.ports, port.ends.map Receiver.channel ⊆ node.receivers) :
    (inputs.recvAnyPoll).Calls node.Owns := by
  have go {rest : List InputPortHandle} (hsub : rest ⊆ inputs.ports) (n : ℕ) :
      (PortsIn.recvAnyPoll.go inputs rest n).Calls node.Owns := by
    induction rest generalizing n with
    | nil =>
      rw [PortsIn.recvAnyPoll.go]
      split <;> exact trivial
    | cons port rest ih =>
      obtain ⟨hport, hrest⟩ := List.cons_subset.mp hsub
      have hpoll : (InputPortHandle.pollAny port).Calls node.Owns := by
        unfold InputPortHandle.pollAny
        split
        · exact trivial
        · have hgo : (InputPortHandle.pollAny.go port port.ends 0).Calls
              (PortOp.Receiving (port.ends.map Receiver.channel) true) :=
            receiving_pollAny_go port (fun r hr => List.mem_map_of_mem hr) 0
          exact hgo.mono fun _ => owns_of_receiving (hin port hport)
      refine Prog.calls_bind hpoll fun result => ?_
      cases result with
      | packet packet =>
        exact Prog.calls_bind (owns_recordQueuePressure port _) fun _ =>
          Prog.calls_bind (calls_record (by exact trivial) _) fun _ => trivial
      | closed => exact Prog.calls_bind (owns_recordQueuePressure port _) fun _ => ih hrest _
      | cancelled => exact trivial
      | pending => exact ih hrest _
  refine Prog.calls_bind (Prog.calls_perform trivial) fun cancelled => ?_
  cases cancelled with
  | true =>
    simp only [if_true]
    cases inputs.ports <;> exact trivial
  | false => exact go (List.Subset.refl _) 0

/-- **The node keeps to its ports.** -/
lemma step_owns (hin : ∀ port ∈ inputs.ports, port.ends.map Receiver.channel ⊆ node.receivers)
    (hout : ∀ portId, outputs.channels portId ⊆ node.senders) (stage : BatchStage) :
    (step executor inputs outputs stage).Calls node.Owns := by
  cases stage with
  | collecting polled batchInputs =>
    have hpoll : (pollAny inputs polled).Calls node.Owns := by
      cases polled with
      | true => exact owns_recvAnyPoll hin
      | false =>
        show (inputs.recvAny).Calls node.Owns
        unfold PortsIn.recvAny
        split
        · exact trivial
        · exact Prog.calls_bind ((idle_recordAttempts inputs _).mono fun _ => owns_of_idle)
            fun _ => owns_recvAnyPoll hin
    refine Prog.calls_bind hpoll fun poll => ?_
    rcases poll with (err | _ | ⟨portId, packet⟩) | _ <;> exact trivial
  | invoking batchInputs =>
    rw [step]
    split <;> exact trivial
  | sending packetsByPort =>
    rcases packetsByPort with _ | ⟨⟨portId, _ | ⟨packet, packets⟩⟩, rest⟩
    · exact trivial
    · exact trivial
    · refine Prog.calls_bind ((sending_send outputs portId packet).mono
        fun _ => owns_of_sending (hout portId)) fun poll => ?_
      rcases poll with (err | ⟨⟩) | _ <;> exact trivial
  | returned result => exact trivial

end Calls

section Gathering

variable {executor : BatchExecutor} {inputs : PortsIn} {outputs : PortsOut} {g g' : Tally}

/-- Every channel of a port is one of that port only. -/
def Apart (inputs : PortsIn) : Prop :=
  ∀ port ∈ inputs.ports, ∀ c ∈ port.ends.map Receiver.channel, ∀ portId,
    c ∈ inputs.channels portId ↔ port.portId = portId

/-- The batch holds what was received, by port. -/
def Gathered (inputs : PortsIn) (g : Tally) (batch : BatchInputs) : Prop :=
  ∀ portId, batch.packets portId =
    (g.received.filter (·.1 ∈ inputs.channels portId)).map Prod.snd

lemma gathered_new : Gathered inputs .fresh .new := by
  intro portId
  simp [Tally.fresh]

lemma Gathered.push {batch : BatchInputs} (h : Gathered inputs g batch) (hapart : Apart inputs)
    {port : InputPortHandle} (hport : port ∈ inputs.ports) {c : ℕ}
    (hc : c ∈ port.ends.map Receiver.channel) {packet : PortPacket}
    (hg' : g'.received = g.received ++ [(c, packet)]) :
    Gathered inputs g' (batch.push port.portId packet) := by
  intro portId
  have hmem := hapart port hport c hc portId
  rw [BatchInputs.packets_push, h portId, hg', List.filter_append, List.map_append]
  congr 1
  by_cases hid : port.portId = portId
  · simp [hid, hmem.mpr hid]
  · simp [hid, mt hmem.mp hid]

/-- What the node knows of its batch at a stage: it is what was received, and when it is passed
on all channels of the node are closed. -/
def Good (inputs : PortsIn) : BatchStage → Tally → Prop
  | .collecting _ batchInputs, g => Gathered inputs g batchInputs
  | .invoking batchInputs, g => Gathered inputs g batchInputs ∧
    ∀ port ∈ inputs.ports, port.ends.map Receiver.channel ⊆ g.closed
  | _, _ => True

lemma tallied_of_ends {α : Type} {p : PortM α} {Q : α → Tally → Prop}
    (h : p.Ends fun a => ∀ g, Q a g) : Prog.Wp tallied p Q g := by
  induction p generalizing g with
  | ret a => exact h g
  | call op k ih => exact ⟨trivial, fun answer _ => ih answer (h answer)⟩

/-- **One turn** keeps the batch in agreement with what was received. -/
theorem step_good (hapart : Apart inputs) (stage : BatchStage) (h : Good inputs stage g) :
    Prog.Wp tallied (step executor inputs outputs stage) (Good inputs) g := by
  cases stage with
  | collecting polled batchInputs =>
    have hpoll : Prog.Wp tallied (pollAny inputs polled) (AnyTallied inputs.ports g) g := by
      cases polled with
      | true => exact recvAnyPoll_tallied inputs
      | false => exact recvAny_tallied inputs
    rw [step, Prog.wp_bind]
    refine hpoll.mono fun poll g' hpoll => ?_
    have hsame (hlater : g.Later g') : Gathered inputs g' batchInputs := by
      intro portId
      rw [hlater.received]
      exact h portId
    rcases poll with (err | _ | ⟨portId, packet⟩) | _
    · exact hpoll.elim
    · exact ⟨hsame hpoll.1, hpoll.2⟩
    · obtain ⟨port, hport, rfl, c, hc, hg'⟩ := hpoll
      exact Gathered.push h hapart hport hc hg'
    · exact hsame hpoll
  | invoking batchInputs =>
    rw [step]
    split <;> exact trivial
  | sending packetsByPort =>
    rcases packetsByPort with _ | ⟨⟨portId, _ | ⟨packet, packets⟩⟩, rest⟩
    · exact trivial
    · exact trivial
    · rw [step]
      refine tallied_of_ends (Prog.ends_bind.mpr (Prog.ends_of_forall (fun poll => ?_) _))
      rcases poll with (err | ⟨⟩) | _ <;> exact fun _ => trivial
  | returned result => exact trivial

end Gathering

section Passing

variable (executor : BatchExecutor) (inputs : PortsIn) (outputs : PortsOut)

lemma step_invoking (batchInputs : BatchInputs) :
    step executor inputs outputs (.invoking batchInputs) =
      .ret (BatchStage.answered (executor batchInputs)) := by
  rw [step]
  cases executor batchInputs <;> rfl

lemma step_past {stage : BatchStage} (h : stage.isOpen = false) :
    (step executor inputs outputs stage).Ends fun next => next.isOpen = false := by
  cases stage with
  | collecting polled batchInputs => cases h
  | invoking batchInputs => cases h
  | sending packetsByPort =>
    rcases packetsByPort with _ | ⟨⟨portId, _ | ⟨packet, packets⟩⟩, rest⟩
    · exact rfl
    · exact rfl
    · rw [step]
      refine Prog.ends_bind.mpr (Prog.ends_of_forall (fun poll => ?_) _)
      rcases poll with (err | ⟨⟩) | _ <;> exact rfl
  | returned result => exact rfl

lemma collecting_stays (polled : Bool) (batchInputs : BatchInputs) (g : Tally) :
    Prog.Wp tallied (step executor inputs outputs (.collecting polled batchInputs))
      (fun next _ => next.isOpen = true) g := by
  have hpoll : Prog.Wp tallied (pollAny inputs polled) (AnyTallied inputs.ports g) g := by
    cases polled with
    | true => exact recvAnyPoll_tallied inputs
    | false => exact recvAny_tallied inputs
  rw [step, Prog.wp_bind]
  refine hpoll.mono fun poll g' hpoll => ?_
  rcases poll with (err | _ | ⟨portId, packet⟩) | _
  · exact hpoll.elim
  · exact rfl
  · exact rfl
  · exact rfl

lemma collecting_takes {ins : List ℕ} (hports : portChannels inputs.ports ⊆ ins) (polled : Bool)
    (batchInputs : BatchInputs) (g : Load) :
    Prog.Wp (streaming (fun _ => False) ins [])
      (step executor inputs outputs (.collecting polled batchInputs))
      (fun next g' => next.isOpen = true → (¬ ∃ batch, next = .invoking batch) →
        g'.total ins < g.total ins) g := by
  have hpoll : Prog.Wp (streaming (fun _ => False) ins []) (pollAny inputs polled)
      (Served (fun _ => False) (portChannels inputs.ports) g) g := by
    cases polled with
    | true => exact recvAnyPoll_streaming inputs hports
    | false => exact recvAny_streaming inputs hports
  rw [step, Prog.wp_bind]
  refine hpoll.mono fun poll g' hpoll => ?_
  rcases poll with (err | _ | ⟨portId, packet⟩) | _
  · intro hopen
    cases hopen
  · exact fun _ hnot => absurd ⟨batchInputs, rfl⟩ hnot
  · obtain ⟨c, hc, hqueued, rfl⟩ := hpoll
    exact fun _ _ => Load.total_taking_lt (hports hc) hqueued
  · obtain ⟨-, -, c, -, hlive⟩ := hpoll
    exact hlive.elim

/-- Until it invokes its executor, the node does nothing but collect. -/
theorem gathers {Executor : Type} (run : NodeRun Executor) (metadataSink : Bool) :
    Gathers (run.networkNode
        (future executor (run.givenInputs metadataSink) (run.givenOutputs metadataSink)))
      (fun stage : BatchStage => stage.isOpen = true)
      (fun stage : BatchStage => ∃ batch, stage = .invoking batch) where
  start := rfl
  begins := by
    rintro ⟨batch, h⟩
    cases h
  result {stage} h := by
    cases stage with
    | collecting polled batchInputs => rfl
    | invoking batchInputs => rfl
    | sending packetsByPort => cases h
    | returned result => cases h
  stays {stage} g h hnot := by
    cases stage with
    | collecting polled batchInputs =>
      exact collecting_stays executor (run.givenInputs metadataSink)
        (run.givenOutputs metadataSink) polled batchInputs g
    | invoking batchInputs => exact absurd ⟨batchInputs, rfl⟩ hnot
    | sending packetsByPort => cases h
    | returned result => cases h
  takes {stage} g h hnot := by
    cases stage with
    | collecting polled batchInputs =>
      have hports : portChannels (run.givenInputs metadataSink).ports ⊆
          (run.networkNode (future executor (run.givenInputs metadataSink)
            (run.givenOutputs metadataSink))).receivers :=
        List.Subset.refl _
      exact collecting_takes executor (run.givenInputs metadataSink)
        (run.givenOutputs metadataSink) hports polled batchInputs g
    | invoking batchInputs => exact absurd ⟨batchInputs, rfl⟩ hnot
    | sending packetsByPort => cases h
    | returned result => cases h

end Passing

end BatchNode

section Conducts

variable {Executor : Type} {run : NodeRun Executor} {metadataSink : Bool}

/-- What the executor of a node run does with its ports: it is a batch node, or something else that
keeps to the ports it is given. -/
inductive Conduct (run : NodeRun Executor) (metadataSink : Bool)
  | batch (executor : BatchExecutor)
  | other (future : Future) (good : future.Stage → Prop)
      (keeps : future.Keeps (run.networkNode future).Owns good)

namespace Conduct

def future : Conduct run metadataSink → Future
  | .batch executor =>
    BatchNode.future executor (run.givenInputs metadataSink) (run.givenOutputs metadataSink)
  | .other future _ _ => future

/-- The batch that the node is about to invoke its executor on. -/
def invokes : (conduct : Conduct run metadataSink) → conduct.future.Stage → Option BatchInputs
  | .batch _, .invoking batchInputs => some batchInputs
  | _, _ => none

/-- The executor of a batch node. -/
def executor? : Conduct run metadataSink → Option BatchExecutor
  | .batch executor => some executor
  | .other _ _ _ => none

/-- How a batch node goes on with what its executor returned. -/
def answered : (conduct : Conduct run metadataSink) → Except PureflowError BatchOutputs →
    Option conduct.future.Stage
  | .batch _, answer => some (BatchStage.answered answer)
  | .other _ _ _, _ => none

/-- What is known of a batch node. -/
def Good : (conduct : Conduct run metadataSink) → conduct.future.Stage → Tally → Prop
  | .batch _, stage, g => BatchNode.Good (run.givenInputs metadataSink) stage g
  | .other _ _ _, _, _ => True

lemma good_start (conduct : Conduct run metadataSink) :
    conduct.Good conduct.future.start .fresh := by
  cases conduct with
  | batch executor => exact BatchNode.gathered_new
  | other future good keeps => exact trivial

lemma good_step (conduct : Conduct run metadataSink) (hapart : BatchNode.Apart run.inputs)
    (stage : conduct.future.Stage) (g : Tally) (h : conduct.Good stage g) :
    Prog.Wp tallied (conduct.future.step stage) conduct.Good g := by
  cases conduct with
  | batch executor =>
    have hgiven : BatchNode.Apart (run.givenInputs metadataSink) := hapart
    exact BatchNode.step_good hgiven stage h
  | other future good keeps =>
    exact BatchNode.tallied_of_ends (Prog.ends_of_forall (fun _ _ => trivial) _)

lemma gathered_of_invokes {conduct : Conduct run metadataSink} {stage : conduct.future.Stage}
    {batch : BatchInputs} {g : Tally} (hinvokes : conduct.invokes stage = some batch)
    (h : conduct.Good stage g) :
    BatchNode.Gathered run.inputs g batch ∧
      ∀ port ∈ run.inputs.ports, port.ends.map Receiver.channel ⊆ g.closed := by
  cases conduct with
  | batch executor =>
    cases stage with
    | invoking batchInputs =>
      obtain rfl : batchInputs = batch := Option.some.inj hinvokes
      exact h
    | collecting polled batchInputs => cases hinvokes
    | sending packetsByPort => cases hinvokes
    | returned result => cases hinvokes
  | other future good keeps => cases hinvokes

lemma step_of_invokes {conduct : Conduct run metadataSink} {stage : conduct.future.Stage}
    {batch : BatchInputs} (hinvokes : conduct.invokes stage = some batch)
    {executor : BatchExecutor} (hexecutor : conduct.executor? = some executor) :
    ∃ next, conduct.answered (executor batch) = some next ∧ conduct.future.step stage = .ret next := by
  cases conduct with
  | batch own =>
    obtain rfl : own = executor := Option.some.inj hexecutor
    cases stage with
    | invoking batchInputs =>
      obtain rfl : batchInputs = batch := Option.some.inj hinvokes
      exact ⟨_, rfl, BatchNode.step_invoking own (run.givenInputs metadataSink)
        (run.givenOutputs metadataSink) batchInputs⟩
    | collecting polled batchInputs => cases hinvokes
    | sending packetsByPort => cases hinvokes
    | returned result => cases hinvokes
  | other future good keeps => cases hexecutor

/-- The executor was invoked before. -/
def Past : (conduct : Conduct run metadataSink) → conduct.future.Stage → Prop
  | .batch _, stage => BatchStage.isOpen stage = false
  | .other _ _ _, _ => False

lemma past_of_answered {conduct : Conduct run metadataSink}
    {answer : Except PureflowError BatchOutputs} {next : conduct.future.Stage}
    (h : conduct.answered answer = some next) : conduct.Past next := by
  cases conduct with
  | batch executor =>
    obtain rfl := Option.some.inj h
    cases answer <;> exact rfl
  | other future good keeps => cases h

lemma step_past {conduct : Conduct run metadataSink} (stage : conduct.future.Stage)
    (h : conduct.Past stage) : (conduct.future.step stage).Ends conduct.Past := by
  cases conduct with
  | batch executor => exact BatchNode.step_past _ _ _ h
  | other future good keeps => exact h.elim

lemma invokes_of_past {conduct : Conduct run metadataSink} {stage : conduct.future.Stage}
    (h : conduct.Past stage) : conduct.invokes stage = none := by
  cases conduct with
  | batch executor =>
    cases stage with
    | invoking batchInputs => cases h
    | collecting polled batchInputs => cases h
    | sending packetsByPort => rfl
    | returned result => rfl
  | other future good keeps => rfl

/-- A batch node collects until it invokes its executor. -/
lemma gathers {conduct : Conduct run metadataSink} (h : conduct.executor?.isSome) :
    ∃ isOpen, Gathers (run.networkNode conduct.future) isOpen
      fun stage => ∃ batch, conduct.invokes stage = some batch := by
  cases conduct with
  | batch executor =>
    have hdone : (fun stage : BatchStage => ∃ batch, stage = .invoking batch) =
        fun stage => ∃ batch, (Conduct.batch executor : Conduct run metadataSink).invokes stage =
          some batch := by
      funext stage
      cases stage <;> simp [invokes]
    refine ⟨fun stage : BatchStage => stage.isOpen = true, ?_⟩
    exact (iff_of_eq (congrArg (Gathers (run.networkNode (batch executor).future)
      fun stage : BatchStage => stage.isOpen = true) hdone)).mp
        (BatchNode.gathers executor run metadataSink)
  | other future good keeps => cases h

lemma keeps (conduct : Conduct run metadataSink) :
    ∃ good, conduct.future.Keeps (run.networkNode conduct.future).Owns good := by
  cases conduct with
  | batch executor =>
    refine ⟨fun _ => True, trivial, fun stage _ => ⟨?_, Prog.ends_of_forall (fun _ => trivial) _⟩⟩
    refine BatchNode.step_owns (fun port hport c hc => ?_) (fun portId c hc => ?_) stage
    · exact List.mem_flatMap.mpr ⟨port, hport, hc⟩
    · exact NodeRun.mem_senders_of_channels _ hc
  | other future good keeps => exact ⟨good, keeps⟩

end Conduct

end Conducts

section Runs

variable {Executor : Type} {workflow : WorkflowDefinition} {execution : ExecutionMetadata}
  {registry : NodeId → Except PureflowError Executor}
  {outputContracts : Option WorkflowOutputContracts} {runs : List (NodeRun Executor)}

lemma wired_apart (node : NodeDefinition) : BatchNode.Apart (wired workflow node).inputs := by
  intro port hport c hc portId
  obtain ⟨p, hp, rfl⟩ := List.mem_map.mp hport
  have hchannels : c ∈ (wired workflow node).inputs.channels p := by
    rw [PortsIn.channels, (wired_node workflow node).inputs p hp]
    exact hc
  constructor
  · intro h
    obtain ⟨-, wire, hwire, htarget, hchannel⟩ := wire_of_input hchannels
    obtain ⟨-, wire', hwire', htarget', hchannel'⟩ := wire_of_input h
    obtain rfl := wire_unique hwire hwire' (hchannel.trans hchannel'.symm)
    rw [htarget] at htarget'
    exact congrArg EdgeEndpoint.portId htarget'
  · rintro rfl
    exact hchannels

/-- **The edges of a run are wires**: each has one sender and one receiver. -/
theorem runNodes_wires (h : List.Forall₂ (fun node run =>
      Built workflow execution registry outputContracts node (wired workflow node) run)
      workflow.nodes runs) (metadataSink : Bool)
    (conduct : (i : Fin runs.length) → Conduct (runs.get i) metadataSink) :
    Wires (runNodes runs fun i => (conduct i).future) where
  sender_unique hi hj := sender_unique h hi hj
  receiver_unique hi hj := receiver_unique h hi hj
  keeps i := (conduct i).keeps

/-- **The batch is complete**: on every input port it is a merge of what is ever committed to the
edges of the port. -/
theorem batch_complete {m : Mpsc PortPacket} {senders : m.State → ℕ} (hm : m.Prompt senders)
    (h : List.Forall₂ (fun node run =>
      Built workflow execution registry outputContracts node (wired workflow node) run)
      workflow.nodes runs) {metadataSink : Bool}
    {conduct : (i : Fin runs.length) → Conduct (runs.get i) metadataSink} {regime : Regime}
    (hquiet : ¬ regime.cancels) {capacity : ℕ → ℕ}
    {s s' : Network m (runNodes runs fun i => (conduct i).future)}
    (hs : Network.Reachable regime capacity s)
    (hsteps : Relation.ReflTransGen (Network.Step regime) s s') {i : Fin runs.length}
    {stage : (conduct i).future.Stage} {batch : BatchInputs} (hstage : s.progs i = .ret stage)
    (hinvokes : (conduct i).invokes stage = some batch) {portId : PortId}
    (hport : portId ∈ (runs.get i).inputs.portIds) :
    Merge ((wiresInto workflow ⟨(runs.get i).context.nodeId, portId⟩).map
      fun wire => s'.committed wire.2) (batch.packets portId) := by
  obtain ⟨node, -, hbuilt⟩ := built_get h i
  have hapart : BatchNode.Apart (runs.get i).inputs := by
    rw [hbuilt.inputs]
    exact wired_apart node
  obtain ⟨g, hgood, hfinal⟩ := Network.closed_final hm (runNodes_wires h metadataSink conduct)
    hquiet (conduct i).good_start ((conduct i).good_step hapart) hs hstage
  obtain ⟨hgathered, hclosed⟩ := Conduct.gathered_of_invokes hinvokes hgood
  have hdeclared : portId ∈ node.inputPorts := by
    rw [hbuilt.inputs] at hport
    exact hport
  have hchannels : (runs.get i).inputs.channels portId =
      (wiresInto workflow ⟨(runs.get i).context.nodeId, portId⟩).map Prod.snd := by
    rw [hbuilt.inputs, channels_of_input hdeclared, hbuilt.context]
    rfl
  have hnodup : ((runs.get i).inputs.channels portId).Nodup := by
    have hall : ((wires workflow).map Prod.snd).Nodup := by
      rw [wires, List.zipIdx_map_snd]
      exact List.nodup_range'
    rw [hchannels]
    exact hall.sublist (List.filter_sublist.map _)
  have hmerge := merge_withKey hnodup (l := g.received.filter
    (·.1 ∈ (runs.get i).inputs.channels portId)) (by simp)
  rw [← hgathered portId] at hmerge
  have hcommitted : ((runs.get i).inputs.channels portId).map
      (withKey · (g.received.filter (·.1 ∈ (runs.get i).inputs.channels portId))) =
      ((runs.get i).inputs.channels portId).map s'.committed := by
    refine List.map_congr_left fun c hc => ?_
    rw [withKey_filter hc]
    obtain ⟨port, hport, hc⟩ := port_of_channel hc
    exact (hfinal c (hclosed port hport hc) s' hsteps).symm
  rw [hcommitted, hchannels, List.map_map] at hmerge
  exact hmerge

/-- **Once only**: when its executor was invoked on a batch, the node does not come to invoke it
again. -/
theorem invoked_once {m : Mpsc PortPacket} {metadataSink : Bool}
    {conduct : (i : Fin runs.length) → Conduct (runs.get i) metadataSink} {regime : Regime}
    {s s₁ s' : Network m (runNodes runs fun i => (conduct i).future)} {i : Fin runs.length}
    {stage stage' : (conduct i).future.Stage} {batch : BatchInputs} {executor : BatchExecutor}
    (hexecutor : (conduct i).executor? = some executor) (hstage : s.progs i = .ret stage)
    (hinvokes : (conduct i).invokes stage = some batch) (htakes : Network.Takes i s s₁)
    (hsteps : Relation.ReflTransGen (Network.Step regime) s₁ s')
    (hstage' : s'.progs i = .ret stage') : (conduct i).invokes stage' = none := by
  obtain ⟨next, hanswered, hstep⟩ := Conduct.step_of_invokes hinvokes hexecutor
  have hpast : (s₁.progs i).Ends (conduct i).Past := by
    cases htakes with
    | call hgone hprog => cases hstage.symm.trans hprog
    | resume hgone hprog =>
      cases hstage.symm.trans hprog
      simp only [Function.update_self]
      show ((conduct i).future.step stage).Ends _
      rw [hstep]
      exact Conduct.past_of_answered hanswered
  have hlater := Network.ends_of_steps (i := i) Conduct.step_past hpast hsteps
  rw [hstage'] at hlater
  exact Conduct.invokes_of_past hlater

/-- **The receive paths agree and end no stream early.** On the channels of a port as they are,
with any packets queued and any senders gone, `try_recv`, `recv` and `recv_any` return the same
packet and report the end on the same condition. Hence, in every run in which no cancellation is
requested, a batch node that is about to invoke its executor holds, for every input port, a merge
of all packets that are committed to the edges of the port by then or later. Its next step hands
this batch to the executor, which it does not come to invoke again. And a batch node that is served
and not abandoned does come to invoke its executor once all its edges have lost their senders. -/
theorem receive_paths_agree {m : Mpsc PortPacket} {senders : m.State → ℕ}
    (hm : m.Definite senders) :
    (∀ (ports : PortsIn) (port : InputPortHandle),
      PortHandle.find ports.ports port.portId = some port →
      ∀ before : ℕ → m.State, ReceivesAgree m senders ports port before) ∧
    ∀ {Executor : Type} (workflow : WorkflowDefinition) (execution : ExecutionMetadata)
      (registry : NodeId → Except PureflowError Executor)
      (outputContracts : Option WorkflowOutputContracts) (n : SliceLen) (w : World Executor),
      buildNodeRuns workflow execution registry outputContracts workflow.nodes
        (buildPortWiring workflow) (.fresh n) = (.ok (), w) →
    ∀ (metadataSink : Bool)
      (conduct : (i : Fin w.nodeRuns.length) → Conduct (w.nodeRuns.get i) metadataSink)
      (regime : Regime), ¬ regime.cancels → ∀ (capacity : ℕ → ℕ) (i : Fin w.nodeRuns.length),
      (∀ s s' : Network m (runNodes w.nodeRuns fun i => (conduct i).future),
        Network.Reachable regime capacity s → Relation.ReflTransGen (Network.Step regime) s s' →
        ∀ (stage : (conduct i).future.Stage) (batch : BatchInputs),
          s.progs i = .ret stage → (conduct i).invokes stage = some batch →
          ∀ portId ∈ (w.nodeRuns.get i).inputs.portIds,
            Merge ((wiresInto workflow ⟨(w.nodeRuns.get i).context.nodeId, portId⟩).map
              fun wire => s'.committed wire.2) (batch.packets portId)) ∧
      ∀ executor, (conduct i).executor? = some executor →
        (∀ (stage : (conduct i).future.Stage) (batch : BatchInputs),
          (conduct i).invokes stage = some batch →
          (∃ next, (conduct i).answered (executor batch) = some next ∧
            (conduct i).future.step stage = .ret next) ∧
          ∀ s s₁ s' : Network m (runNodes w.nodeRuns fun i => (conduct i).future),
            s.progs i = .ret stage → Network.Takes i s s₁ →
            Relation.ReflTransGen (Network.Step regime) s₁ s' →
            ∀ stage', s'.progs i = .ret stage' → (conduct i).invokes stage' = none) ∧
        ∀ run : ℕ → Network m (runNodes w.nodeRuns fun i => (conduct i).future),
          Network.Run regime capacity run → Network.Serves run i →
          (∀ k, (run k).gone i = true → ∃ result, (run k).Returned i result) →
          (∀ c ∈ (runNodes w.nodeRuns (fun i => (conduct i).future) i).receivers,
            ∃ k, (run k).senderDropped c = true) →
          ∃ k stage batch, (run k).progs i = .ret stage ∧ (conduct i).invokes stage = some batch := by
  constructor
  · intro ports port hport before
    exact receivesAgree hm ports hport before
  intro Executor workflow execution registry outputContracts n w hbuild metadataSink conduct
    regime hquiet capacity i
  refine ⟨fun s s' hs hsteps stage batch hstage hinvokes portId hport => ?_,
    fun executor hexecutor => ⟨fun stage batch hinvokes => ⟨?_, ?_⟩, ?_⟩⟩
  · exact batch_complete hm.toPrompt (nodeRuns_built hbuild) hquiet hs hsteps hstage hinvokes hport
  · exact Conduct.step_of_invokes hinvokes hexecutor
  · intro s s₁ s' hstage htakes hsteps stage' hstage'
    exact invoked_once hexecutor hstage hinvokes htakes hsteps hstage'
  · intro run hrun hserves hkept hdropped
    obtain ⟨isOpen, hgathers⟩ := Conduct.gathers (Option.isSome_of_eq_some hexecutor)
    obtain ⟨k, stage, hprog, batch, hinvokes⟩ := Network.done_of_served hm.toPrompt
      (runNodes_wires (nodeRuns_built hbuild) metadataSink conduct) hquiet hgathers hrun hserves
      hkept hdropped
    exact ⟨k, stage, batch, hprog, hinvokes⟩

end Runs

section Sample

/-- A future that sends one packet into a channel. -/
def postOnce (c : ℕ) (packet : PortPacket) : Future where
  Stage := Bool
  start := false
  step
    | false => do
      match ← PortM.tryReserve c with
      | .ok () =>
        PortM.permitSend c packet
        return true
      | .error _ => return true
    | true => return true
  result sent := if sent then some (.ok ()) else none
  holds _ := 0
  holds_start := Future.holds_nothing
  disciplined sent g hheld := by
    cases sent with
    | true => exact hheld
    | false =>
      rw [Prog.wp_bind, wp_tryReserve]
      refine ⟨?_, fun _ => hheld⟩
      simp only [Prog.wp_bind, wp_permitSend]
      exact ⟨Multiset.mem_cons_self _ _, by simp [hheld]⟩

def batchRun (node : NodeDefinition) (inputs : List InputPortHandle)
    (outputs : List OutputPortHandle) : NodeRun Unit where
  executor := ()
  context := nodeContext edgeWorkflow edgeExecution node
  inputs := ⟨node.inputPorts, inputs, false, none⟩
  outputs := ⟨node.outputPorts, outputs, false, none, none⟩

def batchIn : PortId := ⟨"in", port_in_valid⟩

def batchTarget : NodeDefinition := ⟨⟨"b", node_b_valid⟩, [batchIn], [], by decide⟩

def batchRuns : List (NodeRun Unit) :=
  [batchRun edgeSource [] [⟨⟨"out", port_out_valid⟩, [⟨0, 1⟩]⟩],
    batchRun batchTarget [⟨batchIn, [⟨0, 1⟩]⟩] []]

abbrev sourceRun : Fin batchRuns.length := ⟨0, by decide⟩

abbrev targetRun : Fin batchRuns.length := ⟨1, by decide⟩

lemma batch_built : ∃ w : World Unit,
    buildNodeRuns edgeWorkflow edgeExecution (fun _ => .ok ()) none edgeWorkflow.nodes
      (buildPortWiring edgeWorkflow) (.fresh 2) = (.ok (), w) ∧ w.nodeRuns = batchRuns := by
  have hsetup : (buildNodeRuns edgeWorkflow edgeExecution (fun _ => .ok ()) none
      edgeWorkflow.nodes (buildPortWiring edgeWorkflow) (World.fresh 2 : World Unit)).1 =
        .ok () := by
    decide +kernel
  have hnode {node : NodeDefinition} {inputs : List InputPortHandle}
      {outputs : List OutputPortHandle} {run : NodeRun Unit}
      (h : Built edgeWorkflow edgeExecution (fun _ => .ok ()) none node
        (wired edgeWorkflow node) run)
      (hinputs : (wired edgeWorkflow node).inputs.ports = inputs)
      (houtputs : (wired edgeWorkflow node).outputs.ports = outputs) :
      run = batchRun node inputs outputs := by
    obtain ⟨executor, context, ins, outs⟩ := run
    obtain ⟨hexecutor, hcontext, hins, houts⟩ := h
    cases houts
    simp only at hcontext hins
    rw [hcontext, hins, batchRun, ← hinputs, ← houtputs]
    rfl
  refine ⟨_, Prod.ext hsetup rfl, ?_⟩
  have hbuilt := nodeRuns_built (Prod.ext hsetup rfl)
  generalize (buildNodeRuns edgeWorkflow edgeExecution (fun _ => .ok ()) none
      edgeWorkflow.nodes (buildPortWiring edgeWorkflow) (World.fresh 2 : World Unit)).2.nodeRuns =
        runs at hbuilt ⊢
  cases hbuilt with
  | cons hsource hrest =>
    cases hrest with
    | cons htarget hrest =>
      cases hrest
      have hfirst : _ = batchRun edgeSource [] [⟨⟨"out", by decide⟩, [⟨0, 1⟩]⟩] :=
        hnode hsource (by decide +kernel) (by decide +kernel)
      have hsecond : _ = batchRun batchTarget [⟨batchIn, [⟨0, 1⟩]⟩] [] :=
        hnode htarget (by decide +kernel) (by decide +kernel)
      rw [hfirst, hsecond]
      rfl

lemma postOnce_keeps {node : NetworkNode} {c : ℕ} (packet : PortPacket) (h : c ∈ node.senders) :
    (postOnce c packet).Keeps node.Owns fun _ => True := by
  refine ⟨trivial, fun sent _ => ⟨?_, Prog.ends_of_forall (fun _ => trivial) _⟩⟩
  cases sent with
  | true => exact trivial
  | false =>
    refine Prog.calls_bind (Prog.calls_perform trivial) fun answer => ?_
    rcases answer with err | ⟨⟩
    · exact trivial
    · exact Prog.calls_bind (Prog.calls_perform h) fun _ => trivial

/-- Node `a` sends one packet, and node `b` is a batch node. -/
def batchConduct : (i : Fin batchRuns.length) → Conduct (batchRuns.get i) false
  | ⟨0, _⟩ => .other (postOnce 0 edgePacket) _ (postOnce_keeps edgePacket List.mem_cons_self)
  | ⟨1, _⟩ => .batch fun _ => .ok .new

abbrev BatchNetwork := Network (.plain PortPacket) (runNodes batchRuns fun i =>
  (batchConduct i).future)

/-- The program of `b` at a stage. -/
abbrev batchStep (stage : BatchStage) : PortM BatchStage :=
  ((batchConduct targetRun).future).step stage

/-- What the run has come to: whether `a` is gone, what `b` does next, and the edge. -/
structure BatchAt (left : Bool) (target : PortM BatchStage) (edge : Channel PortPacket × ℕ)
    (s : BatchNetwork) : Prop where
  reachable : Network.Reachable ⟨False, False⟩ (fun _ => 1) s
  posted : s.progs sourceRun = .ret true
  target : s.progs targetRun = target
  sourceGone : s.gone sourceRun = left
  targetGone : s.gone targetRun = false
  dropped : s.senderDropped 0 = left
  quiet : s.cancelled = false
  edge : s.channels 0 = edge
  committed : s.committed 0 = [edgePacket]

/-- `a` sends the packet. -/
lemma batch_posted : ∃ s, BatchAt false (batchStep (.collecting false .new))
    (⟨1, [edgePacket], 0, true⟩, 1) s := by
  let s₀ : BatchNetwork := Network.initial (.plain PortPacket) _ (fun _ => 1)
  have hyields : (s₀.progs sourceRun).Yields
      [⟨.tryReserve 0, .ok ()⟩, ⟨.permitSend 0 edgePacket, ()⟩] true :=
    .call (.call .ret)
  have hsteps : Relation.ReflTransGen (Network.Step ⟨False, False⟩) s₀ _ :=
    Network.steps_of_yields rfl hyields (.cons (.tryReserve rfl) (.cons (.permitSend rfl) .nil))
      (by simp [Network.Tells])
  exact ⟨_, ⟨hsteps, rfl, rfl, rfl, rfl, rfl, rfl, rfl, rfl⟩⟩

/-- `a` is gone, and its end of the edge with it. -/
lemma batch_left : ∃ s, BatchAt true (batchStep (.collecting false .new))
    (⟨1, [edgePacket], 0, true⟩, 0) s := by
  obtain ⟨s, h⟩ := batch_posted
  let s₁ : BatchNetwork := { s with gone := Function.update s.gone sourceRun true }
  have hleave : Network.Step ⟨False, False⟩ s s₁ := .leave h.sourceGone h.posted (.inl rfl)
  have hgone : s₁.gone sourceRun = true := Function.update_self sourceRun true s.gone
  have hdrop : Network.Step ⟨False, False⟩ s₁ _ :=
    .dropSender (i := sourceRun) (c := 0) hgone List.mem_cons_self h.dropped rfl
  refine ⟨_, ⟨(h.reachable.tail hleave).tail hdrop, h.posted, h.target, hgone, h.targetGone,
    Function.update_self 0 true s.senderDropped, h.quiet, ?_, h.committed⟩⟩
  exact congrArg (fun edge : Channel PortPacket × ℕ => (edge.1, edge.2 - 1)) h.edge

/-- The batch that `b` collects. -/
def collectedBatch : BatchInputs := BatchInputs.new.push batchIn edgePacket

/-- `b` receives the packet. -/
lemma batch_collected : ∃ s, BatchAt true (batchStep (.collecting false collectedBatch))
    (⟨1, [], 0, true⟩, 0) s := by
  obtain ⟨s, h⟩ := batch_left
  have hyields : (s.progs targetRun).Yields
      [⟨.isCancelled, false⟩, ⟨.pollRecv 0, .ready (.ok edgePacket)⟩]
      (BatchStage.collecting false collectedBatch) := by
    rw [h.target]
    exact .call (.call .ret)
  have hsteps : Relation.ReflTransGen (Network.Step ⟨False, False⟩) s _ :=
    Network.steps_of_turn h.targetGone hyields
      (.cons (.isCancelled false) (.cons (.pollRecv (by rw [h.edge]; rfl)) .nil))
      (Network.tells_of_unrequested h.quiet (not_seesRequest_of_forall (by simp))) rfl
  exact ⟨_, ⟨h.reachable.trans hsteps, h.posted, rfl, h.sourceGone, h.targetGone, h.dropped,
    h.quiet, rfl, h.committed⟩⟩

/-- `b` sees the end of its input, and is about to invoke its executor. -/
lemma batch_invoking : ∃ s, BatchAt true (.ret (.invoking collectedBatch))
    (⟨1, [], 0, true⟩, 0) s := by
  obtain ⟨s, h⟩ := batch_collected
  have hyields : (s.progs targetRun).Yields
      [⟨.isCancelled, false⟩, ⟨.pollRecv 0, .ready (.error .disconnected)⟩]
      (BatchStage.invoking collectedBatch) := by
    rw [h.target]
    exact .call (.call .ret)
  have hsteps : Relation.ReflTransGen (Network.Step ⟨False, False⟩) s _ :=
    Network.steps_of_yields h.targetGone hyields
      (.cons (.isCancelled false) (.cons (.pollRecv (by rw [h.edge]; rfl)) .nil))
      (Network.tells_of_unrequested h.quiet (not_seesRequest_of_forall (by simp)))
  exact ⟨_, ⟨h.reachable.trans hsteps, h.posted, rfl, h.sourceGone, h.targetGone, h.dropped,
    h.quiet, rfl, h.committed⟩⟩

/-- The executor of `b` is invoked, and `b` returns. -/
lemma batch_returned : ∃ s, BatchAt true (.ret (.returned (.ok ()))) (⟨1, [], 0, true⟩, 0) s := by
  obtain ⟨s, h⟩ := batch_invoking
  let s₁ : BatchNetwork := { s with
    progs := Function.update s.progs targetRun (batchStep (.invoking collectedBatch)) }
  have hsending : Network.Step ⟨False, False⟩ s s₁ := .resume h.targetGone h.target rfl
  have hprog : s₁.progs targetRun = .ret (.sending []) :=
    Function.update_self targetRun (batchStep (.invoking collectedBatch)) s.progs
  have hreturned : Network.Step ⟨False, False⟩ s₁ _ := .resume h.targetGone hprog rfl
  exact ⟨_, ⟨(h.reachable.tail hsending).tail hreturned, h.posted, rfl, h.sourceGone, h.targetGone,
    h.dropped, h.quiet, h.edge, h.committed⟩⟩

/-- An input port with two edges, of which the first one is empty and has lost its sender. -/
def fanIn : InputPortHandle := ⟨batchIn, [⟨0, 1⟩, ⟨1, 1⟩]⟩

theorem receive_paths_agree_sample :
    ReceivesAgree (.plain PortPacket) Prod.snd ⟨[batchIn], [fanIn], false, none⟩ fanIn
      (fun c => if c = 0 then (.new 1, 0) else (⟨1, [edgePacket], 0, true⟩, 1)) ∧
    ∃ (s : BatchNetwork) (batch : BatchInputs), s.progs targetRun = .ret (.invoking batch) ∧
      Merge [s.committed 0] (batch.packets batchIn) := by
  have hagree := receive_paths_agree (Mpsc.plain_definite PortPacket)
  refine ⟨hagree.1 _ fanIn rfl _, ?_⟩
  obtain ⟨⟨runs, execution⟩, hbuild, rfl⟩ := batch_built
  obtain ⟨s, h⟩ := batch_returned
  obtain ⟨run, hrun, last, hlast⟩ := Network.exists_run h.reachable
  obtain ⟨hmerge, hbatch⟩ := hagree.2 edgeWorkflow edgeExecution (fun _ => .ok ()) none 2 _ hbuild
    false batchConduct ⟨False, False⟩ id (fun _ => 1) targetRun
  have hdropped : ∀ c ∈ [0], ∃ k, (run k).senderDropped c = true := by
    intro c hc
    rw [List.mem_singleton.mp hc]
    exact ⟨last, by rw [hlast last le_rfl, h.dropped]⟩
  obtain ⟨k, stage, batch, hstage, hinvokes⟩ := (hbatch _ rfl).2 run hrun
    (Network.serves_of_returned hlast ⟨_, h.target, rfl⟩)
    (fun k => Network.returned_of_gone id (hrun.reachable k)) hdropped
  refine ⟨run k, batch, ?_, ?_⟩
  · rw [hstage]
    cases stage with
    | invoking batchInputs => rw [Option.some.inj hinvokes]
    | _ => cases hinvokes
  · have hwires : wiresInto edgeWorkflow ⟨(batchRuns.get targetRun).context.nodeId, batchIn⟩ =
        wires edgeWorkflow := by
      decide +kernel
    have hcomplete := hmerge (run k) (run k) (hrun.reachable k) .refl stage batch hstage hinvokes
      batchIn (List.mem_singleton.mpr rfl)
    rwa [hwires] at hcomplete

end Sample

end Pureflow.Engine
