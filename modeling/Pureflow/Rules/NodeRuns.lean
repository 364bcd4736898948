import Pureflow.Core.PortAnswers
import Pureflow.Rules.Node

/-!
Runs of a rule node, and what they deliver.

A run interleaves the node with everything around it at every call: channels answer as they
like, as long as receivers stay connected, and cancellation may be requested at any time. The
account of the run lists the packets received and committed, in order; what it should list is
said packet by packet.
-/

namespace Pureflow.Rules

open Pureflow.Types Pureflow.Core Pureflow.Lib

def RuleAction.haltMessage : RuleAction → Option String
  | .halt message => some message
  | _ => none

namespace Stage

def isReturned : Stage → Bool
  | .returned _ => true
  | _ => false

/-- The step from one stage to the other did no more than to start or to go on waiting, if a
channel let it wait. -/
def waits : Stage → Stage → Bool
  | _, .receiving true => true
  | .sending _, .sending _ => true
  | _, _ => false

end Stage

namespace RuleNode

section Deliveries

variable (node : RuleNode) (ctx : NodeContext) (outputs : PortsOut)

/-- The action decided for a packet. -/
def decided (packet : PortPacket) : Option RuleAction :=
  (evaluate node.ruleSet packet (evalContext ctx packet)).toOption.map (·.action)

/-- The port a packet is routed to. -/
def routedTo (packet : PortPacket) : Option PortId := (node.decided ctx packet).bind (·.target)

/-- The message of a packet that halts the node. -/
def haltsWith (packet : PortPacket) : Option String :=
  (node.decided ctx packet).bind (·.haltMessage)

/-- What a packet puts on the edges: its copy, on every edge of the port it is routed to. -/
def delivery (seq : UInt64) (packet : PortPacket) : List (ℕ × PortPacket) :=
  match node.routedTo ctx packet with
  | none => []
  | some portId =>
    match forwardPacket ctx portId seq packet with
    | .error _ => []
    | .ok forwarded => (outputs.channels portId).map (·, forwarded)

/-- What packets received in this order put on the edges; they are numbered from `start` on. -/
def deliveries (start : UInt64) (packets : List PortPacket) : List (ℕ × PortPacket) :=
  packets.zipIdx.flatMap fun p => node.delivery ctx outputs (start + .ofNat p.2) p.1

/-- Every packet that is routed to a port can be sent there. -/
def Clear (ok : PortId → UInt64 → PortPacket → Prop) (start : UInt64)
    (packets : List PortPacket) : Prop :=
  ∀ before packet after, packets = before ++ packet :: after →
    ∀ portId, node.routedTo ctx packet = some portId → ok portId (start + .ofNat before.length) packet

/-- A copy can be sent: its port is declared, its id fits, and its validator accepts it. -/
structure Sendable (portId : PortId) (seq : UInt64) (packet : PortPacket) : Prop where
  declared : (PortHandle.find outputs.ports portId).isSome
  fits : (mintedId ctx portId seq).utf8ByteSize ≤ maxIdentifierLen
  accepted : ∀ validator ∈ outputs.validator, ∀ forwarded,
    forwardPacket ctx portId seq packet = .ok forwarded → validator portId forwarded = .ok ()

end Deliveries

/-- A run so far: the stage the node last went on from, what is left of its step, whether
cancellation was requested, the account, whether a channel had nothing to give or no room in the
step in progress, and how often the node went on and how often it had only waited for such a
channel. -/
structure Config where
  stage : Stage
  prog : PortM (UInt64 × Stage)
  cancelled : Bool
  account : Account
  stalled : Bool
  turns : ℕ
  waits : ℕ

section Runs

variable (node : RuleNode) (ctx : NodeContext) (inputs : PortsIn) (outputs : PortsOut)

def Config.initial (start : UInt64) : Config where
  stage := .receiving false
  prog := node.step ctx inputs outputs start (.receiving false)
  cancelled := false
  account := .holding 0
  stalled := false
  turns := 0
  waits := 0

/-- What a call is answered: connected channels grant a reservation or have no room, the token
says whether cancellation was requested, and `recv` says what channels give. -/
def Answers (recv : ℕ → Poll (Except RecvError PortPacket) → Account → Prop) (c : Config) :
    (op : PortOp) → op.Answer → Prop :=
  fun op answer => (⟨(· = c.cancelled), recv⟩ : Surroundings).can op answer c.account

/-- One step of a run: a call is answered, the node goes on from the stage it reached, or
cancellation is requested. -/
inductive Step (recv : ℕ → Poll (Except RecvError PortPacket) → Account → Prop) :
    Config → Config → Prop
  | call {c : Config} {op : PortOp} {k : op.Answer → PortM (UInt64 × Stage)} {answer : op.Answer} :
    c.prog = .call op k → Answers recv c op answer →
    Step recv c { c with
      prog := k answer
      account := c.account.after op answer
      stalled := c.stalled || op.isStall answer }
  | resume {c : Config} {counter : UInt64} {stage : Stage} :
    c.prog = .ret (counter, stage) → stage.isReturned = false →
    Step recv c { c with
      stage := stage
      prog := node.step ctx inputs outputs counter stage
      stalled := false
      turns := c.turns + 1
      waits := c.waits + if c.stalled && c.stage.waits stage then 1 else 0 }
  | cancel {c : Config} : Step recv c { c with cancelled := true }

/-- The packets received so far. -/
def Config.packets (c : Config) : List PortPacket := c.account.received.map Prod.snd

/-- The run has returned. -/
def Config.Returns (c : Config) (result : Except PureflowError Unit) : Prop :=
  ∃ counter, c.prog = .ret (counter, .returned result)

/-- Where a poll of the send of a packet looks at the token, no cancellation was requested. -/
def Config.Quiet (c : Config) : Prop :=
  ∀ send k, c.stage = .sending send → c.prog = .call .isCancelled k → c.cancelled = false

end Runs

section Packets

variable {node : RuleNode} {ctx : NodeContext} {outputs : PortsOut} {start : UInt64}

lemma evaluate_ok (ruleSet : RuleSet) (packet : PortPacket) (context : EvalContext) :
    ∃ decision, evaluate ruleSet packet context = .ok decision := by
  unfold evaluate
  split
  · exact ⟨_, rfl⟩
  · exact ⟨_, rfl⟩
  · exact ⟨_, rfl⟩

/-- A minted id consists of what its parts consist of. -/
lemma mintedId_clean (portId : PortId) (seq : UInt64) : Clean (mintedId ctx portId seq) := by
  have hrule : Clean "-rule-" := ⟨by decide, by decide⟩
  have hdash : Clean "-" := ⟨by decide, by decide⟩
  unfold mintedId
  apply Clean.append ?_ (Clean.number seq.toNat)
  apply Clean.append ?_ hdash
  apply Clean.append ?_ portId.clean
  exact ctx.nodeId.clean.append hrule

lemma mintedId_ne (portId : PortId) (seq : UInt64) : mintedId ctx portId seq ≠ "" := by
  intro h
  simp only [mintedId, String.append_eq_empty_iff] at h
  exact absurd h.1.2 (by decide)

lemma mintedId_size (portId : PortId) (seq : UInt64) :
    (mintedId ctx portId seq).utf8ByteSize = ctx.nodeId.value.utf8ByteSize +
      portId.value.utf8ByteSize + (toString seq).utf8ByteSize + 7 := by
  have hrule : (toString "-rule-").utf8ByteSize = 6 := by decide
  have hdash : (toString "-").utf8ByteSize = 1 := by decide
  have hnode : (toString ctx.nodeId).utf8ByteSize = ctx.nodeId.value.utf8ByteSize := rfl
  have hport : (toString portId).utf8ByteSize = portId.value.utf8ByteSize := rfl
  simp only [mintedId, String.utf8ByteSize_append, hrule, hdash, hnode, hport]
  omega

lemma forwardPacket_ok {portId : PortId} {seq : UInt64}
    (h : (mintedId ctx portId seq).utf8ByteSize ≤ maxIdentifierLen) (packet : PortPacket) :
    ∃ forwarded, forwardPacket ctx portId seq packet = .ok forwarded := by
  obtain ⟨messageId, hnew⟩ :=
    Identifier.new_of_fits (mintedId_clean portId seq) (mintedId_ne portId seq) h
  unfold forwardPacket
  rw [hnew]
  exact ⟨_, rfl⟩

lemma forwardPacket_long {portId : PortId} {seq : UInt64}
    (h : maxIdentifierLen < (mintedId ctx portId seq).utf8ByteSize) (packet : PortPacket) :
    forwardPacket ctx portId seq packet = .error (.execution
      s!"rule node message id error: {IdentifierError.tooLong .message maxIdentifierLen}") := by
  unfold forwardPacket
  rw [Identifier.new_of_long (mintedId_clean portId seq) (mintedId_ne portId seq) h]

lemma deliveries_append (packets : List PortPacket) (packet : PortPacket) :
    node.deliveries ctx outputs start (packets ++ [packet]) =
      node.deliveries ctx outputs start packets ++
        node.delivery ctx outputs (start + .ofNat packets.length) packet := by
  simp [deliveries, List.zipIdx_append]

lemma Clear.of_append {ok : PortId → UInt64 → PortPacket → Prop} {packets more : List PortPacket}
    (h : node.Clear ctx ok start (packets ++ more)) : node.Clear ctx ok start packets := by
  intro before packet after heq
  exact h before packet (after ++ more) (by rw [heq]; simp)

lemma Clear.last {ok : PortId → UInt64 → PortPacket → Prop} {packets : List PortPacket}
    {packet : PortPacket} (h : node.Clear ctx ok start (packets ++ [packet])) {portId : PortId}
    (hrouted : node.routedTo ctx packet = some portId) :
    ok portId (start + .ofNat packets.length) packet :=
  h packets packet [] rfl portId hrouted

end Packets

section Invariant

variable (node : RuleNode) (ctx : NodeContext) (inputs : PortsIn) (outputs : PortsOut)
  (a : Surroundings) (start : UInt64)

/-- How a run ends: at the end of its input, at a packet that halts it, by a cancellation, or
because its input port is not declared. -/
inductive Ending (g : Account) : Except PureflowError Unit → Prop
  | closed : (∀ p ∈ g.received.map Prod.snd, node.haltsWith ctx p = none) →
    (∀ port, PortHandle.find inputs.ports inPort = some port →
      ∀ r ∈ port.ends, a.recv r.channel (.ready (.error .disconnected)) g) →
    Ending g (.ok ())
  | halted {before : List PortPacket} {last : PortPacket} {message : String} :
    g.received.map Prod.snd = before ++ [last] →
    (∀ p ∈ before, node.haltsWith ctx p = none) → node.haltsWith ctx last = some message →
    Ending g (.error (.execution s!"rule halted: {message}"))
  | interrupted {reason : String} :
    (a.token true ∨ ∃ c g, a.recv c (.ready (.error .cancelled)) g) →
    Ending g (.error (.cancellation reason))
  | undeclared {err : PureflowError} : PortHandle.find inputs.ports inPort = none →
    Ending g (.error err)

/-- The account of a run at a stage. All packets received are delivered, but for the one whose
send is waited for. -/
def Settled (counter : UInt64) (g : Account) : Stage → Prop
  | .receiving _ | .between =>
    counter = start + .ofNat g.received.length ∧
    g.committed = node.deliveries ctx outputs start (g.received.map Prod.snd) ∧
    ∀ p ∈ g.received.map Prod.snd, node.haltsWith ctx p = none
  | .sending send =>
    counter = start + .ofNat g.received.length ∧
    ∃ before last, g.received.map Prod.snd = before ++ [last] ∧
      g.committed = node.deliveries ctx outputs start before ∧
      (∀ p ∈ g.received.map Prod.snd, node.haltsWith ctx p = none) ∧
      node.routedTo ctx last = some send.portId ∧
      forwardPacket ctx send.portId (start + .ofNat before.length) last = .ok send.packet ∧
      Sendable ctx outputs send.portId (start + .ofNat before.length) last
  | .returned result =>
    g.committed = node.deliveries ctx outputs start (g.received.map Prod.snd) ∧
    Ending node ctx inputs a g result

/-- The surroundings of the node at a stage: while it polls a send no cancellation is
requested. -/
def around : Stage → Surroundings
  | .sending _ => a.quiet
  | _ => a

end Invariant

section Steps

variable {node : RuleNode} {ctx : NodeContext} {inputs : PortsIn} {outputs : PortsOut}
  {a : Surroundings} {start counter : UInt64} {g : Account} {packet : PortPacket}

/-- The account with one more packet received. -/
def receive (g : Account) (channel : ℕ) (packet : PortPacket) : Account :=
  { g with received := g.received ++ [(channel, packet)] }

lemma receive_packets (g : Account) (channel : ℕ) (packet : PortPacket) :
    (receive g channel packet).received.map Prod.snd = g.received.map Prod.snd ++ [packet] := by
  simp [receive]

lemma counter_succ (h : counter = start + .ofNat g.received.length) (channel : ℕ) :
    counter + 1 = start + .ofNat (receive g channel packet).received.length := by
  rw [h, receive, List.length_append, List.length_singleton, UInt64.ofNat_add, UInt64.add_assoc]
  rfl

lemma deliveries_unrouted (hrouted : node.routedTo ctx packet = none) (channel : ℕ)
    (hcommitted : g.committed = node.deliveries ctx outputs start (g.received.map Prod.snd)) :
    (receive g channel packet).committed =
      node.deliveries ctx outputs start ((receive g channel packet).received.map Prod.snd) := by
  rw [receive_packets, deliveries_append, delivery, hrouted, List.append_nil]
  exact hcommitted

/-- A routed packet is on its way once its id is minted. -/
lemma settled_startSend {portId : PortId} (reason : Option String) (channel : ℕ)
    (h : Settled node ctx inputs outputs a start counter g (.receiving false))
    (hrouted : node.routedTo ctx packet = some portId) (hhalts : node.haltsWith ctx packet = none)
    (hsend : Sendable ctx outputs portId counter packet) :
    Settled node ctx inputs outputs a start (counter + 1) (receive g channel packet)
      (startSend ctx portId counter packet reason) := by
  obtain ⟨hcounter, hcommitted, hnone⟩ := h
  obtain ⟨forwarded, hforwarded⟩ := forwardPacket_ok hsend.fits packet
  have hlength : start + .ofNat (g.received.map Prod.snd).length = counter := by
    rw [List.length_map, hcounter]
  rw [startSend, hforwarded]
  refine ⟨counter_succ hcounter channel, _, packet, receive_packets g channel packet, hcommitted,
    ?_, hrouted, ?_, ?_⟩
  · rw [receive_packets, List.forall_mem_append]
    exact ⟨hnone, by simpa using hhalts⟩
  · rw [hlength]
    exact hforwarded
  · rw [hlength]
    exact hsend

lemma settled_executeAction {action : RuleAction} (channel : ℕ)
    (h : Settled node ctx inputs outputs a start counter g (.receiving false))
    (hdecided : node.decided ctx packet = some action)
    (hsend : ∀ portId, node.routedTo ctx packet = some portId →
      Sendable ctx outputs portId counter packet) :
    Settled node ctx inputs outputs a start (counter + 1) (receive g channel packet)
      (executeAction action ctx counter packet) := by
  have hrouted : node.routedTo ctx packet = action.target := by rw [routedTo, hdecided]; rfl
  have hhalts : node.haltsWith ctx packet = action.haltMessage := by rw [haltsWith, hdecided]; rfl
  obtain ⟨hcounter, hcommitted, hnone⟩ := h
  have hquiet (hnot : action.haltMessage = none) :
      ∀ p ∈ (receive g channel packet).received.map Prod.snd, node.haltsWith ctx p = none := by
    rw [receive_packets, List.forall_mem_append]
    exact ⟨hnone, by simpa [hhalts] using hnot⟩
  cases action with
  | route portId =>
    exact settled_startSend none channel ⟨hcounter, hcommitted, hnone⟩ hrouted hhalts
      (hsend portId hrouted)
  | drop =>
    exact ⟨counter_succ hcounter channel, deliveries_unrouted hrouted channel hcommitted, hquiet rfl⟩
  | deadLetter reason =>
    exact settled_startSend (some reason) channel ⟨hcounter, hcommitted, hnone⟩ hrouted hhalts
      (hsend deadLetterPort hrouted)
  | tag key value =>
    exact ⟨counter_succ hcounter channel, deliveries_unrouted hrouted channel hcommitted, hquiet rfl⟩
  | halt message =>
    exact ⟨deliveries_unrouted hrouted channel hcommitted,
      .halted (receive_packets g channel packet) hnone hhalts⟩

/-- The packets that channels give can be sent where they are routed to. -/
def GivesClear (node : RuleNode) (ctx : NodeContext) (outputs : PortsOut) (start : UInt64)
    (a : Surroundings) : Prop :=
  ∀ c packet g, a.recv c (.ready (.ok packet)) g → ∀ portId,
    node.routedTo ctx packet = some portId →
      Sendable ctx outputs portId (start + .ofNat g.received.length) packet

lemma process_settled (channel : ℕ) (h : Settled node ctx inputs outputs a start counter g (.receiving false))
    (hsend : ∀ portId, node.routedTo ctx packet = some portId →
      Sendable ctx outputs portId counter packet) :
    Prog.Wp a.ghost (node.process ctx counter packet)
      (fun r g' => Settled node ctx inputs outputs a start r.1 g' r.2)
      (receive g channel packet) := by
  obtain ⟨decision, hdecision⟩ := evaluate_ok node.ruleSet packet (evalContext ctx packet)
  have hdecided : node.decided ctx packet = some decision.action := by
    rw [decided, hdecision]
    rfl
  simp only [process, hdecision, Prog.wp_bind]
  exact wp_of_ledger (wp_record (settled_executeAction channel h hdecided hsend))

lemma pollInput_answered (polled : Bool) {port : InputPortHandle}
    (hport : PortHandle.find inputs.ports inPort = some port) :
    Prog.Wp a.ghost (pollInput inputs polled) (PollAnswer a port g) g := by
  unfold pollInput
  rw [hport]
  cases polled with
  | true => exact recvPoll_answered inputs port
  | false => exact portsIn_recv_answered inputs hport

lemma receiving_settled (polled : Bool) (hclear : GivesClear node ctx outputs start a)
    (h : Settled node ctx inputs outputs a start counter g (.receiving polled)) :
    Prog.Wp a.ghost (node.step ctx inputs outputs counter (.receiving polled))
      (fun r g' => Settled node ctx inputs outputs a start r.1 g' r.2) g := by
  obtain ⟨hcounter, hcommitted, hnone⟩ := h
  rw [step]
  cases hport : PortHandle.find inputs.ports inPort with
  | none =>
    have hpoll : pollInput inputs polled = .ret (.ready (.error (.unknownPort inPort))) := by
      unfold pollInput PortsIn.recv
      rw [hport]
      cases polled <;> rfl
    rw [hpoll]
    exact ⟨hcommitted, .undeclared hport⟩
  | some port =>
    rw [Prog.wp_bind]
    refine (pollInput_answered polled hport).mono fun r g' hr => ?_
    rcases r with (err | _ | packet) | _
    · cases err with
      | unknownPort portId => exact hr.elim
      | disconnected portId =>
        obtain ⟨rfl, hclosed⟩ := hr
        refine ⟨hcommitted, .closed hnone fun port' hport' => ?_⟩
        cases hport.symm.trans hport'
        exact hclosed
      | cancelled portId =>
        obtain ⟨rfl, hcancelled⟩ := hr
        refine ⟨hcommitted, .interrupted (hcancelled.imp_right ?_)⟩
        rintro ⟨r, -, hrecv⟩
        exact ⟨r.channel, g', hrecv⟩
    · -- a port without edges is at its end from the start
      obtain ⟨rfl, hempty⟩ := hr
      refine ⟨hcommitted, .closed hnone fun port' hport' => ?_⟩
      cases hport.symm.trans hport'
      simp [hempty]
    · obtain ⟨r, hr, hrecv, rfl⟩ := hr
      refine process_settled r.channel ⟨hcounter, hcommitted, hnone⟩ fun portId hrouted => ?_
      rw [hcounter]
      exact hclear r.channel packet g hrecv portId hrouted
    · rw [show g' = g from hr]
      exact ⟨hcounter, hcommitted, hnone⟩

lemma sending_settled {send : PendingSend}
    (h : Settled node ctx inputs outputs a start counter g (.sending send)) :
    Prog.Wp a.quiet.ghost (node.step ctx inputs outputs counter (.sending send))
      (fun r g' => Settled node ctx inputs outputs a start r.1 g' r.2) g := by
  obtain ⟨hcounter, before, last, hpackets, hcommitted, hnone, hrouted, hforwarded, hsend⟩ := h
  obtain ⟨port, hport⟩ := Option.isSome_iff_exists.mp hsend.declared
  rw [step, Prog.wp_bind]
  refine (send_connected outputs hport fun v hv => hsend.accepted v hv _ hforwarded).mono ?_
  intro r g' hr
  rcases r with answer | _
  · obtain ⟨rfl, rfl⟩ := hr
    refine ⟨hcounter, ?_, hnone⟩
    have hdelivery : node.delivery ctx outputs (start + .ofNat before.length) last =
        (outputs.channels send.portId).map (·, send.packet) := by
      simp only [delivery, hrouted, hforwarded]
    rw [hpackets, deliveries_append, hdelivery, hcommitted]
  · rw [show g' = g from hr]
    exact ⟨hcounter, before, last, hpackets, hcommitted, hnone, hrouted, hforwarded, hsend⟩

lemma between_settled (h : Settled node ctx inputs outputs a start counter g .between) :
    Prog.Wp a.ghost (node.step ctx inputs outputs counter .between)
      (fun r g' => Settled node ctx inputs outputs a start r.1 g' r.2) g := by
  rw [step, Prog.wp_bind]
  refine ⟨trivial, fun cancelled hcancelled => ?_⟩
  cases cancelled with
  | true => exact ⟨h.2.1, .interrupted (.inl hcancelled)⟩
  | false => exact h

/-- **Every step keeps the account settled.** -/
theorem step_settled (hclear : GivesClear node ctx outputs start a) (stage : Stage)
    (h : Settled node ctx inputs outputs a start counter g stage) :
    Prog.Wp (around a stage).ghost (node.step ctx inputs outputs counter stage)
      (fun r g' => Settled node ctx inputs outputs a start r.1 g' r.2) g := by
  cases stage with
  | receiving polled => exact receiving_settled polled hclear h
  | sending send => exact sending_settled h
  | between => exact between_settled h
  | returned result => exact h

end Steps

section Reached

variable {node : RuleNode} {ctx : NodeContext} {inputs : PortsIn} {outputs : PortsOut}
  {start : UInt64} {recv : ℕ → Poll (Except RecvError PortPacket) → Account → Prop}
  {token : Bool → Prop} {c c' : Config}

/-- The run may reach this state, by steps that all begin where the condition holds. -/
def Reached (node : RuleNode) (ctx : NodeContext) (inputs : PortsIn) (outputs : PortsOut)
    (start : UInt64) (recv : ℕ → Poll (Except RecvError PortPacket) → Account → Prop)
    (condition : Config → Prop) (c : Config) : Prop :=
  Relation.ReflTransGen (fun c c' => Step node ctx inputs outputs recv c c' ∧ condition c)
    (.initial node ctx inputs outputs start) c

lemma Reached.mono {p q : Config → Prop} (hpq : ∀ c, p c → q c)
    (h : Reached node ctx inputs outputs start recv p c) :
    Reached node ctx inputs outputs start recv q c := by
  induction h with
  | refl => exact .refl
  | tail _ hstep ih => exact .tail ih ⟨hstep.1, hpq _ hstep.2⟩

namespace Reached

variable {condition : Config → Prop}

lemma call (h : Reached node ctx inputs outputs start recv condition c) (op : PortOp)
    {k : op.Answer → PortM (UInt64 × Stage)} (answer : op.Answer) (hcondition : condition c)
    (hprog : c.prog = .call op k) (hanswer : Answers recv c op answer) :
    Reached node ctx inputs outputs start recv condition
      { c with
        prog := k answer
        account := c.account.after op answer
        stalled := c.stalled || op.isStall answer } :=
  .tail h ⟨.call hprog hanswer, hcondition⟩

lemma resume {counter : UInt64} (h : Reached node ctx inputs outputs start recv condition c)
    (stage : Stage) (hcondition : condition c) (hprog : c.prog = .ret (counter, stage))
    (hreturned : stage.isReturned = false) :
    Reached node ctx inputs outputs start recv condition
      { c with
        stage := stage
        prog := node.step ctx inputs outputs counter stage
        stalled := false
        turns := c.turns + 1
        waits := c.waits + if c.stalled && c.stage.waits stage then 1 else 0 } :=
  .tail h ⟨.resume hprog hreturned, hcondition⟩

end Reached

/-- What surrounds a run whose packets can be sent where they are routed to. -/
def surroundings (node : RuleNode) (ctx : NodeContext) (outputs : PortsOut) (start : UInt64)
    (recv : ℕ → Poll (Except RecvError PortPacket) → Account → Prop) (token : Bool → Prop) :
    Surroundings where
  token := token
  recv c answer g := recv c answer g ∧ ∀ packet, answer = .ready (.ok packet) → ∀ portId,
    node.routedTo ctx packet = some portId →
      Sendable ctx outputs portId (start + .ofNat g.received.length) packet

lemma surroundings_givesClear :
    GivesClear node ctx outputs start (surroundings node ctx outputs start recv token) :=
  fun _ packet _ h => h.2 packet rfl

lemma step_received (h : Step node ctx inputs outputs recv c c') :
    c'.account.received = c.account.received ∨
      ∃ channel packet, recv channel (.ready (.ok packet)) c.account ∧
        c'.account.received = c.account.received ++ [(channel, packet)] := by
  cases h with
  | call hprog hanswer => exact received_after hanswer
  | resume => exact .inl rfl
  | cancel => exact .inl rfl

lemma step_packets (h : Step node ctx inputs outputs recv c c') :
    ∃ more, c'.packets = c.packets ++ more := by
  rcases step_received h with hsame | ⟨channel, packet, -, hmore⟩
  · exact ⟨[], by simp [Config.packets, hsame]⟩
  · exact ⟨[packet], by simp [Config.packets, hmore]⟩

/-- The rest of the step in progress will leave the account settled. -/
def Inv (node : RuleNode) (ctx : NodeContext) (inputs : PortsIn) (outputs : PortsOut)
    (start : UInt64) (a : Surroundings) (c : Config) : Prop :=
  Prog.Wp (around a c.stage).ghost c.prog
    (fun r g => Settled node ctx inputs outputs a start r.1 g r.2) c.account

lemma answer_around {op : PortOp} {answer : op.Answer}
    {k : op.Answer → PortM (UInt64 × Stage)} (hprog : c.prog = .call op k)
    (hanswer : Answers recv c op answer) (hquiet : c.Quiet) (htoken : token c.cancelled)
    (hclear : node.Clear ctx (Sendable ctx outputs) start
      ((c.account.after op answer).received.map Prod.snd)) :
    (around (surroundings node ctx outputs start recv token) c.stage).can op answer c.account := by
  -- what a channel gives can be sent, as it is the last of the packets received
  have hrecv (channel : ℕ) (polled : Poll (Except RecvError PortPacket))
      (hgiven : recv channel polled c.account)
      (hafter : ∀ packet, polled = .ready (.ok packet) →
        (c.account.after op answer).received = c.account.received ++ [(channel, packet)]) :
      (surroundings node ctx outputs start recv token).recv channel polled c.account := by
    refine ⟨hgiven, fun packet hpacket portId hrouted => ?_⟩
    have hlast := hclear
    rw [hafter packet hpacket, List.map_append, List.map_singleton] at hlast
    simpa using hlast.last hrouted
  cases op with
  | tryReserve channel => exact hanswer
  | tryRecv channel =>
    have hgiven := hrecv channel (.ready answer) hanswer (by rintro packet ⟨⟩; rfl)
    cases hstage : c.stage <;> exact hgiven
  | pollRecv channel =>
    have hgiven := hrecv channel answer hanswer (by rintro packet rfl; rfl)
    cases hstage : c.stage <;> exact hgiven
  | isCancelled =>
    obtain rfl : answer = c.cancelled := hanswer
    cases hstage : c.stage with
    | sending send => exact hquiet send k hstage hprog
    | receiving polled => exact htoken
    | between => exact htoken
    | returned result => exact htoken
  | permitSend channel packet => trivial
  | permitAbort channel => trivial
  | len channel => trivial
  | record r => trivial

/-- **Along every quiet run the account is being settled**, as long as its packets can be sent
where they are routed to. -/
theorem inv_of_reached
    (h : Reached node ctx inputs outputs start recv (fun c => c.Quiet ∧ token c.cancelled) c)
    (hclear : node.Clear ctx (Sendable ctx outputs) start c.packets) :
    Inv node ctx inputs outputs start (surroundings node ctx outputs start recv token) c := by
  induction h with
  | refl =>
    refine step_settled surroundings_givesClear _ ⟨?_, rfl, ?_⟩
    · simp [Config.initial, Account.holding]
    · simp [Config.initial, Account.holding]
  | @tail c c' hc hstep ih =>
    obtain ⟨hstep, hquiet, htoken⟩ := hstep
    obtain ⟨more, hmore⟩ := step_packets hstep
    have hinv := ih (Clear.of_append (hmore ▸ hclear))
    cases hstep with
    | @call op k answer hprog hanswer =>
      rw [Inv, hprog] at hinv
      exact hinv.2 answer (answer_around hprog hanswer hquiet htoken hclear)
    | resume hprog hreturned =>
      rw [Inv, hprog] at hinv
      exact step_settled surroundings_givesClear _ hinv
    | cancel => exact hinv

/-- What a returned run leaves: all packets delivered, and an ending. -/
lemma settled_of_returns (token : Bool → Prop) {result : Except PureflowError Unit}
    (h : Reached node ctx inputs outputs start recv (fun c => c.Quiet ∧ token c.cancelled) c)
    (hreturns : c.Returns result)
    (hclear : node.Clear ctx (Sendable ctx outputs) start c.packets) :
    c.account.committed = node.deliveries ctx outputs start c.packets ∧
      Ending node ctx inputs (surroundings node ctx outputs start recv token) c.account result := by
  obtain ⟨counter, hprog⟩ := hreturns
  have hinv := inv_of_reached h hclear
  rw [Inv, hprog] at hinv
  exact hinv

lemma mem_deliveries {before after : List PortPacket} {packet forwarded : PortPacket}
    {portId : PortId} {channel : ℕ} (hrouted : node.routedTo ctx packet = some portId)
    (hforwarded : forwardPacket ctx portId (start + .ofNat before.length) packet = .ok forwarded)
    (hchannel : channel ∈ outputs.channels portId) :
    (channel, forwarded) ∈ node.deliveries ctx outputs start (before ++ packet :: after) := by
  have hdelivery : (channel, forwarded) ∈
      node.delivery ctx outputs (start + .ofNat before.length) packet := by
    simp only [delivery, hrouted, hforwarded]
    exact List.mem_map_of_mem hchannel
  refine List.mem_flatMap.mpr ⟨(packet, before.length), ?_, hdelivery⟩
  rw [List.zipIdx_append, List.mem_append]
  exact .inr (by simp)

end Reached

end RuleNode

end Pureflow.Rules
