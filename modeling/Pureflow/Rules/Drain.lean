import Pureflow.Core.Protocol
import Pureflow.Rules.NodeRuns

/-!
A rule node drains: what it has received it sends on before it returns.

The guarantee asks that no poll of a send meets a requested cancellation. A send looks at the
token on every poll, so a cancellation between the receive of a packet and its send loses the
packet.
-/

namespace Pureflow.Rules.RuleNode

open Pureflow.Types Pureflow.Core Pureflow.Lib

section Progress

variable {node : RuleNode} {ctx : NodeContext} {inputs : PortsIn} {outputs : PortsOut}
  {start : UInt64} {recv : ℕ → Poll (Except RecvError PortPacket) → Account → Prop}
  {condition : Config → Prop} {c c' : Config} {a : Surroundings} {g : Account}

/-- The turns a stage still takes, waits apart, before the node receives again. -/
def owed : Stage → ℕ
  | .sending _ => 2
  | .between => 1
  | _ => 0

/-- A turn is paid for by a packet received, by a wait, or by what was owed for the last packet. -/
def Paid (stage : Stage) (n : ℕ) (next : Stage) (g : Account) : Prop :=
  next.isReturned = false →
    owed next + 1 + 3 * n ≤ owed stage + (if stage.waits next then 1 else 0) + 3 * g.received.length

lemma executeAction_paid (action : RuleAction) (counter : UInt64) (packet : PortPacket)
    (polled : Bool) {n : ℕ} (hn : g.received.length = n + 1) :
    Paid (.receiving polled) n (executeAction action ctx counter packet) g := by
  have hsend (portId : PortId) (reason : Option String) :
      Paid (.receiving polled) n (startSend ctx portId counter packet reason) g := by
    unfold startSend
    split
    · intro hreturned
      cases hreturned
    · intro _
      simp only [owed, hn]
      omega
  cases action with
  | route portId => exact hsend portId none
  | deadLetter reason => exact hsend deadLetterPort (some reason)
  | drop =>
    intro _
    simp only [executeAction, owed, hn]
    omega
  | tag key value =>
    intro _
    simp only [executeAction, owed, hn]
    omega
  | halt message =>
    intro hreturned
    cases hreturned

lemma receiving_paid (counter : UInt64) (polled : Bool) :
    Prog.Wp a.ghost (node.step ctx inputs outputs counter (.receiving polled))
      (fun r g' => Paid (.receiving polled) g.received.length r.2 g') g := by
  have hreturned (result : Except PureflowError Unit) (g' : Account) :
      Paid (.receiving polled) g.received.length (.returned result) g' := by
    intro h
    cases h
  rw [step, Prog.wp_bind]
  cases hport : PortHandle.find inputs.ports inPort with
  | none =>
    have hpoll : pollInput inputs polled = .ret (.ready (.error (.unknownPort inPort))) := by
      unfold pollInput PortsIn.recv
      rw [hport]
      cases polled <;> rfl
    rw [hpoll]
    exact hreturned _ g
  | some port =>
    refine (pollInput_answered polled hport).mono fun r g' hr => ?_
    rcases r with (err | _ | packet) | _
    · cases err <;> exact hreturned _ g'
    · exact hreturned _ g'
    · obtain ⟨r, -, -, rfl⟩ := hr
      obtain ⟨decision, hdecision⟩ := evaluate_ok node.ruleSet packet (evalContext ctx packet)
      simp only [process, hdecision, Prog.wp_bind]
      refine wp_of_ledger (wp_record (executeAction_paid decision.action counter packet polled ?_))
      simp
    · rw [show g' = g from hr]
      intro _
      simp only [owed, Stage.waits, if_true]
      omega

lemma sending_paid (counter : UInt64) (send : PendingSend) :
    Prog.Wp a.ghost (node.step ctx inputs outputs counter (.sending send))
      (fun r g' => Paid (.sending send) g.received.length r.2 g') g := by
  rw [step, Prog.wp_bind]
  refine (wp_of_ledger (send_spec outputs send.portId send.packet)).mono fun r g' hr => ?_
  rcases r with (err | ⟨⟩) | _
  · intro hreturned
    cases hreturned
  · rw [show g' = _ from hr]
    intro _
    simp only [owed]
    omega
  · rw [show g' = g from hr]
    intro _
    simp only [owed, Stage.waits, if_true]
    omega

/-- **Every turn is paid for.** -/
theorem step_paid (counter : UInt64) (stage : Stage) :
    Prog.Wp a.ghost (node.step ctx inputs outputs counter stage)
      (fun r g' => Paid stage g.received.length r.2 g') g := by
  cases stage with
  | receiving polled => exact receiving_paid counter polled
  | sending send => exact sending_paid counter send
  | between =>
    rw [step, Prog.wp_bind]
    refine ⟨trivial, fun cancelled _ => ?_⟩
    cases cancelled with
    | true =>
      intro hreturned
      cases hreturned
    | false =>
      intro _
      show 0 + 1 + 3 * g.received.length ≤ 1 + _ + 3 * g.received.length
      omega
  | returned result =>
    intro hreturned
    cases hreturned

lemma receiving_stalls (counter : UInt64) (polled : Bool) {stalled : Bool} :
    Prog.Wp stalls (node.step ctx inputs outputs counter (.receiving polled))
      (fun r b => (Stage.receiving polled).waits r.2 = true → b = true) stalled := by
  have hpoll : Prog.Wp stalls (pollInput inputs polled) (fun r b => r = .pending → b = true)
      stalled := by
    unfold pollInput
    split
    · exact recvPoll_stalls inputs _
    · exact portsIn_recv_stalls inputs inPort
  have hsend (portId : PortId) (packet : PortPacket) (reason : Option String) (b : Bool) :
      (Stage.receiving polled).waits (startSend ctx portId counter packet reason) = true →
        b = true := by
    unfold startSend
    split <;> exact fun h => absurd h Bool.false_ne_true
  rw [step, Prog.wp_bind]
  refine hpoll.mono fun r b hr => ?_
  rcases r with (err | _ | packet) | _
  · cases err <;> exact fun h => absurd h Bool.false_ne_true
  · exact fun h => absurd h Bool.false_ne_true
  · obtain ⟨decision, hdecision⟩ := evaluate_ok node.ruleSet packet (evalContext ctx packet)
    simp only [process, hdecision, Prog.wp_bind]
    refine stalls_of_forall (fun _ b => ?_) _
    cases decision.action with
    | route portId => exact hsend portId packet none b
    | deadLetter reason => exact hsend deadLetterPort packet (some reason) b
    | _ => exact fun h => absurd h Bool.false_ne_true
  · exact fun _ => hr rfl

/-- **A step that waits met a channel that stalled.** -/
theorem step_stalls (counter : UInt64) (stage : Stage) {stalled : Bool} :
    Prog.Wp stalls (node.step ctx inputs outputs counter stage)
      (fun r b => stage.waits r.2 = true → b = true) stalled := by
  cases stage with
  | receiving polled => exact receiving_stalls counter polled
  | sending send =>
    rw [step, Prog.wp_bind]
    refine (send_stalls outputs send.portId send.packet).mono fun r b hr => ?_
    rcases r with (err | ⟨⟩) | _
    · exact fun h => absurd h Bool.false_ne_true
    · exact fun h => absurd h Bool.false_ne_true
    · exact fun _ => hr rfl
  | between =>
    rw [step, Prog.wp_bind]
    refine stalls_of_forall (fun cancelled b => ?_) _
    cases cancelled <;> exact fun h => absurd h Bool.false_ne_true
  | returned result => exact fun h => absurd h Bool.false_ne_true

/-- Surroundings that may answer anything. -/
def anything : Surroundings := ⟨fun _ => True, fun _ _ _ => True⟩

/-- The turns so far are paid for, and so will be the one in progress; if it waits, then for a
channel. -/
structure Funded (c : Config) : Prop where
  owed : owed c.stage + c.turns ≤ c.waits + 3 * c.account.received.length
  rest : Prog.Wp anything.ghost c.prog (fun r g => r.2.isReturned = false →
    RuleNode.owed r.2 + (c.turns + 1) ≤
      c.waits + (if c.stage.waits r.2 then 1 else 0) + 3 * g.received.length) c.account
  stalls : Prog.Wp stalls c.prog (fun r b => c.stage.waits r.2 = true → b = true) c.stalled

lemma funded_of_owed {counter : UInt64} (hprog : c.prog = node.step ctx inputs outputs counter c.stage)
    (h : owed c.stage + c.turns ≤ c.waits + 3 * c.account.received.length) : Funded c := by
  refine ⟨h, ?_, ?_⟩
  · rw [hprog]
    refine (step_paid counter c.stage).mono fun r g hpaid hreturned => ?_
    have := hpaid hreturned
    omega
  · rw [hprog]
    exact step_stalls counter c.stage

lemma step_funded (hstep : Step node ctx inputs outputs recv c c') (h : Funded c) : Funded c' := by
  obtain ⟨howed, hrest, hstalls⟩ := h
  cases hstep with
  | @call op k answer hprog hanswer =>
    rw [hprog] at hrest hstalls
    refine ⟨?_, hrest.2 answer ?_, hstalls.2 answer trivial⟩
    · show owed c.stage + c.turns ≤ c.waits + 3 * (c.account.after op answer).received.length
      rcases received_after hanswer with hsame | ⟨channel, packet, -, hmore⟩
      · rw [hsame]
        exact howed
      · rw [hmore, List.length_append, List.length_singleton]
        omega
    · cases op with
      | tryReserve channel => exact hanswer
      | _ => trivial
  | @resume counter stage hprog hreturned =>
    rw [hprog] at hrest hstalls
    have hwaits : (c.stalled && c.stage.waits stage) = c.stage.waits stage := by
      cases hstage : c.stage.waits stage with
      | false => exact Bool.and_false _
      | true => rw [hstalls hstage, Bool.true_and]
    refine funded_of_owed rfl ?_
    rw [hwaits]
    exact hrest hreturned
  | cancel => exact ⟨howed, hrest, hstalls⟩

/-- **The node never spins**: apart from waits it takes at most three turns for each packet it
receives. -/
theorem turns_le (h : Reached node ctx inputs outputs start recv condition c) :
    c.turns ≤ c.waits + 3 * c.packets.length := by
  have hfunded : Funded c := by
    induction h with
    | refl =>
      have hprog : (Config.initial node ctx inputs outputs start).prog =
          node.step ctx inputs outputs start (.receiving false) := rfl
      exact funded_of_owed hprog (Nat.zero_le _)
    | tail _ hstep ih => exact step_funded hstep.1 ih
  have := hfunded.owed
  simp only [Config.packets, List.length_map]
  omega

/-- A run that goes on forever, and is never cancelled. -/
structure Endless (node : RuleNode) (ctx : NodeContext) (inputs : PortsIn) (outputs : PortsOut)
    (recv : ℕ → Poll (Except RecvError PortPacket) → Account → Prop) (run : ℕ → Config) : Prop where
  step (k : ℕ) : Step node ctx inputs outputs recv (run k) (run (k + 1))
  uncancelled (k : ℕ) : (run k).cancelled = false

variable {run : ℕ → Config}

lemma Endless.reached (h : Endless node ctx inputs outputs recv run)
    (hstart : Reached node ctx inputs outputs start recv (fun c => c.cancelled = false) (run 0))
    (k : ℕ) : Reached node ctx inputs outputs start recv (fun c => c.cancelled = false) (run k) := by
  induction k with
  | zero => exact hstart
  | succ k ih => exact .tail ih ⟨h.step k, h.uncancelled k⟩

lemma Endless.turns (h : Endless node ctx inputs outputs recv run) (k : ℕ) :
    ((run (k + 1)).turns = (run k).turns ∧ Prog.Next (run (k + 1)).prog (run k).prog) ∨
      (run (k + 1)).turns = (run k).turns + 1 := by
  have hstep := h.step k
  have huncancelled := h.uncancelled (k + 1)
  generalize run (k + 1) = c' at hstep huncancelled ⊢
  cases hstep with
  | call hprog => exact .inl ⟨rfl, _, _, _, hprog, rfl⟩
  | resume => exact .inr rfl
  | cancel => cases huncancelled

/-- **A node that never returns waits for its channels**, again and again, if no more than a number
of packets arrive. -/
theorem Endless.waits (h : Endless node ctx inputs outputs recv run)
    (hstart : Reached node ctx inputs outputs start recv (fun c => c.cancelled = false) (run 0))
    {arrivals : ℕ} (hpackets : ∀ k, (run k).packets.length ≤ arrivals) (n : ℕ) :
    ∃ k, n ≤ (run k).waits := by
  obtain ⟨k, hk⟩ := Prog.turns_unbounded (fun k => (run k).prog) (fun k => (run k).turns) h.turns
    (n + 3 * arrivals)
  have hturns := turns_le (h.reached hstart k)
  have := hpackets k
  exact ⟨k, by omega⟩

end Progress

section Drain

/-- **Drain guarantee.** In a run where no poll of a send meets a requested cancellation, wherever
else cancellation is requested: the node goes on, but for waits and further packets, and once it has
returned, every packet it received is committed to every edge of the port it is routed to, provided
the port is declared, the id minted for it fits and the validator of the ports accepts it. -/
theorem drained_of_quiet (node : RuleNode) (ctx : NodeContext) (inputs : PortsIn)
    (outputs : PortsOut) (start : UInt64)
    (recv : ℕ → Poll (Except RecvError PortPacket) → Account → Prop) (c : Config)
    (h : Reached node ctx inputs outputs start recv Config.Quiet c)
    (hclear : node.Clear ctx (Sendable ctx outputs) start c.packets) :
    c.turns ≤ c.waits + 3 * c.packets.length ∧
    ∀ result, c.Returns result → ∀ before packet after, c.packets = before ++ packet :: after →
      ∀ portId, node.routedTo ctx packet = some portId →
        ∃ forwarded, forwardPacket ctx portId (start + .ofNat before.length) packet = .ok forwarded ∧
          ∀ channel ∈ outputs.channels portId, (channel, forwarded) ∈ c.account.committed := by
  refine ⟨turns_le h, ?_⟩
  intro result hreturns before packet after hpackets portId hrouted
  have hrun : Reached node ctx inputs outputs start recv (fun c => c.Quiet ∧ True) c :=
    h.mono fun _ hquiet => ⟨hquiet, trivial⟩
  have hcommitted := (settled_of_returns (fun _ => True) hrun hreturns hclear).1
  have hsend := hclear before packet after hpackets portId hrouted
  obtain ⟨forwarded, hforwarded⟩ := forwardPacket_ok hsend.fits packet
  refine ⟨forwarded, hforwarded, fun channel hchannel => ?_⟩
  rw [hcommitted, hpackets]
  exact mem_deliveries hrouted hforwarded hchannel

/-- A node that routes everything to `out`. -/
def sampleNode : RuleNode where
  ruleSet := ⟨"everything", .firstMatch, [], .route ⟨"out", port_out_valid⟩, false⟩
  metadataSink := false
  jsonText _ := ""

def sampleContext : NodeContext :=
  .new ⟨"flow", workflow_flow_valid⟩ ⟨"router", node_router_valid⟩
    (.firstAttempt ⟨"run-1", execution_run_valid⟩)

def sampleInputs : PortsIn := .fromHandles [inPort] [.connected inPort ⟨0, 1⟩]

def sampleOutputs : PortsOut :=
  .fromHandles [⟨"out", port_out_valid⟩] [.connected ⟨"out", port_out_valid⟩ ⟨1, 1⟩]

lemma sample_clear :
    sampleNode.Clear sampleContext (Sendable sampleContext sampleOutputs) 0
      [System.samplePacket] := by
  intro before packet after heq portId hrouted
  obtain ⟨rfl, hrest⟩ | ⟨rest, -, hrest⟩ := List.cons_eq_append_iff.mp heq
  · obtain ⟨rfl, rfl⟩ := List.cons.inj hrest
    obtain rfl : ⟨"out", by decide⟩ = portId := Option.some.inj hrouted
    exact ⟨rfl, by decide, by simp [sampleOutputs, PortsOut.fromHandles]⟩
  · simp at hrest

/-- The run on one packet, to the end of its input. -/
lemma sample_reached (recv : ℕ → Poll (Except RecvError PortPacket) → Account → Prop)
    (hfirst : ∀ g, g.received = [] → recv 0 (.ready (.ok System.samplePacket)) g)
    (hend : ∀ g, g.received = [(0, System.samplePacket)] →
      recv 0 (.ready (.error .disconnected)) g) : ∃ c,
    Reached sampleNode sampleContext sampleInputs sampleOutputs 0 recv
      (fun c => c.cancelled = false) c ∧
    c.Returns (.ok ()) ∧ c.packets = [System.samplePacket] := by
  have h₀ : Reached sampleNode sampleContext sampleInputs sampleOutputs 0 recv
      (fun c => c.cancelled = false)
      (.initial sampleNode sampleContext sampleInputs sampleOutputs 0) := .refl
  have h₁ := h₀.call .isCancelled false rfl rfl rfl
  have h₂ := h₁.call (.pollRecv 0) (.ready (.ok System.samplePacket)) rfl rfl (hfirst _ rfl)
  have h₃ := h₂.resume _ rfl rfl rfl
  have h₄ := h₃.call .isCancelled false rfl rfl rfl
  have h₅ := h₄.call (.tryReserve 1) (.ok ()) rfl rfl (.inl rfl)
  have h₆ := h₅.call (.permitSend 1 _) () rfl rfl trivial
  have h₇ := h₆.resume .between rfl rfl rfl
  have h₈ := h₇.call .isCancelled false rfl rfl rfl
  have h₉ := h₈.resume (.receiving false) rfl rfl rfl
  have h₁₀ := h₉.call .isCancelled false rfl rfl rfl
  have h₁₁ := h₁₀.call (.pollRecv 0) (.ready (.error .disconnected)) rfl rfl (hend _ rfl)
  exact ⟨_, h₁₁, ⟨_, rfl⟩, rfl⟩

theorem drained_sample : ∃ c forwarded,
    Reached sampleNode sampleContext sampleInputs sampleOutputs 0 (fun _ _ _ => True)
      Config.Quiet c ∧
    c.Returns (.ok ()) ∧ c.packets = [System.samplePacket] ∧
    forwardPacket sampleContext ⟨"out", by decide⟩ 0 System.samplePacket = .ok forwarded ∧
    (1, forwarded) ∈ c.account.committed := by
  obtain ⟨c, hrun, hreturns, hpackets⟩ :=
    sample_reached (fun _ _ _ => True) (fun _ _ => trivial) fun _ _ => trivial
  have hquiet := hrun.mono (q := Config.Quiet) fun _ hcancelled _ _ _ _ => hcancelled
  have hclear : sampleNode.Clear sampleContext (Sendable sampleContext sampleOutputs) 0
      c.packets := hpackets ▸ sample_clear
  obtain ⟨forwarded, hforwarded, hcommitted⟩ :=
    (drained_of_quiet _ _ _ _ _ _ c hquiet hclear).2 (.ok ()) hreturns [] System.samplePacket []
      hpackets ⟨"out", by decide⟩ rfl
  exact ⟨c, forwarded, hquiet, hreturns, hpackets, hforwarded, hcommitted 1 (by decide)⟩

/-- The packet is received, and cancellation is requested before its send is first polled. -/
theorem cancelled_before_send : ∃ c result,
    Reached sampleNode sampleContext sampleInputs sampleOutputs 0 (fun _ _ _ => True)
      (fun _ => True) c ∧
    c.Returns result ∧ c.packets = [System.samplePacket] ∧
    sampleNode.Clear sampleContext (Sendable sampleContext sampleOutputs) 0 c.packets ∧
    sampleNode.routedTo sampleContext System.samplePacket = some ⟨"out", by decide⟩ ∧
    sampleOutputs.channels ⟨"out", by decide⟩ = [1] ∧ c.account.committed = [] := by
  have h₀ : Reached sampleNode sampleContext sampleInputs sampleOutputs 0 (fun _ _ _ => True)
      (fun _ => True) (.initial sampleNode sampleContext sampleInputs sampleOutputs 0) := .refl
  have h₁ := h₀.call .isCancelled false trivial rfl rfl
  have h₂ := h₁.call (.pollRecv 0) (.ready (.ok System.samplePacket)) trivial rfl trivial
  have h₃ := h₂.resume _ trivial rfl rfl
  have h₄ := h₃.tail ⟨.cancel, trivial⟩
  have h₅ := Reached.call h₄ .isCancelled true trivial rfl rfl
  exact ⟨_, _, h₅, ⟨_, rfl⟩, rfl, sample_clear, rfl, rfl, rfl⟩

end Drain

end Pureflow.Rules.RuleNode
