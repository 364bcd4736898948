import Pureflow.Core.Network
import Pureflow.Engine.Contracts
import Pureflow.Wasm.RuleNode

/-!
Rule nodes as nodes of a network.

Between two turns a rule node holds no reservation. It receives on the channels of its port `in`
only, and what it commits to the channels of a port is a copy that names this port.
-/

namespace Pureflow.Wasm

open Std Pureflow.Types Pureflow.Core Pureflow.Lib Pureflow.Rules

section Discipline

/-- A call that moves nothing. -/
def Silent : PortOp → Prop
  | .isCancelled | .record _ => True
  | _ => False

variable {inputs : PortsIn} {outputs : PortsOut} {loop : RuleLoop} {g : Account}

lemma wp_silent {α : Type} {p : PortM α} (h : p.Calls Silent) :
    Prog.Wp ledger p (fun _ g' => g' = g) g := by
  induction p with
  | ret a => rfl
  | call op k ih =>
    have hafter (answer : op.Answer) : g.after op answer = g ∧ g.allows op := by
      cases op <;> first | exact ⟨rfl, trivial⟩ | cases h.1
    refine ⟨?_, fun answer _ => ?_⟩
    · cases op <;> first | exact trivial | cases h.1
    · show Prog.Wp ledger (k answer) _ (g.after op answer)
      rw [(hafter answer).1]
      exact ih answer (h.2 answer)

lemma pollInput_wp (polled : Bool) :
    Prog.Wp ledger (RuleNode.pollInput inputs polled) (PollReceived g) g := by
  unfold RuleNode.pollInput
  split
  · exact recvPoll_spec inputs _
  · exact portsIn_recv_spec inputs inPort

lemma step_disciplined (hprocess : ∀ counter packet, (loop.process counter packet).Calls Silent)
    (s : LoopState) (hheld : g.held = 0) :
    Prog.Wp ledger (loop.step inputs outputs s) (fun _ g' => g'.held = 0) g := by
  obtain ⟨counter, stage⟩ := s
  cases stage with
  | receiving polled =>
    rw [RuleLoop.step, Prog.wp_bind]
    refine (pollInput_wp polled).mono fun poll g' hpoll => ?_
    rcases poll with (err | _ | packet) | _
    · cases hpoll
      cases err <;> exact hheld
    · cases hpoll
      exact hheld
    · obtain ⟨c, rfl⟩ := hpoll
      exact (wp_silent (hprocess counter packet)).mono fun _ g'' h => by rw [h]; exact hheld
    · cases hpoll
      exact hheld
  | sending send =>
    rw [RuleLoop.step, Prog.wp_bind]
    refine (send_spec outputs send.portId send.packet).mono fun poll g' hpoll => ?_
    rcases poll with (err | ⟨⟩) | _
    · cases hpoll
      exact hheld
    · cases hpoll
      exact hheld
    · cases hpoll
      exact hheld
  | between =>
    rw [RuleLoop.step, Prog.wp_bind, wp_isCancelled]
    intro cancelled
    cases cancelled <;> exact hheld
  | returned result => exact hheld

end Discipline

section Future

variable (node : RuleExecutor) (ctx : NodeContext) (inputs : PortsIn) (outputs : PortsOut)

lemma RuleExecutor.process_silent (counter : UInt64) (packet : PortPacket) :
    ((node.loop ctx).process counter packet).Calls Silent := by
  cases node with
  | native node =>
    show (node.process ctx counter packet).Calls Silent
    unfold RuleNode.process
    split
    · exact trivial
    · exact Prog.calls_bind (calls_record (by exact trivial) _) fun _ => trivial
  | wasm node =>
    have hevaluate : (node.component.evaluateWithCancellation node.request node.ruleSet
        (buildHostContext ctx packet)).Calls Silent := by
      refine Prog.calls_bind (Prog.calls_perform trivial) fun cancelled => ?_
      cases cancelled with
      | true => exact trivial
      | false =>
        simp only [Bool.false_eq_true, if_false]
        split
        · exact trivial
        · refine Prog.calls_bind (Prog.calls_perform trivial) fun late => ?_
          cases late <;> exact trivial
    refine Prog.calls_bind hevaluate fun answer => ?_
    rcases answer with e | decision
    · exact trivial
    · exact Prog.calls_bind (calls_record (by exact trivial) _) fun _ => trivial

/-- The future of a rule node whose counter stands at `start`. -/
def RuleExecutor.future (start : UInt64) : Future where
  Stage := LoopState
  start := (start, .receiving false)
  step := (node.loop ctx).step inputs outputs
  result
    | (_, .returned result) => some result
    | _ => none
  holds _ := 0
  holds_start := Future.holds_nothing
  disciplined s _ hheld := step_disciplined (node.process_silent ctx) s hheld

/-- The calls a node can make on its ports. -/
def Owns : PortOp → Prop
  | .tryReserve c | .permitAbort c | .permitSend c _ => ∃ portId, c ∈ outputs.channels portId
  | .tryRecv c | .pollRecv c | .len c => ∃ portId, c ∈ inputs.channels portId
  | .isCancelled | .record _ => True

/-- The calls of a rule node on its ports: it receives on `in`, which it then has, and commits
copies, each to the port it names. -/
def RuleCalls : PortOp → Prop
  | .permitSend c packet => inPort ∈ inputs.ports.map (·.portId) ∧
    ∃ portId seq incoming, c ∈ outputs.channels portId ∧
      forwardPacket ctx portId seq incoming = .ok packet
  | .tryRecv c | .pollRecv c => c ∈ inputs.channels inPort
  | op => Owns inputs outputs op

/-- A send that is waited for is that of a copy for its port, and the node has received on `in`. -/
def RuleStage (s : LoopState) : Prop :=
  ∀ send, s.2 = .sending send → inPort ∈ inputs.ports.map (·.portId) ∧
    ∃ seq incoming, forwardPacket ctx send.portId seq incoming = .ok send.packet

variable {node ctx inputs outputs}

lemma ruleCalls_of_silent {op : PortOp} (h : Silent op) : RuleCalls ctx inputs outputs op := by
  cases op with
  | isCancelled | record _ => exact trivial
  | _ => cases h

lemma ruleCalls_of_receiving {op : PortOp} {token : Bool}
    (h : op.Receiving (inputs.channels inPort) token) : RuleCalls ctx inputs outputs op := by
  cases op with
  | pollRecv c => exact h
  | len c => exact ⟨inPort, h⟩
  | isCancelled | record _ => exact trivial
  | _ => cases h

lemma ruleCalls_of_sending {op : PortOp} {send : PendingSend}
    (hstage : inPort ∈ inputs.ports.map (·.portId) ∧
      ∃ seq incoming, forwardPacket ctx send.portId seq incoming = .ok send.packet)
    (h : op.Sending (outputs.channels send.portId) send.packet) :
    RuleCalls ctx inputs outputs op := by
  cases op with
  | tryReserve c | permitAbort c => exact ⟨send.portId, h⟩
  | permitSend c sent =>
    obtain ⟨hc, rfl⟩ := h
    obtain ⟨hin, seq, incoming, hforward⟩ := hstage
    exact ⟨hin, send.portId, seq, incoming, hc, hforward⟩
  | isCancelled | record _ => exact trivial
  | _ => cases h

lemma pollInput_receiving (inputs : PortsIn) (polled : Bool) :
    (RuleNode.pollInput inputs polled).Calls (PortOp.Receiving (inputs.channels inPort) true) := by
  unfold RuleNode.pollInput
  split
  · next port hport => exact (receiving_recv inputs inPort).2 port hport
  · exact (receiving_recv inputs inPort).1

lemma pollInput_declared (inputs : PortsIn) (polled : Bool) :
    (RuleNode.pollInput inputs polled).Ends fun poll =>
      ∀ packet, poll = .ready (.ok (some packet)) → inPort ∈ inputs.ports.map (·.portId) := by
  cases hport : PortHandle.find inputs.ports inPort with
  | none =>
    have hunknown : RuleNode.pollInput inputs polled =
        .ret (.ready (.error (.unknownPort inPort))) := by
      unfold RuleNode.pollInput PortsIn.recv
      rw [hport]
      cases polled <;> rfl
    rw [hunknown]
    rintro packet ⟨⟩
  | some port =>
    have hmem := List.mem_map_of_mem (f := (·.portId)) (List.mem_of_find?_eq_some hport)
    have hid : port.portId = inPort := by simpa using List.find?_some hport
    rw [hid] at hmem
    exact Prog.ends_of_forall (fun _ _ _ => hmem) _

/-- **What a rule node calls**, and that it stays in its stages. -/
theorem RuleExecutor.keeps (node : RuleExecutor) (ctx : NodeContext) (inputs : PortsIn)
    (outputs : PortsOut) (start : UInt64) :
    (node.future ctx inputs outputs start).Keeps (RuleCalls ctx inputs outputs)
      (RuleStage ctx inputs) := by
  refine ⟨by rintro send ⟨⟩, fun s hstage => ?_⟩
  obtain ⟨counter, stage⟩ := s
  cases stage with
  | receiving polled =>
    constructor
    · refine Prog.calls_bind ((pollInput_receiving inputs polled).mono
        fun _ => ruleCalls_of_receiving) fun poll => ?_
      rcases poll with (err | _ | packet) | _
      · cases err <;> exact trivial
      · exact trivial
      · exact (node.process_silent ctx counter packet).mono fun _ => ruleCalls_of_silent
      · exact trivial
    · show ((node.loop ctx).step inputs outputs (counter, .receiving polled)).Ends _
      rw [RuleLoop.step, Prog.ends_bind]
      refine (pollInput_declared inputs polled).mono fun poll hdeclared => ?_
      rcases poll with (err | _ | packet) | _
      · cases err <;> rintro send ⟨⟩
      · rintro send ⟨⟩
      · refine (node.process_cases ctx counter packet).mono fun s hhandled send hsend => ?_
        obtain ⟨counter', stage⟩ := s
        obtain rfl : stage = .sending send := hsend
        exact ⟨hdeclared packet rfl, counter, packet, hhandled.sending.2⟩
      · rintro send ⟨⟩
  | sending send =>
    have hsend := hstage send rfl
    constructor
    · refine Prog.calls_bind ((sending_send outputs send.portId send.packet).mono
        fun _ => ruleCalls_of_sending hsend) fun poll => ?_
      rcases poll with (err | ⟨⟩) | _ <;> exact trivial
    · show ((node.loop ctx).step inputs outputs (counter, .sending send)).Ends _
      rw [RuleLoop.step, Prog.ends_bind]
      refine Prog.ends_of_forall (fun poll => ?_) _
      rcases poll with (err | ⟨⟩) | _
      · rintro other ⟨⟩
      · rintro other ⟨⟩
      · rintro other ⟨⟩
        exact hsend
  | between =>
    constructor
    · refine Prog.calls_bind (Prog.calls_perform trivial) fun cancelled => ?_
      cases cancelled <;> exact trivial
    · intro cancelled
      cases cancelled <;> rintro send ⟨⟩
  | returned result => exact ⟨trivial, by rintro send ⟨⟩⟩

end Future

end Pureflow.Wasm
