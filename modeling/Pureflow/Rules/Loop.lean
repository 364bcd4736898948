import Pureflow.Core.Confined
import Pureflow.Rules.NodeRuns

/-!
The loop that both kinds of rule node run.

The kinds differ in what they do with a packet they received and in the texts they return. The
rest of the loop, and what one turn of it can do, is said once for both.
-/

namespace Pureflow.Rules

open Std Pureflow.Types Pureflow.Core Pureflow.Lib

/-- A stage of the loop with the packet counter. -/
abbrev LoopState := UInt64 × Stage

/-- What a kind of rule node does with a packet, and what it returns where its input is not
declared or it is cancelled. -/
structure RuleLoop where
  process : UInt64 → PortPacket → PortM LoopState
  undeclared : PortId → PureflowError
  cancelledWaiting : PureflowError
  cancelledAfter : PureflowError

namespace RuleLoop

section Step

variable (loop : RuleLoop) (inputs : PortsIn) (outputs : PortsOut)

/-- From one stage to the next one. -/
def step : LoopState → PortM LoopState
  | (counter, .receiving polled) => do
    match ← RuleNode.pollInput inputs polled with
    | .pending => return (counter, .receiving true)
    | .ready (.ok (some packet)) => loop.process counter packet
    | .ready (.ok none) => return (counter, .returned (.ok ()))
    | .ready (.error (.disconnected _)) => return (counter, .returned (.ok ()))
    | .ready (.error (.unknownPort portId)) =>
      return (counter, .returned (.error (loop.undeclared portId)))
    | .ready (.error (.cancelled _)) =>
      return (counter, .returned (.error loop.cancelledWaiting))
  | (counter, .sending send) => do
    match ← outputs.send send.portId send.packet with
    | .pending => return (counter, .sending send)
    | .ready (.ok ()) => return (counter, .between)
    | .ready (.error e) => return (counter, .returned (.error (send.error e)))
  | (counter, .between) => do
    if ← PortM.isCancelled then return (counter, .returned (.error loop.cancelledAfter))
    else return (counter, .receiving false)
  | (counter, .returned result) => return (counter, .returned result)

/-- The turns a node can run through from its first receive, where its counter stands at
`start`. -/
def Runs (start : UInt64) (turns : List (Prog.Turn PortOp.Answer LoopState)) (s : LoopState) :
    Prop :=
  Prog.Runs (loop.step inputs outputs) (start, .receiving false) turns s

/-- Where a poll of a send leads. -/
def afterSend (counter : UInt64) (send : PendingSend) : Poll (Except PortSendError Unit) → LoopState
  | .pending => (counter, .sending send)
  | .ready (.ok ()) => (counter, .between)
  | .ready (.error e) => (counter, .returned (.error (send.error e)))

/-- All that one turn can do. -/
inductive Turned : LoopState → List PortEvent → LoopState → Prop
  | packet {counter : UInt64} {polled : Bool} {packet : PortPacket}
      {before after : List PortEvent} {s : LoopState} :
    (RuleNode.pollInput inputs polled).Yields before (.ready (.ok (some packet))) →
    (loop.process counter packet).Yields after s →
    Turned (counter, .receiving polled) (before ++ after) s
  | idle {counter : UInt64} {polled : Bool}
      {poll : Poll (Except PortRecvError (Option PortPacket))} {events : List PortEvent}
      {stage : Stage} :
    (RuleNode.pollInput inputs polled).Yields events poll → polledPacket poll = none →
    (stage = .receiving true ∨ ∃ result, stage = .returned result) →
    Turned (counter, .receiving polled) events (counter, stage)
  | send {counter : UInt64} {send : PendingSend} {poll : Poll (Except PortSendError Unit)}
      {events : List PortEvent} :
    (outputs.send send.portId send.packet).Yields events poll →
    Turned (counter, .sending send) events (afterSend counter send poll)
  | between {counter : UInt64} (cancelled : Bool) :
    Turned (counter, .between) [⟨.isCancelled, cancelled⟩]
      (counter, if cancelled then .returned (.error loop.cancelledAfter) else .receiving false)
  | returned {counter : UInt64} {result : Except PureflowError Unit} :
    Turned (counter, .returned result) [] (counter, .returned result)

end Step

section Turns

variable {loop : RuleLoop} {inputs : PortsIn} {outputs : PortsOut} {s s' : LoopState}
  {events : List PortEvent}

/-- **Inversion** of one turn. -/
theorem step_cases (h : (loop.step inputs outputs s).Yields events s') :
    Turned loop inputs outputs s events s' := by
  obtain ⟨counter, stage⟩ := s
  cases stage with
  | receiving polled =>
    rw [step, Prog.yields_bind] at h
    obtain ⟨poll, before, after, rfl, hpoll, h⟩ := h
    rcases poll with (err | _ | packet) | _
    · cases err with
      | disconnected portId | unknownPort portId | cancelled portId =>
        obtain ⟨rfl, rfl⟩ := Prog.yields_ret.mp h
        rw [List.append_nil]
        exact .idle hpoll rfl (.inr ⟨_, rfl⟩)
    · obtain ⟨rfl, rfl⟩ := Prog.yields_ret.mp h
      rw [List.append_nil]
      exact .idle hpoll rfl (.inr ⟨_, rfl⟩)
    · exact .packet hpoll h
    · obtain ⟨rfl, rfl⟩ := Prog.yields_ret.mp h
      rw [List.append_nil]
      exact .idle hpoll rfl (.inl rfl)
  | sending send =>
    rw [step, Prog.yields_bind] at h
    obtain ⟨poll, before, after, rfl, hpoll, h⟩ := h
    have hnext : after = [] ∧ s' = afterSend counter send poll := by
      rcases poll with (err | ⟨⟩) | _ <;> exact Prog.yields_ret.mp h
    obtain ⟨rfl, rfl⟩ := hnext
    rw [List.append_nil]
    exact .send hpoll
  | between =>
    rw [step] at h
    obtain ⟨(cancelled : Bool), rest, rfl, hrest⟩ := Prog.yields_call.mp h
    have hnext : rest = [] ∧ s' = (counter,
        if cancelled then .returned (.error loop.cancelledAfter) else .receiving false) := by
      cases cancelled <;> exact Prog.yields_ret.mp hrest
    obtain ⟨rfl, rfl⟩ := hnext
    exact .between cancelled
  | returned result =>
    obtain ⟨rfl, rfl⟩ := Prog.yields_ret.mp h
    exact .returned

lemma pollInput_polled {polled : Bool}
    {poll : Poll (Except PortRecvError (Option PortPacket))}
    (h : (RuleNode.pollInput inputs polled).Yields events poll) :
    (receivedIn events).map Prod.snd = (polledPacket poll).toList ∧
      ∀ e ∈ events, e.1.Receiving (inputs.channels inPort) true := by
  unfold RuleNode.pollInput at h
  split at h
  · next port hport =>
    exact ⟨receivedIn_of_polled h (recvPoll_spec inputs port),
      h.calls ((receiving_recv inputs inPort).2 port hport)⟩
  · exact ⟨receivedIn_of_polled h (portsIn_recv_spec inputs inPort),
      h.calls (receiving_recv inputs inPort).1⟩

lemma pollInput_sees {polled : Bool} {packet : PortPacket}
    (h : (RuleNode.pollInput inputs polled).Yields events (.ready (.ok (some packet)))) :
    ¬ SeesRequest events := by
  unfold RuleNode.pollInput at h
  split at h
  · exact recvPoll_sees h
  · exact recv_sees h

end Turns

end RuleLoop

lemma executeAction_sending {action : RuleAction} {ctx : NodeContext} {seq : UInt64}
    {packet : PortPacket} {send : PendingSend}
    (h : executeAction action ctx seq packet = .sending send) :
    forwardPacket ctx send.portId seq packet = .ok send.packet := by
  have hstart {portId : PortId} {reason : Option String}
      (h : startSend ctx portId seq packet reason = .sending send) :
      forwardPacket ctx send.portId seq packet = .ok send.packet := by
    unfold startSend at h
    split at h
    · cases h
    · next forwarded hforwarded =>
      cases h
      exact hforwarded
  cases action with
  | route portId => exact hstart h
  | deadLetter reason => exact hstart h
  | drop | tag key value | halt message => cases h

/-- The native rule node's part in the loop. -/
def RuleNode.loop (node : RuleNode) (ctx : NodeContext) : RuleLoop where
  process := node.process ctx
  undeclared portId := .execution s!"rule node: input port `{portId}` not declared"
  cancelledWaiting := .cancellation "rule node cancelled while waiting for input"
  cancelledAfter := .cancellation "rule node cancelled after processing packet"

/-- The native rule node runs the loop. -/
theorem RuleNode.step_eq_loop (node : RuleNode) (ctx : NodeContext) (inputs : PortsIn)
    (outputs : PortsOut) (counter : UInt64) (stage : Stage) :
    node.step ctx inputs outputs counter stage =
      (node.loop ctx).step inputs outputs (counter, stage) := by
  cases stage <;> rfl

end Pureflow.Rules
