import Pureflow.Engine.Contracts
import Pureflow.Rules.Drain

/-!
Routing conservation: what a rule node puts on its output ports, for whatever arrives at its input
port, in a run that is not cancelled.
-/

namespace Pureflow.Rules.RuleNode

open Std Pureflow.Types Pureflow.Core Pureflow.Lib Pureflow.Engine
open Pureflow.Contract (SchemaRef)

/-- The packets of one channel, in order. -/
def onChannel (channel : ℕ) (entries : List (ℕ × PortPacket)) : List PortPacket :=
  (entries.filter (·.1 = channel)).map Prod.snd

section Arrivals

variable {node : RuleNode} {ctx : NodeContext} {inputs : PortsIn} {outputs : PortsOut}
  {start : UInt64} {arrivals : List (ℕ × PortPacket)} {condition : Config → Prop} {c : Config}

/-- What channels give: what arrives on them, in order, and then the end. A channel may have
nothing to give at any time. -/
def gives (arrivals : List (ℕ × PortPacket)) (channel : ℕ) :
    Poll (Except RecvError PortPacket) → Account → Prop
  | .ready (.ok packet), g =>
    onChannel channel g.received ++ [packet] <+: onChannel channel arrivals
  | .ready (.error .disconnected), g => onChannel channel g.received = onChannel channel arrivals
  | .ready (.error .cancelled), _ => False
  | .ready (.error .empty), _ => True
  | .pending, _ => True

lemma onChannel_append (channel : ℕ) (entries more : List (ℕ × PortPacket)) :
    onChannel channel (entries ++ more) = onChannel channel entries ++ onChannel channel more := by
  simp [onChannel]

/-- **Packets are received as they arrive.** -/
theorem received_isInitial (h : Reached node ctx inputs outputs start (gives arrivals) condition c)
    (channel : ℕ) : onChannel channel c.account.received <+: onChannel channel arrivals := by
  induction h with
  | refl => exact List.nil_prefix
  | @tail c c' _ hstep ih =>
    rcases step_received hstep.1 with hsame | ⟨other, packet, hgiven, hmore⟩
    · rw [hsame]
      exact ih
    · rw [hmore, onChannel_append]
      by_cases heq : other = channel
      · subst heq
        have hlast : onChannel other [(other, packet)] = [packet] := by simp [onChannel]
        rw [hlast]
        exact hgiven
      · simpa [onChannel, heq] using ih

lemma length_onChannel (channel : ℕ) (entries : List (ℕ × PortPacket)) :
    (onChannel channel entries).length = (entries.map Prod.fst).count channel := by
  rw [onChannel, List.length_map, List.count_eq_countP, List.countP_map, List.countP_eq_length_filter]
  congr 2

lemma received_length_le (h : Reached node ctx inputs outputs start (gives arrivals) condition c) :
    c.packets.length ≤ arrivals.length := by
  have hsub : (c.account.received.map Prod.fst).Subperm (arrivals.map Prod.fst) := by
    rw [List.subperm_iff_count]
    intro channel
    rw [← length_onChannel, ← length_onChannel]
    exact (received_isInitial h channel).length_le
  simpa [Config.packets] using hsub.length_le

/-- A node that has not returned can go on: whatever it asks of a channel or of the token is
answered. -/
lemma returns_or_step (node : RuleNode) (ctx : NodeContext) (inputs : PortsIn) (outputs : PortsOut)
    (arrivals : List (ℕ × PortPacket)) (c : Config) :
    (∃ result, c.Returns result) ∨
      ∃ c', Step node ctx inputs outputs (gives arrivals) c c' ∧ c'.cancelled = c.cancelled := by
  have hanswer (op : PortOp) : ∃ answer, Answers (gives arrivals) c op answer := by
    cases op with
    | tryReserve channel => exact ⟨.error .full, .inr rfl⟩
    | permitSend channel packet => exact ⟨(), trivial⟩
    | permitAbort channel => exact ⟨(), trivial⟩
    | tryRecv channel => exact ⟨.error .empty, trivial⟩
    | pollRecv channel => exact ⟨.pending, trivial⟩
    | len channel => exact ⟨Nat.zero, trivial⟩
    | isCancelled => exact ⟨c.cancelled, rfl⟩
    | record r => exact ⟨.ok (), trivial⟩
  cases hprog : c.prog with
  | call op k =>
    obtain ⟨answer, h⟩ := hanswer op
    exact .inr ⟨_, .call hprog h, rfl⟩
  | ret r =>
    obtain ⟨counter, stage⟩ := r
    cases hreturned : stage.isReturned with
    | false => exact .inr ⟨_, .resume hprog hreturned, rfl⟩
    | true =>
      cases stage with
      | returned result => exact .inl ⟨result, counter, hprog⟩
      | _ => cases hreturned

end Arrivals

section Payloads

variable {node : RuleNode} {ctx : NodeContext} {outputs : PortsOut} {start : UInt64}
  {portId : PortId} {packet forwarded : PortPacket}

/-- A packet of this node's run, sent from one of its ports. -/
structure Stamped (ctx : NodeContext) (portId : PortId) (packet : PortPacket) : Prop where
  workflowId : packet.metadata.workflowId = ctx.workflowId
  execution : packet.metadata.execution = ctx.execution
  source : packet.metadata.route.source = some ⟨ctx.nodeId, portId⟩

/-- The check of a node's packets against the contracts of its output ports. -/
def contractValidator (ctx : NodeContext) (contracts : ExtTreeMap PortId (Option SchemaRef)) :
    ContractOutputValidator :=
  ⟨ctx.workflowId, ctx.nodeId, ctx.execution, contracts⟩

lemma forwardPacket_spec {seq : UInt64} (h : forwardPacket ctx portId seq packet = .ok forwarded) :
    forwarded.payload = packet.payload ∧ Stamped ctx portId forwarded := by
  unfold forwardPacket at h
  split at h
  · cases h
  · cases h
    exact ⟨rfl, rfl, rfl, rfl⟩

lemma Stamped.accepted (h : Stamped ctx portId packet)
    {contracts : ExtTreeMap PortId (Option SchemaRef)} (hcontract : portId ∈ contracts) :
    (contractValidator ctx contracts).validate portId packet = .ok () :=
  (ContractOutputValidator.validate_eq_ok_iff _ _ _).mpr
    ⟨hcontract, h.workflowId, h.execution, h.source⟩

/-- What an edge of a port should hold of a packet routed there: its payload, stamped, so that the
contract of the port accepts it. -/
structure Copied (ctx : NodeContext) (portId : PortId) (packet forwarded : PortPacket) : Prop where
  payload : forwarded.payload = packet.payload
  stamped : Stamped ctx portId forwarded
  accepted : ∀ contracts : ExtTreeMap PortId (Option SchemaRef), portId ∈ contracts →
    (contractValidator ctx contracts).validate portId forwarded = .ok ()

lemma copied_of_forwardPacket {seq : UInt64}
    (h : forwardPacket ctx portId seq packet = .ok forwarded) : Copied ctx portId packet forwarded :=
  ⟨(forwardPacket_spec h).1, (forwardPacket_spec h).2, fun _ => (forwardPacket_spec h).2.accepted⟩

/-- A copy can be addressed: its port is declared and its id fits. -/
structure Addressable (ctx : NodeContext) (outputs : PortsOut) (portId : PortId) (seq : UInt64)
    (_packet : PortPacket) : Prop where
  declared : (PortHandle.find outputs.ports portId).isSome
  fits : (mintedId ctx portId seq).utf8ByteSize ≤ maxIdentifierLen

/-- The validator of the ports, if there is one, is the one a run attaches to this node: it has a
contract for every declared port. -/
def Contracted (ctx : NodeContext) (outputs : PortsOut) : Prop :=
  ∀ validator ∈ outputs.validator, ∃ contracts : ExtTreeMap PortId (Option SchemaRef),
    validator = (contractValidator ctx contracts).validate ∧
    ∀ portId, (PortHandle.find outputs.ports portId).isSome → portId ∈ contracts

lemma Addressable.sendable {seq : UInt64} (h : Addressable ctx outputs portId seq packet)
    (hcontracts : Contracted ctx outputs) : Sendable ctx outputs portId seq packet where
  declared := h.declared
  fits := h.fits
  accepted validator hvalidator forwarded hforwarded := by
    obtain ⟨contracts, rfl, hcovers⟩ := hcontracts validator hvalidator
    exact (copied_of_forwardPacket hforwarded).accepted contracts (hcovers portId h.declared)

lemma onChannel_map (channel : ℕ) (channels : List ℕ) (packet : PortPacket) :
    onChannel channel (channels.map (·, packet)) = .replicate (channels.count channel) packet := by
  induction channels with
  | nil => rfl
  | cons first rest ih =>
    rw [List.map_cons, ← List.singleton_append, onChannel_append, ih]
    by_cases heq : first = channel
    · simp [onChannel, heq, List.replicate_succ]
    · simp [onChannel, heq]

lemma onChannel_delivery {channel : ℕ} (hown : OwnEdge outputs portId channel) {seq : UInt64}
    (hclear : ∀ p, node.routedTo ctx packet = some p → Addressable ctx outputs p seq packet) :
    List.Forall₂ (Copied ctx portId) ([packet].filter (node.routedTo ctx · = some portId))
      (onChannel channel (node.delivery ctx outputs seq packet)) := by
  unfold delivery
  cases hrouted : node.routedTo ctx packet with
  | none => simp [hrouted, onChannel]
  | some p =>
    obtain ⟨forwarded, hforwarded⟩ := forwardPacket_ok (hclear p hrouted).fits packet
    simp only [hforwarded, onChannel_map]
    by_cases heq : p = portId
    · subst heq
      rw [hown.1, List.filter_cons_of_pos (by simpa using hrouted), List.filter_nil]
      exact .cons (copied_of_forwardPacket hforwarded) .nil
    · have hnot : channel ∉ outputs.channels p := fun hmem => heq (hown.2 p hmem)
      rw [List.count_eq_zero_of_not_mem hnot, List.filter_cons_of_neg (by simpa [hrouted] using heq)]
      exact .nil

/-- **What an edge of a port holds**: the copies of the packets routed there, in order. -/
theorem onChannel_deliveries {channel : ℕ} (hown : OwnEdge outputs portId channel)
    {packets : List PortPacket} (hclear : node.Clear ctx (Addressable ctx outputs) start packets) :
    List.Forall₂ (Copied ctx portId) (packets.filter (node.routedTo ctx · = some portId))
      (onChannel channel (node.deliveries ctx outputs start packets)) := by
  induction packets using List.reverseRecOn with
  | nil => exact .nil
  | append_singleton packets packet ih =>
    rw [deliveries_append, onChannel_append, List.filter_append]
    exact List.rel_append (ih hclear.of_append)
      (onChannel_delivery hown fun p hrouted => hclear.last hrouted)

end Payloads

section Conservation

/-- How far the node gets: to the end of all that arrives, or to the first packet that halts it. -/
inductive Outcome (node : RuleNode) (ctx : NodeContext) (arrivals : List (ℕ × PortPacket))
    (port : InputPortHandle) (c : Config) : Except PureflowError Unit → Prop
  | drained : (∀ r ∈ port.ends,
      onChannel r.channel c.account.received = onChannel r.channel arrivals) →
    (∀ packet ∈ c.packets, node.haltsWith ctx packet = none) → Outcome node ctx arrivals port c (.ok ())
  | halted {before : List PortPacket} {last : PortPacket} {message : String} :
    c.packets = before ++ [last] → (∀ packet ∈ before, node.haltsWith ctx packet = none) →
    node.haltsWith ctx last = some message →
    Outcome node ctx arrivals port c (.error (.execution s!"rule halted: {message}"))

variable (node : RuleNode) (ctx : NodeContext) (inputs : PortsIn) (outputs : PortsOut)

/-- An edge of this output port holds the copies of the packets that are routed there, each once
and in order. -/
def HoldsRouted (c : Config) (portId : PortId) (channel : ℕ) : Prop :=
  List.Forall₂ (Copied ctx portId) (c.packets.filter (node.routedTo ctx · = some portId))
    (onChannel channel c.account.committed)

/-- **Routing conservation.** In a run without cancellation whose packets can be addressed where they
are routed to: the node goes on, but for turns in which a channel had nothing to give or no room,
and receives what arrives in order; until it returns it can always take a step, and it can only go
on forever if it meets such channels again and again; and once it has returned, it got to the end
or to a halt, and every edge of an output port holds the copies of the packets routed there, each
once and in order: every edge of its own, and that is every edge of a node that a host has
wired. -/
theorem routing_conserved (start : UInt64) (arrivals : List (ℕ × PortPacket))
    (port : InputPortHandle) (hport : PortHandle.find inputs.ports inPort = some port)
    (hcontracts : Contracted ctx outputs) (c : Config)
    (h : Reached node ctx inputs outputs start (gives arrivals) (fun c => c.cancelled = false) c)
    (hclear : node.Clear ctx (Addressable ctx outputs) start c.packets) :
    c.turns ≤ c.waits + 3 * arrivals.length ∧
    (∀ channel, onChannel channel c.account.received <+: onChannel channel arrivals) ∧
    ((∃ result, c.Returns result) ∨
      ∃ c', Step node ctx inputs outputs (gives arrivals) c c' ∧ c'.cancelled = c.cancelled) ∧
    (∀ run : ℕ → Config, run 0 = c → Endless node ctx inputs outputs (gives arrivals) run →
      ∀ n, ∃ k, n ≤ (run k).waits) ∧
    ∀ result, c.Returns result →
      Outcome node ctx arrivals port c result ∧
      c.account.committed = node.deliveries ctx outputs start c.packets ∧
      (∀ portId channel, OwnEdge outputs portId channel →
        HoldsRouted node ctx c portId channel) ∧
      ∀ workflow wiredNode, outputs = (wired workflow wiredNode).outputs →
        ∀ portId, ∀ channel ∈ outputs.channels portId, HoldsRouted node ctx c portId channel := by
  refine ⟨?_, received_isInitial h, returns_or_step node ctx inputs outputs arrivals c,
    fun run hrun hendless => ?_, fun result hreturns => ?_⟩
  · have hturns := turns_le h
    have hlength := received_length_le h
    omega
  · subst hrun
    exact hendless.waits h fun k => received_length_le (hendless.reached h k)
  have hrun : Reached node ctx inputs outputs start (gives arrivals)
      (fun c => c.Quiet ∧ c.cancelled = false) c :=
    h.mono fun _ hcancelled => ⟨fun _ _ _ _ => hcancelled, hcancelled⟩
  have hsend : node.Clear ctx (Sendable ctx outputs) start c.packets :=
    fun before packet after hpackets portId hrouted =>
      (hclear before packet after hpackets portId hrouted).sendable hcontracts
  obtain ⟨hcommitted, hending⟩ := settled_of_returns (· = false) hrun hreturns hsend
  have hholds (portId : PortId) (channel : ℕ) (hown : OwnEdge outputs portId channel) :
      HoldsRouted node ctx c portId channel := by
    rw [HoldsRouted, hcommitted]
    exact onChannel_deliveries hown hclear
  refine ⟨?_, hcommitted, hholds, ?_⟩
  · cases hending with
    | closed hnone hclosed => exact .drained (fun r hr => (hclosed port hport r hr).1) hnone
    | halted hpackets hnone hlast => exact .halted hpackets hnone hlast
    | interrupted hinterrupted =>
      rcases hinterrupted with htoken | ⟨channel, g, hgiven, -⟩
      · cases htoken
      · exact hgiven.elim
    | undeclared hundeclared => cases hport.symm.trans hundeclared
  · rintro workflow wiredNode rfl portId channel hchannel
    exact hholds portId channel (ownEdge_of_wired hchannel)

theorem routing_conserved_sample : ∃ c,
    Reached sampleNode sampleContext sampleInputs sampleOutputs 0
      (gives [(0, System.samplePacket)]) (fun c => c.cancelled = false) c ∧
    c.Returns (.ok ()) ∧
    List.Forall₂ (Copied sampleContext ⟨"out", by decide⟩) [System.samplePacket]
      (onChannel 1 c.account.committed) := by
  obtain ⟨c, hrun, hreturns, hpackets⟩ := sample_reached (gives [(0, System.samplePacket)])
    (fun g hg => by simp [gives, hg, onChannel]) (fun g hg => by simp [gives, hg])
  have hcontracts : Contracted sampleContext sampleOutputs := by
    simp [Contracted, sampleOutputs, PortsOut.fromHandles]
  have hclear : sampleNode.Clear sampleContext (Addressable sampleContext sampleOutputs) 0
      c.packets := by
    intro before packet after heq portId hrouted
    have hsend := sample_clear before packet after (hpackets ▸ heq) portId hrouted
    exact ⟨hsend.declared, hsend.fits⟩
  have hown : OwnEdge sampleOutputs ⟨"out", by decide⟩ 1 := by
    refine ⟨rfl, fun other hother => ?_⟩
    by_contra hne
    have hports : sampleOutputs.ports = [.connected ⟨"out", by decide⟩ ⟨1, 1⟩] := rfl
    have hfind : PortHandle.find sampleOutputs.ports other = none := by
      rw [hports, PortHandle.find, List.find?_eq_none]
      simpa [PortHandle.connected] using Ne.symm hne
    rw [PortsOut.channels, hfind] at hother
    cases hother
  have hrouted : [System.samplePacket].filter
      (sampleNode.routedTo sampleContext · = some ⟨"out", by decide⟩) = [System.samplePacket] := rfl
  have hedge := ((routing_conserved sampleNode sampleContext sampleInputs sampleOutputs 0
    [(0, System.samplePacket)] _ rfl hcontracts c hrun hclear).2.2.2.2 (.ok ()) hreturns).2.2.1 _ 1
      hown
  rw [HoldsRouted, hpackets, hrouted] at hedge
  exact ⟨c, hrun, hreturns, hedge⟩

end Conservation

end Pureflow.Rules.RuleNode
