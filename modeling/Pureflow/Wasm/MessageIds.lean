import Pureflow.Lib.Splits
import Pureflow.Rules.Spec
import Pureflow.Wasm.RuleNode

/-!
The message ids that the rule nodes of one run mint.

An id is made of the node, the port a packet is forwarded to and the packet counter of the node,
with a separator that the names of nodes and ports may hold as well. The last dash ends the
names, so the counter is always told from an id; the names are told from it unless those of two
nodes run into each other.
-/

namespace Pureflow.Wasm

open Pureflow.Types Pureflow.Core Pureflow.Lib Pureflow.Rules

section Ids

variable {ctx ctx' : NodeContext} {portId portId' : PortId} {seq seq' : UInt64}

/-- The name of a node and one of its ports run into those of another node: the name of this one
goes on, with the separator, where the first ends, and the first's port holds the separator
again. -/
def RunsInto (node : NodeId) (portId : PortId) (node' : NodeId) (portId' : PortId) : Prop :=
  ∃ overlap : String, node'.value ++ "-" = node.value ++ "-rule-" ++ overlap ∧
    portId.value = overlap ++ "rule-" ++ portId'.value

lemma runsInto_iff {node node' : NodeId} : RunsInto node portId node' portId' ↔
    RunInto '-' "rule".toList node.value.toList portId.value.toList node'.value.toList
      portId'.value.toList := by
  constructor
  · rintro ⟨overlap, hnode, hport⟩
    refine ⟨overlap.toList, ?_, ?_⟩
    · have hlist := congrArg String.toList hnode
      simpa using hlist
    · have hlist := congrArg String.toList hport
      simpa using hlist
  · rintro ⟨overlap, hnode, hport⟩
    refine ⟨String.ofList overlap, ?_, ?_⟩
    · rw [← String.toList_inj]
      simpa using hnode
    · rw [← String.toList_inj]
      simpa using hport

lemma not_runsInto_self {node : NodeId} : ¬ RunsInto node portId node portId' := by
  rintro ⟨overlap, hnode, -⟩
  have hlength := congrArg String.length hnode
  have hdash : "-".length = 1 := by decide
  have hrule : "-rule-".length = 6 := by decide
  simp only [String.length_append, hdash, hrule] at hlength
  omega

lemma mintedId_toList (ctx : NodeContext) (portId : PortId) (seq : UInt64) :
    (mintedId ctx portId seq).toList = (ctx.nodeId.value.toList ++ ('-' :: "rule".toList ++ ['-']) ++
      portId.value.toList) ++ '-' :: (toString seq.toNat).toList := by
  have hseq : toString seq = toString seq.toNat := rfl
  have hnode : toString ctx.nodeId = ctx.nodeId.value := rfl
  have hport : toString portId = portId.value := rfl
  have hrule : (toString "-rule-").toList = '-' :: "rule".toList ++ ['-'] := by decide
  have hdash : (toString "-").toList = ['-'] := by decide
  simp only [mintedId, String.toList_append, hrule, hdash, hseq, hnode, hport]
  simp

lemma dash_notMem_number (n : ℕ) : '-' ∉ (toString n).toList := by
  intro hmem
  have hany := Text.repr_any_eq_false (p := (· == '-')) ?_ n
  · exact List.any_eq_false.mp hany '-' hmem (by decide)
  · intro c hc
    have hrange := Text.toNat_of_isDigit hc
    have hne : c ≠ '-' := by
      rintro rfl
      revert hrange
      decide
    simpa using hne

lemma toString_toNat_inj : toString seq.toNat = toString seq'.toNat ↔ seq = seq' := by
  constructor
  · intro h
    exact UInt64.toNat.inj (Nat.repr_injective h)
  · rintro rfl
    rfl

/-- **Two minted ids are the same** only with the same counter, and then for the same names, or
for names that run into each other. -/
theorem mintedId_eq_iff : mintedId ctx portId seq = mintedId ctx' portId' seq' ↔
    seq = seq' ∧ ((ctx.nodeId = ctx'.nodeId ∧ portId = portId') ∨
      RunsInto ctx.nodeId portId ctx'.nodeId portId' ∨
      RunsInto ctx'.nodeId portId' ctx.nodeId portId) := by
  have hrule : '-' ∉ "rule".toList := by decide
  have hnames : (ctx.nodeId.value.toList = ctx'.nodeId.value.toList ∧
      portId.value.toList = portId'.value.toList) ↔
        (ctx.nodeId = ctx'.nodeId ∧ portId = portId') := by
    rw [String.toList_inj, String.toList_inj, Identifier.value_inj, Identifier.value_inj]
  have happend := append_eq_iff hrule ctx.nodeId.value.toList portId.value.toList
    ctx'.nodeId.value.toList portId'.value.toList
  rw [hnames, ← runsInto_iff, ← runsInto_iff] at happend
  rw [← happend, ← String.toList_inj, mintedId_toList, mintedId_toList]
  constructor
  · intro h
    obtain ⟨hnames, hseq⟩ := eq_of_append_cons_eq (dash_notMem_number _) (dash_notMem_number _) h
    exact ⟨toString_toNat_inj.mp (String.toList_inj.mp hseq), hnames⟩
  · rintro ⟨rfl, hnames⟩
    rw [hnames]

end Ids

/-- A packet that is forwarded: the packet counter it is numbered with, and its send. -/
abbrev Forward := UInt64 × PendingSend

/-- What a turn starts to forward. -/
def forwardOf (turn : Prog.Turn PortOp.Answer LoopState) : Option Forward :=
  match turn.stage, turn.next with
  | (counter, .receiving _), (_, .sending send) => some (counter, send)
  | _, _ => none

/-- The part of one rule node in a run: the turns it has run through, from the first receive of an
executor whose counter stands at `start`. -/
structure NodeTurns where
  executor : RuleExecutor
  context : NodeContext
  inputs : PortsIn
  outputs : PortsOut
  start : UInt64
  turns : List (Prog.Turn PortOp.Answer LoopState)
  reached : LoopState
  runs : (executor.loop context).Runs inputs outputs start turns reached

namespace NodeTurns

variable (r : NodeTurns)

/-- The packets the node has forwarded, in order. -/
def forwards : List Forward := r.turns.filterMap forwardOf

/-- The ids they carry. -/
def messageIds : List MessageId := r.forwards.map (·.2.packet.metadata.messageId)

/-- The packets the node has taken from its edges. -/
def received : List (ℕ × PortPacket) := receivedIn (Prog.trace r.turns)

/-- No two packets are forwarded to the same port with the same counter: it has not come round to
where it stood at another packet for this port. -/
def Unwrapped : Prop := (r.forwards.map fun f => (f.1, f.2.portId)).Nodup

end NodeTurns

section Turns

variable {node : RuleExecutor} {ctx : NodeContext} {inputs : PortsIn} {outputs : PortsOut}
  {start : UInt64} {s s' : LoopState} {events : List PortEvent}

/-- What a turn does to the counter: nothing, or it moves on by a packet that was taken; and only
then can a packet be forwarded, a copy whose id has the counter from before. -/
inductive Advanced (ctx : NodeContext) (events : List PortEvent) (s s' : LoopState) : Prop
  | same : forwardOf ⟨s, events, s'⟩ = none → s'.1 = s.1 → Advanced ctx events s s'
  | dropped : forwardOf ⟨s, events, s'⟩ = none → s'.1 = s.1 + 1 → receivedIn events ≠ [] →
    Advanced ctx events s s'
  | forwarded {packet : PortPacket} (send : PendingSend) :
    forwardOf ⟨s, events, s'⟩ = some (s.1, send) → s'.1 = s.1 + 1 → receivedIn events ≠ [] →
    forwardPacket ctx send.portId s.1 packet = .ok send.packet → Advanced ctx events s s'

/-- **One turn** of a rule node. -/
lemma turn_advanced (h : ((node.loop ctx).step inputs outputs s).Yields events s') :
    Advanced ctx events s s' := by
  cases RuleLoop.step_cases h with
  | @packet counter polled packet before after _ hpoll hprocess =>
    have hreceived : receivedIn (before ++ after) ≠ [] := by
      intro hnil
      rw [receivedIn, List.filterMap_append, List.append_eq_nil_iff] at hnil
      have htaken := (RuleLoop.pollInput_polled hpoll).1
      rw [receivedIn, hnil.1] at htaken
      cases htaken
    have hhandled := hprocess.ends (node.process_cases ctx counter packet)
    obtain ⟨counter', stage⟩ := s'
    cases stage with
    | sending send =>
      obtain ⟨rfl, hforward⟩ := hhandled.sending
      exact .forwarded send rfl rfl hreceived hforward
    | receiving polled | between | returned result =>
      rcases hhandled.counter with hsame | hnext
      · exact .same rfl hsame
      · exact .dropped rfl hnext hreceived
  | @idle counter polled poll _ stage hpoll hnone hstage =>
    rcases hstage with rfl | ⟨result, rfl⟩
    · exact .same rfl rfl
    · exact .same rfl rfl
  | @send counter send poll _ hpoll => exact .same rfl (by rcases poll with (err | ⟨⟩) | _ <;> rfl)
  | between cancelled => exact .same (by cases cancelled <;> rfl) rfl
  | returned => exact .same rfl rfl

/-- The packets forwarded so far are numbered: each has the counter that `start` was moved on to by
the packets handled before it, as many as were taken at most. -/
def Counted (start : UInt64) (forwards : List Forward) (counter : UInt64) (taken : ℕ) : Prop :=
  ∃ (numbers : List ℕ) (handled : ℕ), numbers.Pairwise (· < ·) ∧ (∀ k ∈ numbers, k < handled) ∧
    forwards.map Prod.fst = numbers.map (start + .ofNat ·) ∧ counter = start + .ofNat handled ∧
    handled ≤ taken

namespace Counted

variable {forwards : List Forward} {counter : UInt64} {taken more : ℕ}

lemma zero : Counted start [] start 0 :=
  ⟨[], 0, .nil, List.forall_mem_nil _, rfl, (UInt64.add_zero start).symm, le_rfl⟩

lemma same (h : Counted start forwards counter taken) :
    Counted start forwards counter (taken + more) := by
  obtain ⟨numbers, handled, hpairwise, hlt, hcounters, hcounter, hle⟩ := h
  exact ⟨numbers, handled, hpairwise, hlt, hcounters, hcounter, by omega⟩

lemma succ_counter (handled : ℕ) :
    start + .ofNat handled + 1 = start + .ofNat (handled + 1) := by
  rw [UInt64.ofNat_add, UInt64.add_assoc]
  rfl

lemma dropped (h : Counted start forwards counter taken) (hmore : 0 < more) :
    Counted start forwards (counter + 1) (taken + more) := by
  obtain ⟨numbers, handled, hpairwise, hlt, hcounters, rfl, hle⟩ := h
  refine ⟨numbers, handled + 1, hpairwise, fun k hk => ?_, hcounters, succ_counter handled,
    by omega⟩
  have := hlt k hk
  omega

lemma forwarded (h : Counted start forwards counter taken) (send : PendingSend)
    (hmore : 0 < more) :
    Counted start (forwards ++ [(counter, send)]) (counter + 1) (taken + more) := by
  obtain ⟨numbers, handled, hpairwise, hlt, hcounters, rfl, hle⟩ := h
  refine ⟨numbers ++ [handled], handled + 1, ?_, ?_, ?_, succ_counter handled, by omega⟩
  · rw [List.pairwise_append]
    refine ⟨hpairwise, List.pairwise_singleton _ _, fun k hk n hn => ?_⟩
    rw [List.mem_singleton.mp hn]
    exact hlt k hk
  · intro k hk
    rcases List.mem_append.mp hk with hk | hk
    · have := hlt k hk
      omega
    · rw [List.mem_singleton.mp hk]
      omega
  · rw [List.map_append, List.map_append, hcounters]
    rfl

/-- **Fewer packets than the counter has values** do not bring it round. -/
lemma nodup (h : Counted start forwards counter taken) (htaken : taken ≤ 2 ^ 64) :
    (forwards.map Prod.fst).Nodup := by
  obtain ⟨numbers, handled, hpairwise, hlt, hcounters, -, hle⟩ := h
  have hnumbers : numbers.Nodup := hpairwise.imp fun h => h.ne
  rw [hcounters]
  refine hnumbers.map_on fun k hk n hn heq => ?_
  have hk := hlt k hk
  have hn := hlt n hn
  have hmod := congrArg UInt64.toNat ((UInt64.add_right_inj start).mp heq)
  rw [UInt64.toNat_ofNat', UInt64.toNat_ofNat', Nat.mod_eq_of_lt (by omega),
    Nat.mod_eq_of_lt (by omega)] at hmod
  exact hmod

end Counted

/-- What every run keeps: its forwards are numbered, and each is a copy for its port. -/
structure Minted (ctx : NodeContext) (start : UInt64)
    (turns : List (Prog.Turn PortOp.Answer LoopState)) (s : LoopState) : Prop where
  counted : Counted start (turns.filterMap forwardOf) s.1 (receivedIn (Prog.trace turns)).length
  copied : ∀ f ∈ turns.filterMap forwardOf, ∃ packet,
    forwardPacket ctx f.2.portId f.1 packet = .ok f.2.packet

lemma minted_turn {turns : List (Prog.Turn PortOp.Answer LoopState)} (h : Minted ctx start turns s)
    (hturn : Advanced ctx events s s') : Minted ctx start (turns ++ [⟨s, events, s'⟩]) s' := by
  obtain ⟨hcounted, hcopied⟩ := h
  have hreceived : (receivedIn (Prog.trace (turns ++ [⟨s, events, s'⟩]))).length =
      (receivedIn (Prog.trace turns)).length + (receivedIn events).length := by
    simp [receivedIn, List.filterMap_append]
  have hforwards : List.filterMap forwardOf (turns ++ [⟨s, events, s'⟩]) =
      turns.filterMap forwardOf ++ (forwardOf ⟨s, events, s'⟩).toList := by
    rw [List.filterMap_append, filterMap_cons_toList, List.filterMap_nil, List.append_nil]
  cases hturn with
  | same hnone hcounter =>
    rw [hnone, Option.toList_none, List.append_nil] at hforwards
    constructor
    · rw [hforwards, hreceived, hcounter]
      exact hcounted.same
    · rwa [hforwards]
  | dropped hnone hcounter htaken =>
    rw [hnone, Option.toList_none, List.append_nil] at hforwards
    constructor
    · rw [hforwards, hreceived, hcounter]
      exact hcounted.dropped (List.length_pos_iff.mpr htaken)
    · rwa [hforwards]
  | forwarded send hsome hcounter htaken hforward =>
    rw [hsome, Option.toList_some] at hforwards
    constructor
    · rw [hforwards, hreceived, hcounter]
      exact hcounted.forwarded send (List.length_pos_iff.mpr htaken)
    · rw [hforwards]
      intro f hf
      rcases List.mem_append.mp hf with hf | hf
      · exact hcopied f hf
      · rw [List.mem_singleton.mp hf]
        exact ⟨_, hforward⟩

end Turns

namespace NodeTurns

variable {r r' : NodeTurns} {f f' : Forward}

lemma minted (r : NodeTurns) : Minted r.context r.start r.turns r.reached := by
  refine Prog.Runs.invariant (P := Minted r.context r.start) r.runs ?_ ?_
  · exact ⟨.zero, List.forall_mem_nil _⟩
  · intro turns s events s' hminted hyields
    exact minted_turn hminted (turn_advanced hyields)

lemma messageId_eq (hf : f ∈ r.forwards) :
    f.2.packet.metadata.messageId.value = mintedId r.context f.2.portId f.1 := by
  obtain ⟨packet, hforward⟩ := r.minted.copied f hf
  unfold forwardPacket at hforward
  split at hforward
  · cases hforward
  · next messageId hnew =>
    rw [← Except.ok.inj hforward]
    exact Identifier.value_of_new hnew

lemma messageId_eq_iff (hf : f ∈ r.forwards) (hf' : f' ∈ r'.forwards) :
    f.2.packet.metadata.messageId = f'.2.packet.metadata.messageId ↔
      f.1 = f'.1 ∧ ((r.context.nodeId = r'.context.nodeId ∧ f.2.portId = f'.2.portId) ∨
        RunsInto r.context.nodeId f.2.portId r'.context.nodeId f'.2.portId ∨
        RunsInto r'.context.nodeId f'.2.portId r.context.nodeId f.2.portId) := by
  rw [← Identifier.value_inj, messageId_eq hf, messageId_eq hf', mintedId_eq_iff]

lemma nodup_messageIds_iff : r.messageIds.Nodup ↔ r.Unwrapped := by
  unfold messageIds Unwrapped List.Nodup
  rw [List.pairwise_map, List.pairwise_map]
  refine List.Pairwise.iff_of_mem fun {f f'} hf hf' => ?_
  rw [Ne, messageId_eq_iff hf hf', Ne, Prod.mk.injEq]
  simp [not_runsInto_self]

/-- **The counter does not come round** in a run that takes fewer packets than it has values. -/
theorem unwrapped_of_received (h : r.received.length < 2 ^ 64) : r.Unwrapped := by
  have hnodup := r.minted.counted.nodup h.le
  unfold Unwrapped List.Nodup
  unfold List.Nodup at hnodup
  rw [List.pairwise_map] at hnodup ⊢
  exact hnodup.imp fun hne heq => hne (Prod.mk.inj heq).1

end NodeTurns

section Unique

variable {ι : Type}

/-- No two packets that the nodes of a run forward carry the same message id. -/
def UniqueIds (run : ι → NodeTurns) : Prop :=
  (∀ i, (run i).messageIds.Nodup) ∧
    ∀ i j, i ≠ j → List.Disjoint (run i).messageIds (run j).messageIds

/-- No two nodes forward packets with the same counter to ports whose names, with those of the
nodes, run into each other. -/
def Apart (run : ι → NodeTurns) : Prop :=
  ∀ i j, i ≠ j → ∀ f ∈ (run i).forwards, ∀ g ∈ (run j).forwards, f.1 = g.1 →
    ¬ RunsInto (run i).context.nodeId f.2.portId (run j).context.nodeId g.2.portId

/-- **Message ids are unique within a run** if and only if names do not run into each other where
counters agree, and no counter comes round to a port; and it takes 2^64 packets for the latter. -/
theorem uniqueIds_iff (run : ι → NodeTurns)
    (hdistinct : Function.Injective fun i => (run i).context.nodeId) :
    (UniqueIds run ↔ Apart run ∧ ∀ i, (run i).Unwrapped) ∧
      ∀ i, (run i).received.length < 2 ^ 64 → (run i).Unwrapped := by
  refine ⟨?_, fun i => NodeTurns.unwrapped_of_received⟩
  constructor
  · rintro ⟨hnodup, hdisjoint⟩
    refine ⟨fun i j hne f hf g hg hcounter hinto => ?_, fun i => ?_⟩
    · have heq := (NodeTurns.messageId_eq_iff hf hg).mpr ⟨hcounter, .inr (.inl hinto)⟩
      apply hdisjoint i j hne (List.mem_map_of_mem hf)
      rw [heq]
      exact List.mem_map_of_mem hg
    · exact NodeTurns.nodup_messageIds_iff.mp (hnodup i)
  · rintro ⟨hapart, hunwrapped⟩
    refine ⟨fun i => NodeTurns.nodup_messageIds_iff.mpr (hunwrapped i), fun i j hne id hi hj => ?_⟩
    obtain ⟨f, hf, rfl⟩ := List.mem_map.mp hi
    obtain ⟨g, hg, heq⟩ := List.mem_map.mp hj
    obtain ⟨hcounter, ⟨hnode, -⟩ | hinto | hinto⟩ := (NodeTurns.messageId_eq_iff hf hg).mp heq.symm
    · exact hne (hdistinct hnode)
    · exact hapart i j hne f hf g hg hcounter hinto
    · exact hapart j i hne.symm g hg f hf hcounter.symm hinto

end Unique

section Sample

/-- A rule node that routes every packet to one port. -/
def routingTo (portId : PortId) : RuleNode :=
  ⟨⟨"forward", .firstMatch, [], .route portId, false⟩, false, fun _ => ""⟩

def mintingContext (nodeId : NodeId) : NodeContext :=
  .new ⟨"flow", workflow_flow_valid⟩ nodeId (.firstAttempt ⟨"run-1", execution_run_valid⟩)

def oneInput : PortsIn := ⟨[inPort], [⟨inPort, [⟨0, 1⟩]⟩], false, none⟩

lemma routingTo_yields {nodeId : NodeId} {portId : PortId} {outputs : PortsOut}
    {forwarded : PortPacket}
    (h : forwardPacket (mintingContext nodeId) portId 0 emptyPacket = .ok forwarded) :
    (((RuleExecutor.native (routingTo portId)).loop (mintingContext nodeId)).step oneInput outputs
      (0, .receiving false)).Yields
        [⟨.isCancelled, false⟩, ⟨.pollRecv 0, .ready (.ok emptyPacket)⟩]
        (1, .sending ⟨portId, forwarded, none⟩) := by
  have hstart : startSend (mintingContext nodeId) portId 0 emptyPacket none =
      .sending ⟨portId, forwarded, none⟩ := by
    rw [startSend, h]
  rw [← hstart]
  exact .call (.call .ret)

/-- A node that has forwarded the first packet it took to a port. -/
def forwardedTo (nodeId : NodeId) (portId : PortId) (forwarded : PortPacket)
    (h : forwardPacket (mintingContext nodeId) portId 0 emptyPacket = .ok forwarded) : NodeTurns where
  executor := .native (routingTo portId)
  context := mintingContext nodeId
  inputs := oneInput
  outputs := ⟨[portId], [⟨portId, [⟨1, 1⟩]⟩], false, none, none⟩
  start := 0
  turns := [⟨(0, .receiving false),
    [⟨.isCancelled, false⟩, ⟨.pollRecv 0, .ready (.ok emptyPacket)⟩],
    (1, .sending ⟨portId, forwarded, none⟩)⟩]
  reached := (1, .sending ⟨portId, forwarded, none⟩)
  runs := .turn .refl (routingTo_yields h)

/-- The copy of a packet with an id. -/
def copyFor (nodeId : NodeId) (portId : PortId) (messageId : MessageId) : PortPacket where
  metadata :=
    { messageId := messageId
      workflowId := ⟨"flow", workflow_flow_valid⟩
      execution := .firstAttempt ⟨"run-1", execution_run_valid⟩
      route := ⟨some ⟨nodeId, portId⟩, ⟨nodeId, portId⟩⟩ }
  payload := .bytes []

def plainPort : PortId := ⟨"out", port_out_valid⟩

lemma a_out_valid : validateIdentifier .message "a-rule-out-0" = .ok () := by decide

lemma b_out_valid : validateIdentifier .message "b-rule-out-0" = .ok () := by decide

/-- Two nodes `a` and `b` that each forward a packet to `out`. -/
def plainRun : Bool → NodeTurns
  | false => forwardedTo ⟨"a", node_a_valid⟩ plainPort
    (copyFor ⟨"a", node_a_valid⟩ plainPort ⟨"a-rule-out-0", a_out_valid⟩) rfl
  | true => forwardedTo ⟨"b", node_b_valid⟩ plainPort
    (copyFor ⟨"b", node_b_valid⟩ plainPort ⟨"b-rule-out-0", b_out_valid⟩) rfl

theorem uniqueIds_iff_plain : UniqueIds plainRun := by
  have hdistinct : Function.Injective fun i => (plainRun i).context.nodeId := by
    intro i j h
    cases i <;> cases j <;> first | rfl | exact absurd h (by decide)
  obtain ⟨hiff, hunwrapped⟩ := uniqueIds_iff plainRun hdistinct
  refine hiff.mpr ⟨?_, fun i => hunwrapped i ?_⟩
  · rintro i j hne f hf g hg - ⟨overlap, hnode, -⟩
    have hlist := congrArg String.toList hnode
    cases i <;> cases j
    · exact hne rfl
    · simp [plainRun, forwardedTo, mintingContext, NodeContext.new] at hlist
    · simp [plainRun, forwardedTo, mintingContext, NodeContext.new] at hlist
    · exact hne rfl
  · cases i <;> decide

lemma node_a_rule_b_valid : validateIdentifier .node "a-rule-b" = .ok () := by decide

lemma port_b_rule_c_valid : validateIdentifier .port "b-rule-c" = .ok () := by decide

lemma port_c_valid : validateIdentifier .port "c" = .ok () := by decide

lemma collision_valid : validateIdentifier .message "a-rule-b-rule-c-0" = .ok () := by decide

/-- Node `a` forwards a packet to `b-rule-c`, and node `a-rule-b` forwards one to `c`. -/
def collidingRun : Bool → NodeTurns
  | false => forwardedTo ⟨"a", node_a_valid⟩ ⟨"b-rule-c", port_b_rule_c_valid⟩
    (copyFor ⟨"a", node_a_valid⟩ ⟨"b-rule-c", port_b_rule_c_valid⟩
      ⟨"a-rule-b-rule-c-0", collision_valid⟩) rfl
  | true => forwardedTo ⟨"a-rule-b", node_a_rule_b_valid⟩ ⟨"c", port_c_valid⟩
    (copyFor ⟨"a-rule-b", node_a_rule_b_valid⟩ ⟨"c", port_c_valid⟩
      ⟨"a-rule-b-rule-c-0", collision_valid⟩) rfl

/-- **Message ids are not unique within a run**: the first packets of two nodes carry the same. -/
theorem not_uniqueIds : ¬ ∀ (ι : Type) (run : ι → NodeTurns),
    (Function.Injective fun i => (run i).context.nodeId) →
    (∀ i, (run i).received.length < 2 ^ 64) → UniqueIds run := by
  intro hall
  have hunique := hall Bool collidingRun ?_ ?_
  · have hfirst : (⟨"a-rule-b-rule-c-0", collision_valid⟩ : MessageId) ∈
        (collidingRun false).messageIds := List.mem_cons_self
    have hsecond : (⟨"a-rule-b-rule-c-0", collision_valid⟩ : MessageId) ∈
        (collidingRun true).messageIds := List.mem_cons_self
    exact hunique.2 false true (by decide) hfirst hsecond
  · intro i j h
    cases i <;> cases j <;> first | rfl | exact absurd h (by decide)
  · intro i
    cases i <;> decide

end Sample

end Pureflow.Wasm
