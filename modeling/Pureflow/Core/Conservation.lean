import Pureflow.Core.Traced

/-!
Message conservation: what the sink is told of messages agrees with what happens to them.

Records are made apart from the effects they describe, so the two balance only between operations:
then every call has its book closed, and what its records say is what its account says.
-/

namespace Pureflow.Core

open Pureflow.Types Pureflow.Lib

namespace Entry

/-- A packet was enqueued on a port, the one with the given channels. -/
def enqueuedOn (channels : List ℕ) (e : Entry) : Bool :=
  e.notice.message.kind == .enqueued && e.call.sends?.map Prod.fst == some channels

/-- A packet taken from the channel was dequeued. -/
def dequeuedFrom (c : ℕ) (e : Entry) : Bool :=
  e.notice.message.kind == .dequeued && (e.notice.received.map Prod.fst).contains c

/-- The record is of the packet that its call has taken from a channel. -/
def Taken (e : Entry) : Prop :=
  ∃ c packet, e.notice.received = [(c, packet)] ∧ e.notice.message.metadata = packet.metadata

end Entry

namespace PortCall

section Counting

variable {call : PortCall} {r : PortResult} {poll : Poll PortResult} {b : Book}

lemma messages_of_packet {packet : PortPacket} (h : r.packet? = some packet) :
    call.messages r = [⟨.dequeued, packet.metadata⟩] := by
  rcases r with answer | answer | _ | answer | answer
  · cases h
  · cases h
  · cases h
  · obtain rfl : answer = .ok (some packet) := by
      rcases answer with err | packet'
      · cases h
      · exact congrArg Except.ok h
    rfl
  · rcases answer with err | _ | ⟨portId, packet'⟩
    · cases h
    · cases h
    · cases h
      rfl

lemma kind_of_no_packet (h : r.packet? = none) :
    ∀ message ∈ call.messages r, message.kind ≠ .dequeued := by
  rcases r with answer | answer | _ | answer | answer
  · exact List.forall_mem_nil _
  · rcases answer with err | ⟨⟩
    · exact List.forall_mem_nil _
    · intro message hmem
      obtain ⟨⟨channels, packet⟩, -, rfl⟩ := Option.mem_map.mp (Option.mem_toList.mp hmem)
      unfold sendMessage
      split <;> exact nofun
  · exact List.forall_mem_nil _
  · rcases answer with err | packet?
    · exact List.forall_mem_nil _
    · obtain rfl : packet? = none := h
      exact List.forall_mem_nil _
  · rcases answer with err | _ | ⟨portId, packet⟩
    · exact List.forall_mem_nil _
    · exact List.forall_mem_nil _
    · cases h

/-- **What a call has dequeued is what it has received.** -/
lemma dequeued_of_told (h : call.PollTold poll b) (c : ℕ) :
    b.told.countP (fun notice => Entry.dequeuedFrom c ⟨call, notice⟩) =
      onChannel c b.account.received := by
  rcases poll with r | _
  · obtain ⟨hsettles, htold⟩ := h
    have hreceived := hsettles.received
    rw [htold, List.countP_map]
    cases hpacket : r.packet? with
    | none =>
      rw [hpacket, Option.toList_none, List.map_eq_nil_iff] at hreceived
      rw [hreceived, onChannel, List.countP_nil, List.countP_eq_zero]
      intro message hmem
      simp [Entry.dequeuedFrom]
    | some packet =>
      rw [hpacket, Option.toList_some, List.map_eq_singleton_iff] at hreceived
      obtain ⟨⟨d, packet'⟩, hreceived, rfl⟩ := hreceived
      rw [messages_of_packet hpacket, hreceived]
      by_cases hd : d = c
      · simp [Entry.dequeuedFrom, onChannel, hd]
      · simp [Entry.dequeuedFrom, onChannel, hd, Ne.symm hd]
  · obtain ⟨-, rfl⟩ := h
    rfl

lemma taken_of_told (h : call.PollTold poll b) {notice : Notice} (hmem : notice ∈ b.told)
    (hkind : notice.message.kind = .dequeued) : Entry.Taken ⟨call, notice⟩ := by
  rcases poll with r | _
  · obtain ⟨hsettles, htold⟩ := h
    rw [htold] at hmem
    obtain ⟨message, hmessage, rfl⟩ := List.mem_map.mp hmem
    have hreceived := hsettles.received
    cases hpacket : r.packet? with
    | none => exact absurd hkind (kind_of_no_packet hpacket message hmessage)
    | some packet =>
      rw [hpacket, Option.toList_some, List.map_eq_singleton_iff] at hreceived
      obtain ⟨⟨c, packet'⟩, hreceived, rfl⟩ := hreceived
      rw [messages_of_packet hpacket, List.mem_singleton] at hmessage
      exact ⟨c, packet', hreceived, by rw [hmessage]⟩
  · obtain ⟨-, rfl⟩ := h
    cases hmem

lemma deliveries_of_sends {channels : List ℕ} {packet : PortPacket}
    (h : call.sends? = some (channels, packet)) : call.deliveries = channels.map (·, packet) := by
  cases call with
  | permitSend permit packet =>
    cases h
    rfl
  | trySend outputs portId packet =>
    cases h
    rfl
  | send outputs portId packet =>
    cases h
    rfl
  | _ => cases h

lemma sends_of_unconnected (h : call.Unconnected) : ∃ packet, call.sends? = some ([], packet) := by
  have hchannels {outputs : PortsOut} {portId : PortId}
      (h : ∃ port, PortHandle.find outputs.ports portId = some port ∧ port.ends = []) :
      outputs.channels portId = [] := by
    obtain ⟨port, hport, hends⟩ := h
    rw [PortsOut.channels, hport]
    simp [hends]
  cases call with
  | permitSend permit packet => exact ⟨packet, congrArg (fun c => some (c, packet)) h⟩
  | trySend outputs portId packet =>
    exact ⟨packet, congrArg (fun c => some (c, packet)) (hchannels h)⟩
  | send outputs portId packet =>
    exact ⟨packet, congrArg (fun c => some (c, packet)) (hchannels h)⟩
  | _ => cases h

lemma dropped_of_told (hunconnected : call.Unconnected)
    (h : call.PollTold (.ready (.sent (.ok ()))) b) :
    ∃ packet, call.sends? = some ([], packet) ∧ b.told = [⟨[], ⟨.dropped, packet.metadata⟩⟩] := by
  obtain ⟨hsettles, htold⟩ := h
  obtain ⟨packet, hsends⟩ := sends_of_unconnected hunconnected
  have hreceived : b.account.received = [] := List.map_eq_nil_iff.mp hsettles.received
  refine ⟨packet, hsends, ?_⟩
  rw [htold, messages, hsends, hreceived]
  rfl

lemma not_sends (h : r = .sent (.ok ()) → call.sends? = none) :
    (∀ message ∈ call.messages r, message.kind ≠ .enqueued) ∧ r.deliveries call = [] := by
  have hreceived (answer : Except PortRecvError (Option PortPacket)) :
      ∀ message ∈ receivedMessages answer, message.kind ≠ .enqueued := by
    rcases answer with err | _ | packet
    · exact List.forall_mem_nil _
    · exact List.forall_mem_nil _
    · intro message hmem
      rw [List.mem_singleton.mp hmem]
      exact nofun
  rcases r with answer | answer | _ | answer | answer
  · exact ⟨List.forall_mem_nil _, rfl⟩
  · rcases answer with err | ⟨⟩
    · exact ⟨List.forall_mem_nil _, rfl⟩
    · have hnone := h rfl
      refine ⟨?_, ?_⟩
      · rw [messages, hnone]
        exact List.forall_mem_nil _
      · cases call with
        | permitSend permit packet => cases hnone
        | trySend outputs portId packet => cases hnone
        | send outputs portId packet => cases hnone
        | _ => rfl
  · exact ⟨List.forall_mem_nil _, rfl⟩
  · exact ⟨hreceived _, rfl⟩
  · exact ⟨hreceived _, rfl⟩

lemma onChannel_map (c : ℕ) (channels : List ℕ) (packet : PortPacket) :
    onChannel c (channels.map (·, packet)) = channels.count c := by
  rw [onChannel, List.countP_map]
  rfl

/-- **What a call has enqueued on a port it has committed to each of its edges**, if it sends on that
port or on none of its edges. -/
lemma enqueued_of_told (h : call.PollTold poll b) {channels : List ℕ} (hne : channels ≠ [])
    (hnodup : channels.Nodup)
    (howned : ∀ other packet, call.sends? = some (other, packet) →
      other = channels ∨ ∀ c ∈ channels, c ∉ other) :
    channels.length * b.told.countP (fun notice => Entry.enqueuedOn channels ⟨call, notice⟩) =
      (channels.map fun c => onChannel c b.account.committed).sum := by
  rcases poll with r | _
  · obtain ⟨hsettles, htold⟩ := h
    rw [htold, List.countP_map, hsettles.committed]
    by_cases hsent : r = .sent (.ok ()) → call.sends? = none
    · obtain ⟨hkinds, hdeliveries⟩ := not_sends hsent
      have hzero : (call.messages r).countP
          (fun message => Entry.enqueuedOn channels ⟨call, b.account.received, message⟩) = 0 := by
        rw [List.countP_eq_zero]
        intro message hmem
        simp [Entry.enqueuedOn, hkinds message hmem]
      rw [hdeliveries]
      simpa [onChannel] using Or.inr hzero
    · push Not at hsent
      obtain ⟨rfl, hsends⟩ := hsent
      obtain ⟨⟨other, packet⟩, hother⟩ := Option.ne_none_iff_exists'.mp hsends
      rw [messages, hother, PortResult.deliveries, deliveries_of_sends hother]
      simp only [onChannel_map]
      rcases howned other packet hother with rfl | hdisjoint
      · -- one record, and the packet once on each edge
        have hone : other.map other.count = other.map fun _ => 1 :=
          List.map_congr_left fun c hc => List.count_eq_one_of_mem hnodup hc
        rw [hone]
        simp [Entry.enqueuedOn, hother, sendMessage, hne]
      · have hzero : channels.map other.count = channels.map fun _ => 0 :=
          List.map_congr_left fun c hc => List.count_eq_zero.mpr (hdisjoint c hc)
        have hne' : other ≠ channels := by
          rintro rfl
          obtain ⟨c, hc⟩ := List.exists_mem_of_ne_nil other hne
          exact hdisjoint c hc hc
        rw [hzero]
        simp [Entry.enqueuedOn, hother, hne']
  · obtain ⟨-, rfl⟩ := h
    simp [Book.opening, Account.holding, onChannel]

end Counting

end PortCall

namespace Traced

variable {m : Mpsc PortPacket}

section Balance

variable {w : Wiring} {capacity : ℕ → ℕ} {t : Traced m} {M N : Type} [AddCommMonoid M] [AddCommMonoid N]

lemma tally_map (φ : M →+ N) (f : PortCall → Book → M) :
    φ (t.tally f) = t.tally fun call b => φ (f call b) := by
  simp [tally, map_list_sum, Function.comp_def]

lemma tally_sum (f : ℕ → PortCall → Book → M) (channels : List ℕ) :
    (channels.map fun c => t.tally (f c)).sum =
      t.tally fun call b => (channels.map fun c => f c call b).sum := by
  induction channels with
  | nil => simp [tally]
  | cons c rest ih =>
    rw [List.map_cons, List.sum_cons, ih]
    simp only [tally, List.map_cons, List.sum_cons, List.sum_map_add]
    abel

/-- No call is in the middle of a poll. -/
def Quiet (t : Traced m) : Prop := ∀ r ∈ t.running, ∃ poll, r.prog = .ret poll

lemma tally_congr (hkept : Kept w t) (hquiet : t.Quiet) {f g : PortCall → Book → M}
    (h : ∀ call poll b, w.Serves call → call.PollTold poll b → f call b = g call b) :
    t.tally f = t.tally g := by
  have hrunning : t.running.map (fun r => f r.call r.book) =
      t.running.map fun r => g r.call r.book := by
    refine List.map_congr_left fun r hr => ?_
    obtain ⟨hserves, hwp⟩ := hkept.running r hr
    obtain ⟨poll, hpoll⟩ := hquiet r hr
    rw [hpoll] at hwp
    exact h r.call poll r.book hserves hwp.told
  have hreturned : t.returned.map (fun r => f r.call r.book) =
      t.returned.map fun r => g r.call r.book := by
    refine List.map_congr_left fun r hr => ?_
    obtain ⟨hserves, hpoll⟩ := hkept.returned r hr
    exact h r.call _ r.book hserves hpoll.told
  rw [tally, tally, hrunning, hreturned]

lemma countP_stream (h : Reachable m w capacity t) (P : Entry → Bool) :
    t.stream.countP P = t.tally fun call b => b.told.countP fun notice => P ⟨call, notice⟩ := by
  have hstream := congrArg (Multiset.countPAddMonoidHom fun e => P e = true)
    (total_of_reachable counts_stream h)
  rw [tally_map] at hstream
  simpa [List.countP_map, Function.comp_def] using hstream

/-- **Between operations a port has enqueued as often as each of its edges was committed to.** -/
lemma enqueued_balance (h : Reachable m w capacity t) (hquiet : t.Quiet) {outputs : PortsOut}
    (hgiven : w.given outputs) {portId : PortId} (hne : outputs.channels portId ≠ []) :
    (outputs.channels portId).length *
        t.stream.countP (Entry.enqueuedOn (outputs.channels portId)) =
      ((outputs.channels portId).map fun c => (t.committed c).length).sum := by
  have hcommitted (c : ℕ) : (t.committed c).length =
      t.tally fun _ b => onChannel c b.account.committed := total_of_reachable (counts_committed c) h
  simp only [hcommitted]
  rw [countP_stream h, tally_sum fun c _ b => onChannel c b.account.committed]
  refine (tally_map (AddMonoidHom.mulLeft _) _).trans ?_
  refine tally_congr (kept_of_reachable h) hquiet fun call poll b hserves htold => ?_
  refine PortCall.enqueued_of_told htold hne (w.nodup outputs hgiven portId) fun other packet hother => ?_
  obtain ⟨outputs', portId', hgiven', rfl⟩ := hserves.channels hother
  by_cases hshared : ∃ c ∈ outputs.channels portId, c ∈ outputs'.channels portId'
  · obtain ⟨c, hc, hc'⟩ := hshared
    exact .inl (w.owned outputs' outputs hgiven' hgiven portId' portId c hc' hc)
  · exact .inr fun c hc hc' => hshared ⟨c, hc, hc'⟩

/-- **Between operations every packet taken from a channel has been dequeued.** -/
lemma dequeued_balance (h : Reachable m w capacity t) (hquiet : t.Quiet) (c : ℕ) :
    t.stream.countP (Entry.dequeuedFrom c) = (t.received c).length := by
  rw [countP_stream h, total_of_reachable (counts_received c) h]
  exact tally_congr (kept_of_reachable h) hquiet fun call poll b _ htold =>
    PortCall.dequeued_of_told htold c

lemma taken_of_mem_stream (h : Reachable m w capacity t) (hquiet : t.Quiet) {e : Entry}
    (hmem : e ∈ t.stream) (hkind : e.notice.message.kind = .dequeued) : e.Taken := by
  classical
  by_contra htaken
  have hbooks : t.stream.countP (fun e => e.notice.message.kind = .dequeued ∧ ¬ e.Taken) =
      t.tally fun _ _ => 0 := by
    rw [countP_stream h]
    refine tally_congr (kept_of_reachable h) hquiet fun call poll b _ htold => ?_
    rw [List.countP_eq_zero]
    intro notice hnotice
    have htaken (hkind : notice.message.kind = .dequeued) : Entry.Taken ⟨call, notice⟩ :=
      PortCall.taken_of_told htold hnotice hkind
    simpa using htaken
  have hzero : (t.tally fun _ _ => 0) = 0 := by simp [tally]
  rw [hzero, List.countP_eq_zero] at hbooks
  exact hbooks e hmem (decide_eq_true ⟨hkind, htaken⟩)

end Balance

/-- **Message conservation.** Let calls be made on the ports of a wiring with the sink attached to
both sides, in any order and interleaving.
The stream of message records is what the calls have told the sink.
Between operations, for each port with edges: as many records per edge as packets committed to the
edges say that a packet was enqueued, and each packet committed to an edge was dequeued, is queued
or was discarded with a dropped receiver; a packet that was dequeued is one that was taken.
A send on a declared port without edges of a packet that is accepted succeeds, if it is not
cancelled, and one that succeeds makes one record, of a dropped packet.
A send that fails or is rejected makes none. -/
theorem messages_conserved (m : Mpsc PortPacket) (hm : m.Lawful) (w : Wiring) (capacity : ℕ → ℕ)
    (t : Traced m) (h : Reachable m w capacity t) :
    ((t.stream : Multiset Entry) = t.tally fun call b => (b.told.map (Entry.mk call) : Multiset _)) ∧
    (t.Quiet →
      (∀ outputs, w.given outputs → ∀ portId, outputs.channels portId ≠ [] →
        let edges := outputs.channels portId
        edges.length * t.stream.countP (Entry.enqueuedOn edges) =
          (edges.map fun c => (t.committed c).length).sum ∧
        (edges.map fun c => (t.committed c).length).sum =
          (edges.map fun c => t.stream.countP (Entry.dequeuedFrom c) +
            (t.system.view c).queue.length + (t.discarded c).length).sum) ∧
      ∀ e ∈ t.stream, e.notice.message.kind = .dequeued → e.Taken) ∧
    (∀ r ∈ t.returned, r.call.Unconnected →
      (r.call.Accepted →
        r.result = .sent (.ok ()) ∨ ∃ portId, r.result = .sent (.error (.cancelled portId))) ∧
      (r.result = .sent (.ok ()) →
        ∃ packet, r.call.sends? = some ([], packet) ∧
          r.book.told = [⟨[], ⟨.dropped, packet.metadata⟩⟩])) ∧
    ∀ r ∈ t.returned, ∀ err, r.result = .sent (.error err) → r.book.told = [] := by
  have hkept := kept_of_reachable h
  have hinv := System.inv_of_reachable hm h.system
  have hlost := lost_of_reachable hm h
  refine ⟨total_of_reachable counts_stream h, fun hquiet => ⟨fun outputs hgiven portId hne => ?_,
    fun e hmem hkind => taken_of_mem_stream h hquiet hmem hkind⟩, fun r hr hunconnected => ?_,
    fun r hr err hresult => ?_⟩
  · refine ⟨enqueued_balance h hquiet hgiven hne, congrArg List.sum ?_⟩
    refine List.map_congr_left fun c _ => ?_
    rw [dequeued_balance h hquiet, committed_split hinv hlost c, List.length_append,
      List.length_append]
    simp only [System.view, system]
    omega
  · obtain ⟨-, hended⟩ := hkept.returned r hr
    refine ⟨hended.succeeds r.result rfl hunconnected, fun hresult => ?_⟩
    have htold := hended.told
    rw [hresult] at htold
    exact PortCall.dropped_of_told hunconnected htold
  · obtain ⟨-, hended⟩ := hkept.returned r hr
    obtain ⟨-, htold⟩ := hended.told
    rw [htold, hresult]
    rfl

section Sample

/-- One output port with two edges and the sink. -/
def fanOut : PortsOut where
  portIds := [⟨"out", port_out_valid⟩]
  ports := [⟨⟨"out", port_out_valid⟩, [⟨0, 1⟩, ⟨1, 1⟩]⟩]
  metadataSink := true
  validator := none
  context := none

lemma fanOut_channels (portId : PortId) :
    fanOut.channels portId = if portId = ⟨"out", by decide⟩ then [0, 1] else [] := by
  by_cases hport : portId = ⟨"out", by decide⟩
  · subst hport
    rfl
  · have hfind : PortHandle.find fanOut.ports portId = none := by
      simp [fanOut, PortHandle.find, Ne.symm hport]
    rw [PortsOut.channels, hfind, if_neg hport]
    rfl

def fanOutWiring : Wiring where
  given outputs := outputs = fanOut
  sink := by
    rintro outputs rfl
    rfl
  nodup := by
    rintro outputs rfl portId
    rw [fanOut_channels]
    split <;> decide
  owned := by
    rintro outputs outputs' rfl rfl portId portId' c hc hc'
    rw [fanOut_channels] at hc hc'
    rw [fanOut_channels, fanOut_channels]
    split at hc
    · split at hc'
      · rw [if_pos ‹_›, if_pos ‹_›]
      · cases hc'
    · cases hc

def fanOutCall : PortCall := .trySend fanOut ⟨"out", port_out_valid⟩ System.samplePacket

lemma fanOutCall_attached {p : PortM (Poll PortResult)} {b : Book} :
    ∀ r ∈ [(⟨fanOutCall, p, b⟩ : Recording)], fanOutWiring.Attached r.call := by
  intro r hr
  obtain rfl := List.mem_singleton.mp hr
  refine ⟨fun outputs houtputs => ?_, nofun⟩
  cases houtputs
  rfl

/-- The send is at this point of its program, with the channels in this state. -/
def FanOutAt (p : PortM (Poll PortResult)) (channels : ℕ → Channel PortPacket × ℕ) : Prop :=
  ∃ t : Traced (.plain PortPacket), Reachable _ fanOutWiring (fun _ => 1) t ∧
    t.channels = channels ∧ t.discarded = (fun _ => []) ∧ t.receiverDropped = (fun _ => false) ∧
      ∃ b, t.running = [⟨fanOutCall, p, b⟩]

lemma discards_none (op : PortOp) : discards (fun _ => false) op = none := by
  cases op <;> rfl

lemma fanOut_advance {op : PortOp} {k : op.Answer → PortM (Poll PortResult)} {answer : op.Answer}
    {channels channels' : ℕ → Channel PortPacket × ℕ} (h : FanOutAt (.call op k) channels)
    (hperf : System.Performs (.plain PortPacket) op answer channels channels') :
    FanOutAt (k answer) channels' := by
  obtain ⟨t, ht, rfl, hdiscarded, hdropped, b, hrun⟩ := h
  refine ⟨_, .tail ht ⟨.advance (hrun.trans (List.nil_append _).symm) hperf,
    fanOutCall_attached⟩, rfl, ?_, hdropped, _, rfl⟩
  rw [hdropped, hdiscarded, discards_none]
  rfl

/-- The send returns. -/
lemma fanOut_finish {result : PortResult} {channels : ℕ → Channel PortPacket × ℕ}
    (h : FanOutAt (.ret (.ready result)) channels) :
    ∃ t : Traced (.plain PortPacket), Reachable _ fanOutWiring (fun _ => 1) t ∧
      t.running = [] ∧ t.channels = channels ∧ t.discarded = (fun _ => []) := by
  obtain ⟨t, ht, rfl, hdiscarded, hdropped, b, hrun⟩ := h
  exact ⟨_, .tail ht ⟨.finish (hrun.trans (List.nil_append _).symm), List.forall_mem_nil _⟩, rfl, rfl,
    hdiscarded⟩

/-- A fan-out send over two channels, one of which then loses its receiver. -/
lemma fanOut_reachable : ∃ t : Traced (.plain PortPacket),
    Reachable _ fanOutWiring (fun _ => 1) t ∧ t.Quiet ∧ (t.discarded 1).length = 1 := by
  have hstart : FanOutAt fanOutCall.first fun _ => (.new 1, 1) :=
    ⟨_, .tail .refl ⟨.start fanOutCall (List.Perm.refl []), fanOutCall_attached⟩, rfl, rfl, rfl,
      _, rfl⟩
  have h₁ := fanOut_advance hstart (.record (.ok ()))
  have h₂ := fanOut_advance h₁ (.tryReserve rfl)
  have h₃ := fanOut_advance h₂ (.tryReserve rfl)
  have h₄ := fanOut_advance h₃ (.record (.ok ()))
  have h₅ := fanOut_advance h₄ (.record (.ok ()))
  have h₆ := fanOut_advance h₅ (.record (.ok ()))
  have h₇ := fanOut_advance h₆ (.permitSend rfl)
  have h₈ := fanOut_advance h₇ (.permitSend rfl)
  obtain ⟨t, ht, hrun, hchannels, hdiscarded⟩ := fanOut_finish h₈
  have hcalls : ∀ r ∈ t.running, fanOutWiring.Attached r.call := by
    rw [hrun]
    exact List.forall_mem_nil _
  refine ⟨_, .tail ht ⟨.dropReceiver 1 rfl, hcalls⟩, ?_, ?_⟩
  · intro r hr
    rw [hrun] at hr
    cases hr
  · simp only [hchannels, hdiscarded]
    rfl

theorem messages_conserved_sample :
    (Mpsc.plain PortPacket).Lawful ∧ ∃ t : Traced (.plain PortPacket),
      Reachable _ fanOutWiring (fun _ => 1) t ∧ t.Quiet ∧ (t.discarded 1).length = 1 ∧
      2 * t.stream.countP (Entry.enqueuedOn [0, 1]) =
        (t.committed 0).length + (t.committed 1).length := by
  have hlawful := Mpsc.plain_lawful PortPacket
  obtain ⟨t, ht, hquiet, hdiscarded⟩ := fanOut_reachable
  have hchannels : fanOut.channels ⟨"out", by decide⟩ = [0, 1] := by
    rw [fanOut_channels, if_pos rfl]
  have hbalance := ((messages_conserved _ hlawful fanOutWiring _ t ht).2.1 hquiet).1 fanOut rfl
    ⟨"out", by decide⟩ (by rw [hchannels]; exact nofun)
  rw [hchannels] at hbalance
  refine ⟨hlawful, t, ht, hquiet, hdiscarded, ?_⟩
  simpa using hbalance.1

end Sample

end Traced

end Pureflow.Core
