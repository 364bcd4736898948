import Pureflow.Core.Tallies

/-!
One turn of a node that nobody stands in the way of: nothing is cancelled, and no channel it sends
into is full.

The node is known by how many packets are queued for it. A receive waits only where all its channels
are empty and one of them is live, and a send never waits.
-/

namespace Pureflow.Core

open Pureflow.Types Pureflow.Lib

/-- The packets queued for a node, and the channels it has reserved in this turn. -/
structure Load where
  queued : ℕ → ℕ
  reserved : List ℕ

namespace Load

/-- After a packet was taken from this channel. -/
def taking (g : Load) (c : ℕ) : Load :=
  { g with queued := Function.update g.queued c (g.queued c - 1) }

def after : (op : PortOp) → op.Answer → Load → Load
  | .tryReserve c, .ok (), g => { g with reserved := c :: g.reserved }
  | .pollRecv c, .ready (.ok _), g => g.taking c
  | _, _, g => g

/-- All that is queued on these channels. -/
def total (ins : List ℕ) (g : Load) : ℕ := ∑ c ∈ ins.toFinset, g.queued c

lemma taking_self (g : Load) (c : ℕ) : (g.taking c).queued c = g.queued c - 1 :=
  Function.update_self c _ g.queued

lemma taking_of_ne (g : Load) {c d : ℕ} (h : d ≠ c) : (g.taking c).queued d = g.queued d :=
  Function.update_of_ne h _ g.queued

lemma total_taking_lt {ins : List ℕ} {g : Load} {c : ℕ} (hc : c ∈ ins) (hqueued : 0 < g.queued c) :
    (g.taking c).total ins < g.total ins := by
  refine Finset.sum_lt_sum (fun d _ => ?_) ⟨c, List.mem_toFinset.mpr hc, ?_⟩
  · rcases eq_or_ne d c with rfl | hne
    · rw [taking_self]
      omega
    · rw [taking_of_ne g hne]
  · rw [taking_self]
    omega

lemma total_congr {ins : List ℕ} {g g' : Load} (h : g'.queued = g.queued) :
    g'.total ins = g.total ins := by
  rw [total, h, total]

lemma less_of_taking {ins : List ℕ} {g : Load} {c : ℕ} (hc : c ∈ ins) (hqueued : 0 < g.queued c)
    (rank rank' : ℕ ×ₗ ℕ) :
    toLex ((g.taking c).total ins, rank') < toLex (g.total ins, rank) :=
  Prod.Lex.toLex_lt_toLex.mpr (.inl (total_taking_lt hc hqueued))

lemma less_of_rank {ins : List ℕ} {g g' : Load} (h : g'.queued = g.queued) {rank rank' : ℕ ×ₗ ℕ}
    (hrank : rank' < rank) : toLex (g'.total ins, rank') < toLex (g.total ins, rank) :=
  Prod.Lex.toLex_lt_toLex.mpr (.inr ⟨total_congr h, hrank⟩)

/-- Within a phase, and from one phase to the next one. -/
lemma rank_lt (phase : ℕ) {n n' : ℕ} (h : n' < n) : toLex (phase, n') < toLex (phase, n) :=
  Prod.Lex.toLex_lt_toLex.mpr (.inr ⟨rfl, h⟩)

lemma phase_lt {phase phase' : ℕ} (h : phase' < phase) (n n' : ℕ) :
    toLex (phase', n') < toLex (phase, n) := Prod.Lex.toLex_lt_toLex.mpr (.inl h)

end Load

/-- The calls of a node that receives from `ins` and sends into `outs`, each at most once in a turn,
and their answers while the senders of the `live` channels are there. -/
def streaming (live : ℕ → Prop) (ins outs : List ℕ) : Prog.Ghost PortOp PortOp.Answer Load where
  pre
    | .tryReserve c, g => c ∈ outs ∧ c ∉ g.reserved
    | .pollRecv c, _ => c ∈ ins
    | .tryRecv _, _ => False
    | _, _ => True
  can
    | .tryReserve _, answer, _ => answer ≠ .error .full
    | .pollRecv c, .ready (.ok _), g => 0 < g.queued c
    | .pollRecv c, .ready (.error err), g => err = .disconnected ∧ g.queued c = 0
    | .pollRecv c, .pending, g => g.queued c = 0 ∧ live c
    | .isCancelled, answer, _ => answer = false
    | _, _, _ => True
  post := Load.after

section Calls

variable {live : ℕ → Prop} {ins outs : List ℕ} {g : Load}

lemma quiet_streaming : Quiet (streaming live ins outs) where
  pre {op} hop _ := by cases op <;> first | exact trivial | cases hop
  post {op} hop answer g := by cases op <;> first | rfl | cases hop
  token h := h

lemma streaming_tryReserve {c : ℕ} {Q : Except SendError Unit → Load → Prop} (hc : c ∈ outs)
    (hfresh : c ∉ g.reserved) (hok : Q (.ok ()) { g with reserved := c :: g.reserved })
    (herror : ∀ err, err ≠ .full → Q (.error err) g) :
    Prog.Wp (streaming live ins outs) (PortM.tryReserve c) Q g := by
  refine ⟨⟨hc, hfresh⟩, fun answer hanswer => ?_⟩
  rcases answer with err | ⟨⟩
  · exact herror err fun heq => hanswer (congrArg Except.error heq)
  · exact hok

lemma streaming_pollRecv {c : ℕ} {Q : Poll (Except RecvError PortPacket) → Load → Prop}
    (hc : c ∈ ins) (hpacket : 0 < g.queued c → ∀ packet, Q (.ready (.ok packet)) (g.taking c))
    (hclosed : g.queued c = 0 → Q (.ready (.error .disconnected)) g)
    (hpending : g.queued c = 0 → live c → Q .pending g) :
    Prog.Wp (streaming live ins outs) (PortM.pollRecv c) Q g := by
  refine ⟨hc, fun answer hcan => ?_⟩
  rcases answer with (err | packet) | _
  · obtain ⟨rfl, hempty⟩ : err = .disconnected ∧ g.queued c = 0 := hcan
    exact hclosed hempty
  · exact hpacket hcan packet
  · exact hpending hcan.1 hcan.2

/-- A call that leaves the load of a node as it is. -/
def PortOp.Steady : PortOp → Prop
  | .tryReserve _ | .pollRecv _ | .tryRecv _ => False
  | _ => True

lemma wp_steady {α : Type} {p : PortM α} {Q : α → Load → Prop} (hp : p.Calls PortOp.Steady)
    (hQ : ∀ a, Q a g) : Prog.Wp (streaming live ins outs) p Q g := by
  induction p with
  | ret a => exact hQ a
  | call op k ih =>
    have hafter (answer : op.Answer) : g.after op answer = g := by
      cases op with
      | tryReserve c | pollRecv c => exact hp.1.elim
      | _ => rfl
    refine ⟨by cases op <;> first | exact trivial | exact hp.1.elim, fun answer _ => ?_⟩
    show Prog.Wp _ (k answer) Q (g.after op answer)
    rw [hafter]
    exact ih answer (hp.2 answer)

lemma steady_dropPermits (permits : List ℕ) : (dropPermits permits).Calls PortOp.Steady := by
  induction permits with
  | nil => exact trivial
  | cons c rest ih => exact Prog.calls_bind (Prog.calls_perform trivial) fun _ => ih

lemma steady_sendAll (packet : PortPacket) (permits : List ℕ) :
    (OutputPortSendPermit.sendAll packet permits).Calls PortOp.Steady := by
  induction permits with
  | nil => exact trivial
  | cons c rest ih => exact Prog.calls_bind (Prog.calls_perform trivial) fun _ => ih

lemma steady_permit (permit : OutputPortSendPermit) (packet : PortPacket) :
    (permit.send packet).Calls PortOp.Steady := by
  unfold OutputPortSendPermit.send
  split
  · exact Prog.calls_bind (steady_dropPermits _) fun _ => trivial
  · refine Prog.calls_bind (calls_record (by exact trivial) _) fun _ => ?_
    refine Prog.calls_bind (calls_record (by exact trivial) _) fun _ => ?_
    exact Prog.calls_bind (steady_sendAll packet _) fun _ => trivial

end Calls

section Sending

variable {live : ℕ → Prop} {ins outs : List ℕ} {g : Load}

/-- Channels that were not reserved yet are not found full. -/
lemma tryReserve_go_streaming (h : OutputPortHandle) (metadataSink : Bool)
    (validator : Option OutputPacketValidator) (context : Option NodeContext)
    {senders : List Sender} (permits : List ℕ) (houts : senders.map Sender.channel ⊆ outs)
    (hnodup : (senders.map Sender.channel).Nodup)
    (hfresh : ∀ c ∈ senders.map Sender.channel, c ∉ g.reserved) :
    Prog.Wp (streaming live ins outs)
      (OutputPortHandle.tryReserve.go h metadataSink validator context senders permits)
      (fun r g' => (∀ portId, r ≠ .error (.full portId)) ∧ g'.queued = g.queued) g := by
  induction senders generalizing permits g with
  | nil =>
    rw [OutputPortHandle.tryReserve.go, Prog.wp_bind]
    exact wp_steady (calls_record (by exact trivial) _) fun _ => ⟨fun _ => by rintro ⟨⟩, rfl⟩
  | cons sender rest ih =>
    obtain ⟨hfirst, hrest⟩ := List.cons_subset.mp houts
    obtain ⟨hnew, hnodup⟩ := List.nodup_cons.mp hnodup
    obtain ⟨hfreshFirst, hfreshRest⟩ := List.forall_mem_cons.mp hfresh
    rw [OutputPortHandle.tryReserve.go, Prog.wp_bind]
    refine streaming_tryReserve hfirst hfreshFirst ?_ fun err hne => ?_
    · have hlater : ∀ c ∈ rest.map Sender.channel, c ∉ sender.channel :: g.reserved := by
        intro c hc hreserved
        rcases List.mem_cons.mp hreserved with rfl | hreserved
        · exact hnew hc
        · exact hfreshRest c hc hreserved
      exact ih (g := ⟨g.queued, sender.channel :: g.reserved⟩) _ hrest hnodup hlater
    · simp only [hne, if_false, Prog.wp_bind]
      refine wp_steady (steady_dropPermits _) fun _ => ⟨fun portId hfull => ?_, rfl⟩
      cases err with
      | full => exact hne rfl
      | disconnected | cancelled => cases hfull

/-- **A send does not wait**, the first time in a turn. -/
theorem send_streaming (outputs : PortsOut) {portId : PortId} {packet : PortPacket}
    (houts : outputs.channels portId ⊆ outs) (hnodup : (outputs.channels portId).Nodup)
    (hfresh : g.reserved = []) :
    Prog.Wp (streaming live ins outs) (outputs.send portId packet)
      (fun r g' => r ≠ .pending ∧ g'.queued = g.queued) g := by
  unfold PortsOut.send PortsOut.reserve
  cases hport : PortHandle.find outputs.ports portId with
  | none => exact ⟨by rintro ⟨⟩, rfl⟩
  | some port =>
    rw [PortsOut.channels, hport] at houts hnodup
    simp only [OutputPortHandle.reserve, OutputPortHandle.tryReserve, Prog.wp_bind]
    refine quiet_streaming.wp_isCancelled ?_
    simp only [Bool.false_eq_true, if_false, Prog.wp_bind]
    refine wp_steady (calls_record (by exact trivial) _) fun _ => ?_
    refine (tryReserve_go_streaming port _ _ _ [] houts hnodup
      (by simp [hfresh])).mono fun r g' hr => ?_
    obtain ⟨hne, hqueued⟩ := hr
    rcases r with err | permit
    · cases err with
      | full full => exact absurd rfl (hne full)
      | _ => exact ⟨by rintro ⟨⟩, hqueued⟩
    · simp only [Prog.pure_def, Prog.wp_ret, Prog.wp_bind]
      exact wp_steady (steady_permit permit packet) fun r => ⟨by rintro ⟨⟩, hqueued⟩

end Sending

section Receiving

variable {live : ℕ → Prop} {ins outs : List ℕ} {g : Load}

/-- One of these channels has nothing queued, and all others neither, but it is live. -/
structure Load.Starved (live : ℕ → Prop) (channels : List ℕ) (g : Load) : Prop where
  empty : ∀ c ∈ channels, g.queued c = 0
  live : ∃ c ∈ channels, live c

/-- What the poll of the channels of a port finds. -/
def ScanServed (live : ℕ → Prop) (channels : List ℕ) (g : Load) :
    InputPortHandle.InputPollResult → Load → Prop
  | .packet _, g' => ∃ c ∈ channels, 0 < g.queued c ∧ g' = g.taking c
  | .pending, g' => g' = g ∧ g.Starved live channels
  | .closed, g' => g' = g ∧ ∀ c ∈ channels, g.queued c = 0
  | .cancelled, _ => False

/-- The loop over the channels: what was polled so far is empty, and live unless it was counted. -/
lemma pollAny_go_streaming (h : InputPortHandle) {done rest : List Receiver} {n : ℕ}
    (hall : h.ends = done ++ rest) (hins : rest.map Receiver.channel ⊆ ins) (hle : n ≤ done.length)
    (hempty : ∀ c ∈ done.map Receiver.channel, g.queued c = 0)
    (hlive : n ≠ done.length → ∃ c ∈ done.map Receiver.channel, live c) :
    Prog.Wp (streaming live ins outs) (InputPortHandle.pollAny.go h rest n)
      (ScanServed live (h.ends.map Receiver.channel) g) g := by
  induction rest generalizing done n with
  | nil =>
    rw [List.append_nil] at hall
    rw [InputPortHandle.pollAny.go, hall]
    by_cases hn : n = done.length
    · rw [if_pos (by simp [hn])]
      exact ⟨rfl, hempty⟩
    · rw [if_neg (by simp [hn])]
      exact ⟨rfl, hempty, hlive hn⟩
  | cons receiver rest ih =>
    obtain ⟨hfirst, hrest⟩ := List.cons_subset.mp hins
    have hmem : receiver.channel ∈ h.ends.map Receiver.channel := by
      rw [hall]
      exact List.mem_map_of_mem (List.mem_append_right _ List.mem_cons_self)
    have hall : h.ends = (done ++ [receiver]) ++ rest := by simp [hall]
    have hempties (hqueued : g.queued receiver.channel = 0) :
        ∀ c ∈ (done ++ [receiver]).map Receiver.channel, g.queued c = 0 := by
      intro c hc
      rw [List.map_append, List.mem_append, List.map_singleton, List.mem_singleton] at hc
      rcases hc with hc | rfl
      · exact hempty c hc
      · exact hqueued
    rw [InputPortHandle.pollAny.go, Prog.wp_bind]
    refine streaming_pollRecv hfirst (fun hqueued packet => ⟨_, hmem, hqueued, rfl⟩)
      (fun hqueued => ?_) fun hqueued hlives => ?_
    · -- disconnected: one more is counted
      refine ih hall hrest (by simpa using hle) (hempties hqueued) fun hn => ?_
      rw [List.length_append, List.length_singleton] at hn
      obtain ⟨c, hc, hlives⟩ := hlive (by omega)
      refine ⟨c, ?_, hlives⟩
      rw [List.map_append]
      exact List.mem_append_left _ hc
    · refine ih hall hrest (by rw [List.length_append]; omega) (hempties hqueued) fun _ => ?_
      refine ⟨receiver.channel, ?_, hlives⟩
      rw [List.map_append]
      exact List.mem_append_right _ List.mem_cons_self

lemma pollAny_streaming (h : InputPortHandle) (hins : h.ends.map Receiver.channel ⊆ ins) :
    Prog.Wp (streaming live ins outs) (InputPortHandle.pollAny h)
      (ScanServed live (h.ends.map Receiver.channel) g) g := by
  unfold InputPortHandle.pollAny
  split
  · next hends =>
    rw [List.isEmpty_iff] at hends
    rw [hends]
    exact ⟨rfl, List.forall_mem_nil _⟩
  · exact pollAny_go_streaming h (List.nil_append _).symm hins le_rfl (List.forall_mem_nil _)
      fun hn => absurd rfl hn

/-- What one poll of a receive finds: it waits only where it has nothing to take. -/
def Served {α : Type} (live : ℕ → Prop) (channels : List ℕ) (g : Load) :
    Poll (Except PortRecvError (Option α)) → Load → Prop
  | .ready (.ok (some _)), g' => ∃ c ∈ channels, 0 < g.queued c ∧ g' = g.taking c
  | .ready _, g' => g' = g
  | .pending, g' => g' = g ∧ g.Starved live channels

lemma recvPoll_streaming (inputs : PortsIn) {port : InputPortHandle}
    (hins : port.ends.map Receiver.channel ⊆ ins) :
    Prog.Wp (streaming live ins outs) (inputs.recvPoll port)
      (Served live (port.ends.map Receiver.channel) g) g := by
  have hrecv : Prog.Wp (streaming live ins outs) (InputPortHandle.recv port)
      (Served live (port.ends.map Receiver.channel) g) g := by
    unfold InputPortHandle.recv
    split
    · exact rfl
    rw [Prog.wp_bind]
    refine quiet_streaming.wp_isCancelled ?_
    simp only [Bool.false_eq_true, if_false, Prog.wp_bind]
    refine (pollAny_go_streaming port (List.nil_append _).symm hins le_rfl (List.forall_mem_nil _)
      fun hn => absurd rfl hn).mono fun r g' hr => ?_
    cases r with
    | packet packet => exact hr
    | pending => exact hr
    | closed => exact hr.1
    | cancelled => exact hr.elim
  rw [PortsIn.recvPoll, Prog.wp_bind]
  refine hrecv.mono fun poll g' hpoll => ?_
  rcases poll with answer | _
  · rw [Prog.wp_bind]
    exact quiet_streaming.wp_of_idle (idle_recordReceived inputs port answer) fun _ => hpoll
  · exact hpoll

/-- **A receive on a port**, whether it is polled for the first time or again. -/
theorem recv_streaming (inputs : PortsIn) {portId : PortId} (hins : inputs.channels portId ⊆ ins) :
    Prog.Wp (streaming live ins outs) (inputs.recv portId)
      (Served live (inputs.channels portId) g) g := by
  unfold PortsIn.recv
  cases hport : PortHandle.find inputs.ports portId with
  | none => exact rfl
  | some port =>
    have hchannels : inputs.channels portId = port.ends.map Receiver.channel := by
      rw [PortsIn.channels, hport]
      rfl
    rw [hchannels] at hins ⊢
    rw [Prog.wp_bind]
    exact quiet_streaming.wp_of_idle (idle_recordQueuePressure inputs port _) fun _ =>
      recvPoll_streaming inputs hins

/-- All channels of these ports. -/
def portChannels (ports : List InputPortHandle) : List ℕ :=
  ports.flatMap fun port => port.ends.map Receiver.channel

/-- The loop over the ports: what was polled so far is empty, and live unless it was counted. -/
lemma recvAnyPoll_go_streaming (inputs : PortsIn) {done rest : List InputPortHandle} {n : ℕ}
    (hall : inputs.ports = done ++ rest) (hins : portChannels rest ⊆ ins) (hle : n ≤ done.length)
    (hempty : ∀ c ∈ portChannels done, g.queued c = 0)
    (hlive : n ≠ done.length → ∃ c ∈ portChannels done, live c) :
    Prog.Wp (streaming live ins outs) (PortsIn.recvAnyPoll.go inputs rest n)
      (Served live (portChannels inputs.ports) g) g := by
  induction rest generalizing done n with
  | nil =>
    rw [List.append_nil] at hall
    rw [PortsIn.recvAnyPoll.go, hall]
    by_cases hn : n = done.length
    · rw [if_pos (by simp [hn])]
      exact rfl
    · rw [if_neg (by simp [hn])]
      exact ⟨rfl, hempty, hlive hn⟩
  | cons port rest ih =>
    have hsplit : portChannels inputs.ports = portChannels done ++
        (port.ends.map Receiver.channel ++ portChannels rest) := by
      rw [hall, portChannels, List.flatMap_append, List.flatMap_cons]
      rfl
    obtain ⟨hfirst, hrest⟩ : port.ends.map Receiver.channel ⊆ ins ∧ portChannels rest ⊆ ins :=
      List.append_subset.mp hins
    have hall : inputs.ports = (done ++ [port]) ++ rest := by simp [hall]
    have hdone : portChannels (done ++ [port]) =
        portChannels done ++ port.ends.map Receiver.channel := by
      rw [portChannels, List.flatMap_append, List.flatMap_singleton]
      rfl
    have hempties (hqueued : ∀ c ∈ port.ends.map Receiver.channel, g.queued c = 0) :
        ∀ c ∈ portChannels (done ++ [port]), g.queued c = 0 := by
      rw [hdone]
      exact List.forall_mem_append.mpr ⟨hempty, hqueued⟩
    rw [PortsIn.recvAnyPoll.go, Prog.wp_bind]
    refine (pollAny_streaming port hfirst).mono fun r g' hr => ?_
    cases r with
    | packet packet =>
      obtain ⟨c, hc, hqueued, rfl⟩ := hr
      simp only [Prog.wp_bind]
      refine quiet_streaming.wp_of_idle (idle_recordQueuePressure inputs port _) fun _ => ?_
      refine wp_steady (calls_record (by exact trivial) _) fun _ => ⟨c, ?_, hqueued, rfl⟩
      rw [hsplit]
      exact List.mem_append_right _ (List.mem_append_left _ hc)
    | closed =>
      obtain ⟨rfl, hqueued⟩ := hr
      simp only [Prog.wp_bind]
      refine quiet_streaming.wp_of_idle (idle_recordQueuePressure inputs port _) fun _ => ?_
      refine ih hall hrest (by simpa using hle) (hempties hqueued) fun hn => ?_
      rw [List.length_append, List.length_singleton] at hn
      obtain ⟨c, hc, hlives⟩ := hlive (by omega)
      exact ⟨c, hdone ▸ List.mem_append_left _ hc, hlives⟩
    | cancelled => exact hr.elim
    | pending =>
      obtain ⟨rfl, hstarved⟩ := hr
      refine ih hall hrest (by rw [List.length_append]; omega) (hempties hstarved.empty) fun _ => ?_
      obtain ⟨c, hc, hlives⟩ := hstarved.live
      exact ⟨c, hdone ▸ List.mem_append_right _ hc, hlives⟩

lemma recvAnyPoll_streaming (inputs : PortsIn) (hins : portChannels inputs.ports ⊆ ins) :
    Prog.Wp (streaming live ins outs) inputs.recvAnyPoll
      (Served live (portChannels inputs.ports) g) g := by
  rw [PortsIn.recvAnyPoll, Prog.wp_bind]
  refine quiet_streaming.wp_isCancelled ?_
  simp only [Bool.false_eq_true, if_false]
  exact recvAnyPoll_go_streaming inputs (List.nil_append _).symm hins le_rfl
    (List.forall_mem_nil _) fun hn => absurd rfl hn

/-- **A receive on all ports.** -/
theorem recvAny_streaming (inputs : PortsIn) (hins : portChannels inputs.ports ⊆ ins) :
    Prog.Wp (streaming live ins outs) inputs.recvAny
      (Served live (portChannels inputs.ports) g) g := by
  unfold PortsIn.recvAny
  split
  · exact rfl
  · rw [Prog.wp_bind]
    exact quiet_streaming.wp_of_idle (idle_recordAttempts inputs _) fun _ =>
      recvAnyPoll_streaming inputs hins

end Receiving

end Pureflow.Core
