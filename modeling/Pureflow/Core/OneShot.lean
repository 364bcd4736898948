import Pureflow.Core.Tallies

/-!
Ports in an environment that never stands in the way: nothing is cancelled, a channel that a node
sends into once has room and a receiver, and a channel brings one packet at most, and then waits
for its sender or ends.

A node is known by its account and by the input channels it has seen disconnected. It may reserve
a channel only if it holds no reservation of it and has not sent into it yet.
-/

namespace Pureflow.Core

open Pureflow.Types Pureflow.Lib

/-- The account of a node, with the channels it has seen disconnected. -/
structure Standing where
  account : Account
  closed : List ℕ

namespace Standing

def fresh : Standing := ⟨.holding 0, []⟩

/-- The channels a node has sent into. -/
def sent (g : Standing) : List ℕ := g.account.committed.map Prod.fst

/-- The channels a node has received from. -/
def taken (g : Standing) : List ℕ := g.account.received.map Prod.fst

/-- How many of these channels have brought nothing yet. -/
def awaited (ins : List ℕ) (g : Standing) : ℕ := (ins.toFinset.filter (· ∉ g.taken)).card

def after (op : PortOp) (answer : op.Answer) (g : Standing) : Standing :=
  ⟨g.account.after op answer, g.closed ++ Tally.closes op answer⟩

/-- After a reservation. -/
def holding (g : Standing) (c : ℕ) : Standing :=
  { g with account := { g.account with held := c ::ₘ g.account.held } }

/-- After a commit. -/
def committing (g : Standing) (c : ℕ) (packet : PortPacket) : Standing :=
  { g with account :=
      { g.account with
        held := g.account.held.erase c
        committed := g.account.committed ++ [(c, packet)] } }

/-- After a packet was received. -/
def receiving (g : Standing) (c : ℕ) (packet : PortPacket) : Standing :=
  { g with account := { g.account with received := g.account.received ++ [(c, packet)] } }

/-- With these channels reserved. -/
def reserved (g : Standing) (channels : List ℕ) : Standing :=
  { g with account := { g.account with held := (channels : Multiset ℕ) + g.account.held } }

/-- After a packet was committed to each of these channels. -/
def sending (g : Standing) (channels : List ℕ) (packet : PortPacket) : Standing :=
  { g with account :=
      { g.account with committed := g.account.committed ++ channels.map (·, packet) } }

@[simp] lemma holding_sent (g : Standing) (c : ℕ) : (g.holding c).sent = g.sent := rfl

@[simp] lemma sending_held (g : Standing) (channels : List ℕ) (packet : PortPacket) :
    (g.sending channels packet).account.held = g.account.held := rfl

@[simp] lemma sending_closed (g : Standing) (channels : List ℕ) (packet : PortPacket) :
    (g.sending channels packet).closed = g.closed := rfl

@[simp] lemma sending_sent (g : Standing) (channels : List ℕ) (packet : PortPacket) :
    (g.sending channels packet).sent = g.sent ++ channels := by
  simp [sending, sent, Function.comp_def]

lemma awaited_receiving {ins : List ℕ} {g : Standing} {c : ℕ} (packet : PortPacket) (hc : c ∈ ins)
    (hnew : c ∉ g.taken) : (g.receiving c packet).awaited ins + 1 ≤ g.awaited ins := by
  have htaken : (g.receiving c packet).taken = g.taken ++ [c] := by simp [receiving, taken]
  unfold awaited
  rw [htaken, Nat.succ_le_iff]
  apply Finset.card_lt_card
  refine ⟨fun d hd => ?_, fun hsub => ?_⟩
  · simp only [Finset.mem_filter, List.mem_append, not_or] at hd ⊢
    exact ⟨hd.1, hd.2.1⟩
  · have hmem := hsub (Finset.mem_filter.mpr ⟨List.mem_toFinset.mpr hc, hnew⟩)
    simp at hmem

end Standing

/-- The calls of a node that sends into each of `outs` once and receives from `ins`, and their
answers; a node whose senders are all gone is `awake` and does not wait. -/
def oneShot (awake : Bool) (ins outs : List ℕ) : Prog.Ghost PortOp PortOp.Answer Standing where
  pre
    | .tryReserve c, g => c ∈ outs ∧ c ∉ g.account.held ∧ c ∉ g.sent
    | .permitSend c _, g | .permitAbort c, g => c ∈ g.account.held
    | .pollRecv c, _ => c ∈ ins
    | .tryRecv _, _ => False
    | _, _ => True
  can
    | .tryReserve _, answer, _ => answer = .ok ()
    | .pollRecv c, .ready (.ok _), g => c ∉ g.taken
    | .pollRecv _, .ready (.error err), _ => err = .disconnected
    | .pollRecv _, .pending, _ => awake = false
    | .isCancelled, answer, _ => answer = false
    | _, _, _ => True
  post := Standing.after

section Calls

variable {awake : Bool} {ins outs : List ℕ} {g : Standing}

lemma quiet_oneShot : Quiet (oneShot awake ins outs) where
  pre {op} hop _ := by cases op <;> first | exact trivial | cases hop
  post {op} hop answer g := by
    cases op with
    | len c | isCancelled | record r =>
      simp [oneShot, Standing.after, Tally.closes, Account.after]
    | _ => cases hop
  token h := h

/-- What is known of a node that may have to wait holds of one that need not. -/
lemma wp_awake {α : Type} {p : PortM α} {Q : α → Standing → Prop}
    (h : Prog.Wp (oneShot false ins outs) p Q g) : Prog.Wp (oneShot awake ins outs) p Q g := by
  have hpre : (oneShot awake ins outs).pre = (oneShot false ins outs).pre := rfl
  have hpost : (oneShot awake ins outs).post = (oneShot false ins outs).post := rfl
  refine h.restrict hpre hpost fun op answer g hcan => ?_
  cases op with
  | pollRecv c =>
    rcases answer with (err | packet) | _
    · exact hcan
    · exact hcan
    · rfl
  | _ => exact hcan

lemma oneShot_tryReserve {c : ℕ} {Q : Except SendError Unit → Standing → Prop}
    (hc : c ∈ outs) (hheld : c ∉ g.account.held) (hsent : c ∉ g.sent)
    (hQ : Q (.ok ()) (g.holding c)) :
    Prog.Wp (oneShot awake ins outs) (PortM.tryReserve c) Q g := by
  have hafter : g.after (.tryReserve c) (.ok ()) = g.holding c := by
    simp [Standing.after, Tally.closes, Account.after, Standing.holding]
  refine ⟨⟨hc, hheld, hsent⟩, fun answer hanswer => ?_⟩
  obtain rfl : answer = .ok () := hanswer
  show Q (.ok ()) (g.after (.tryReserve c) (.ok ()))
  rwa [hafter]

lemma oneShot_permitSend {c : ℕ} {packet : PortPacket} {Q : Unit → Standing → Prop}
    (hheld : c ∈ g.account.held) (hQ : Q () (g.committing c packet)) :
    Prog.Wp (oneShot awake ins outs) (PortM.permitSend c packet) Q g := by
  have hafter : g.after (.permitSend c packet) () = g.committing c packet := by
    simp [Standing.after, Tally.closes, Account.after, Standing.committing]
  refine ⟨hheld, fun _ _ => ?_⟩
  show Q () (g.after (.permitSend c packet) ())
  rwa [hafter]

lemma oneShot_pollRecv {c : ℕ} {Q : Poll (Except RecvError PortPacket) → Standing → Prop}
    (hc : c ∈ ins)
    (hpacket : c ∉ g.taken → ∀ packet, Q (.ready (.ok packet)) (g.receiving c packet))
    (hclosed : Q (.ready (.error .disconnected)) { g with closed := g.closed ++ [c] })
    (hpending : awake = false → Q .pending g) :
    Prog.Wp (oneShot awake ins outs) (PortM.pollRecv c) Q g := by
  refine ⟨hc, fun answer hcan => ?_⟩
  rcases answer with (err | packet) | _
  · obtain rfl : err = .disconnected := hcan
    exact hclosed
  · have hafter : g.after (.pollRecv c) (.ready (.ok packet)) = g.receiving c packet := by
      simp [Standing.after, Tally.closes, Account.after, Standing.receiving]
    show Q _ (g.after (.pollRecv c) (.ready (.ok packet)))
    rw [hafter]
    exact hpacket hcan packet
  · have hafter : g.after (.pollRecv c) .pending = g := by
      simp [Standing.after, Tally.closes, Account.after]
    show Q _ (g.after (.pollRecv c) .pending)
    rw [hafter]
    exact hpending hcan

end Calls

section Sending

variable {awake : Bool} {ins outs : List ℕ} {g : Standing}

/-- The permit that a port issues for all its edges. -/
def fullPermit (h : OutputPortHandle) (metadataSink : Bool)
    (validator : Option OutputPacketValidator) (context : Option NodeContext) :
    OutputPortSendPermit :=
  ⟨h.portId, h.ends.map Sender.channel, metadataSink, validator, context,
    h.connectedEdgeCount, OutputPortHandle.totalCapacity h⟩

lemma tryReserve_go_once (h : OutputPortHandle) (metadataSink : Bool)
    (validator : Option OutputPacketValidator) (context : Option NodeContext)
    {senders : List Sender} {permits : List ℕ}
    (hall : h.ends.map Sender.channel = permits ++ senders.map Sender.channel)
    (houts : ∀ s ∈ senders, s.channel ∈ outs) (hnodup : (senders.map Sender.channel).Nodup)
    (hfresh : ∀ s ∈ senders, s.channel ∉ g.account.held ∧ s.channel ∉ g.sent) :
    Prog.Wp (oneShot awake ins outs)
      (OutputPortHandle.tryReserve.go h metadataSink validator context senders permits)
      (fun r g' => r = .ok (fullPermit h metadataSink validator context) ∧
        g' = g.reserved (senders.map Sender.channel)) g := by
  induction senders generalizing permits g with
  | nil =>
    rw [OutputPortHandle.tryReserve.go, Prog.wp_bind]
    refine quiet_oneShot.wp_of_idle (calls_record (by exact trivial) _) fun _ => ?_
    rw [List.map_nil, List.append_nil] at hall
    exact ⟨by rw [fullPermit, hall], by simp [Standing.reserved]⟩
  | cons sender rest ih =>
    obtain ⟨hfirst, hrest⟩ := List.forall_mem_cons.mp houts
    obtain ⟨hnew, hnodup⟩ := List.nodup_cons.mp hnodup
    obtain ⟨hfreshFirst, hfreshRest⟩ := List.forall_mem_cons.mp hfresh
    rw [OutputPortHandle.tryReserve.go, Prog.wp_bind]
    refine oneShot_tryReserve hfirst hfreshFirst.1 hfreshFirst.2 ?_
    have hlater : ∀ s ∈ rest, s.channel ∉ (g.holding sender.channel).account.held ∧
        s.channel ∉ (g.holding sender.channel).sent := by
      intro s hs
      refine ⟨fun hmem => ?_, (hfreshRest s hs).2⟩
      rcases Multiset.mem_cons.mp hmem with heq | hmem
      · exact hnew (heq ▸ List.mem_map_of_mem hs)
      · exact (hfreshRest s hs).1 hmem
    have hall : h.ends.map Sender.channel =
        (permits ++ [sender.channel]) ++ rest.map Sender.channel := by simp [hall]
    refine (ih hall hrest hnodup hlater).mono fun r g' hr => ⟨hr.1, ?_⟩
    rw [hr.2, Standing.reserved, Standing.reserved, Standing.holding]
    simp only [List.map_cons, ← Multiset.cons_coe, Multiset.cons_add, Multiset.add_cons]

lemma sendAll_once (packet : PortPacket) {permits : List ℕ} :
    Prog.Wp (oneShot awake ins outs) (OutputPortSendPermit.sendAll packet permits)
      (fun _ g' => g' = g.sending permits packet) (g.reserved permits) := by
  induction permits generalizing g with
  | nil =>
    rw [OutputPortSendPermit.sendAll]
    show g.reserved [] = g.sending [] packet
    simp [Standing.reserved, Standing.sending]
  | cons c rest ih =>
    rw [OutputPortSendPermit.sendAll, Prog.wp_bind]
    refine oneShot_permitSend (by simp [Standing.reserved]) ?_
    have hspent : (g.reserved (c :: rest)).committing c packet =
        (g.sending [c] packet).reserved rest := by
      simp only [Standing.reserved, Standing.committing, Standing.sending, ← Multiset.cons_coe,
        Multiset.cons_add, Multiset.erase_cons_head, List.map_cons, List.map_nil]
    rw [hspent]
    refine ih.mono fun _ g' hg' => ?_
    rw [hg']
    simp [Standing.sending]

/-- **A first send on a port** goes to all its edges at once. -/
theorem send_once (outputs : PortsOut) {portId : PortId} {packet : PortPacket}
    {port : OutputPortHandle} (hport : PortHandle.find outputs.ports portId = some port)
    (hvalid : ∀ validator ∈ outputs.validator, validator portId packet = .ok ())
    (houts : ∀ c ∈ outputs.channels portId, c ∈ outs) (hnodup : (outputs.channels portId).Nodup)
    (hfresh : ∀ c ∈ outputs.channels portId, c ∉ g.account.held ∧ c ∉ g.sent) :
    Prog.Wp (oneShot awake ins outs) (outputs.send portId packet)
      (fun r g' => r = .ready (.ok ()) ∧ g' = g.sending (outputs.channels portId) packet) g := by
  have hchannels : outputs.channels portId = port.ends.map Sender.channel := by
    rw [PortsOut.channels, hport]
    rfl
  rw [hchannels] at houts hnodup hfresh ⊢
  have hportId : port.portId = portId := by simpa using List.find?_some hport
  let permit := fullPermit port outputs.metadataSink outputs.validator outputs.context
  have hvalidate : permit.validate packet = .ok () := by
    cases hv : outputs.validator with
    | none => simp [OutputPortSendPermit.validate, permit, fullPermit, hv]
    | some validator =>
      have haccepts := hvalid validator hv
      simp [OutputPortSendPermit.validate, permit, fullPermit, hv, hportId, haccepts]
  have hgo : Prog.Wp (oneShot awake ins outs) (OutputPortHandle.tryReserve.go port
      outputs.metadataSink outputs.validator outputs.context port.ends [])
      (fun r g' => r = .ok permit ∧ g' = g.reserved (port.ends.map Sender.channel)) g :=
    tryReserve_go_once port _ _ _ (List.nil_append _).symm
      (fun s hs => houts _ (List.mem_map_of_mem hs)) hnodup
      fun s hs => hfresh _ (List.mem_map_of_mem hs)
  have hreserve : Prog.Wp (oneShot awake ins outs) (outputs.reserve portId)
      (fun r g' => r = .ready (.ok permit) ∧
        g' = g.reserved (port.ends.map Sender.channel)) g := by
    simp only [PortsOut.reserve, hport, OutputPortHandle.reserve, Prog.wp_bind]
    refine quiet_oneShot.wp_isCancelled ?_
    simp only [Bool.false_eq_true, if_false, OutputPortHandle.tryReserve, Prog.wp_bind]
    refine quiet_oneShot.wp_of_idle (calls_record (by exact trivial) _) fun _ => ?_
    refine hgo.mono fun r g' hr => ?_
    obtain ⟨rfl, rfl⟩ := hr
    exact ⟨rfl, rfl⟩
  rw [PortsOut.send, Prog.wp_bind]
  refine hreserve.mono fun r g' hr => ?_
  obtain ⟨rfl, rfl⟩ := hr
  simp only [OutputPortSendPermit.send, hvalidate, Prog.wp_bind]
  refine quiet_oneShot.wp_of_idle (calls_record (by exact trivial) _) fun _ => ?_
  refine quiet_oneShot.wp_of_idle (calls_record (by exact trivial) _) fun _ => ?_
  exact (sendAll_once packet).mono fun _ g' hg' => ⟨rfl, hg'⟩

end Sending

section Receiving

variable {awake : Bool} {ins outs : List ℕ} {g : Standing}

/-- The node awaits so many packets less, and may have seen more channels closed. -/
structure Standing.Later (ins : List ℕ) (g g' : Standing) (packets : ℕ) : Prop where
  held : g'.account.held = g.account.held
  committed : g'.account.committed = g.account.committed
  awaited : g'.awaited ins + packets ≤ g.awaited ins
  closed : g.closed ⊆ g'.closed

lemma Standing.Later.refl (ins : List ℕ) (g : Standing) : g.Later ins g 0 :=
  ⟨rfl, rfl, le_rfl, List.Subset.refl _⟩

lemma Standing.Later.trans {ins : List ℕ} {g₁ g₂ g₃ : Standing} {n m : ℕ}
    (h : g₁.Later ins g₂ n) (h' : g₂.Later ins g₃ m) : g₁.Later ins g₃ (n + m) := by
  have hfirst := h.awaited
  have hsecond := h'.awaited
  exact ⟨h'.held.trans h.held, h'.committed.trans h.committed, by omega,
    List.Subset.trans h.closed h'.closed⟩

/-- What the poll of the channels of a port finds. -/
def Scanned (awake : Bool) (ins channels : List ℕ) (g : Standing) :
    InputPortHandle.InputPollResult → Standing → Prop
  | .packet _, g' => g.Later ins g' 1
  | .pending, g' => g.Later ins g' 0 ∧ awake = false
  | .closed, g' => g.Later ins g' 0 ∧ channels ⊆ g'.closed
  | .cancelled, _ => False

/-- The loop over the channels: as many as were disconnected are counted. -/
lemma pollAny_go_once (h : InputPortHandle) {done rest : List Receiver} {n : ℕ}
    (hall : h.ends = done ++ rest) (hins : ∀ r ∈ rest, r.channel ∈ ins)
    (hle : n ≤ done.length) (hclosed : n = done.length → done.map Receiver.channel ⊆ g.closed)
    (hawake : awake = true → n = done.length) :
    Prog.Wp (oneShot awake ins outs) (InputPortHandle.pollAny.go h rest n)
      (Scanned awake ins (h.ends.map Receiver.channel) g) g := by
  induction rest generalizing done n g with
  | nil =>
    rw [List.append_nil] at hall
    rw [InputPortHandle.pollAny.go, hall]
    by_cases hn : n = done.length
    · rw [if_pos (by simp [hn])]
      exact ⟨.refl ins g, hclosed hn⟩
    · rw [if_neg (by simp [hn])]
      exact ⟨.refl ins g, by simpa using mt hawake hn⟩
  | cons receiver rest ih =>
    obtain ⟨hfirst, hrest⟩ := List.forall_mem_cons.mp hins
    have hall : h.ends = (done ++ [receiver]) ++ rest := by simp [hall]
    rw [InputPortHandle.pollAny.go, Prog.wp_bind]
    refine oneShot_pollRecv hfirst (fun hnew packet => ?_) ?_ fun hsleeps => ?_
    · exact ⟨rfl, rfl, Standing.awaited_receiving packet hfirst hnew, List.Subset.refl _⟩
    · -- disconnected: one more is counted
      let g₁ : Standing := { g with closed := g.closed ++ [receiver.channel] }
      have hscan : Prog.Wp (oneShot awake ins outs) (InputPortHandle.pollAny.go h rest (n + 1))
          (Scanned awake ins (h.ends.map Receiver.channel) g₁) g₁ := by
        refine ih hall hrest (by simpa using hle) (fun hn => ?_) fun ha => ?_
        · simp only [List.length_append, List.length_singleton, Nat.add_right_cancel_iff] at hn
          rw [List.map_append]
          exact List.append_subset.mpr
            ⟨List.Subset.trans (hclosed hn) (List.subset_append_left _ _),
              List.subset_append_right _ _⟩
        · simpa using hawake ha
      have hlater : g.Later ins g₁ 0 :=
        ⟨rfl, rfl, le_rfl, List.subset_append_left _ _⟩
      refine hscan.mono fun r g' hr => ?_
      cases r with
      | packet packet => simpa [Scanned] using hlater.trans hr
      | pending => exact ⟨by simpa using hlater.trans hr.1, hr.2⟩
      | closed => exact ⟨by simpa using hlater.trans hr.1, hr.2⟩
      | cancelled => exact hr
    · -- pending: fewer are counted than were polled
      refine ih hall hrest (by rw [List.length_append]; omega) (fun hn => ?_) fun ha => ?_
      · rw [List.length_append, List.length_singleton] at hn
        omega
      · rw [hsleeps] at ha
        cases ha

/-- What one poll of a receive finds: a packet, or that all its channels are disconnected; it
waits only where it may have to. -/
def ReceivedOnce (awake : Bool) (ins channels : List ℕ) (g : Standing) :
    Poll (Except PortRecvError (Option PortPacket)) → Standing → Prop
  | .ready (.ok (some _)), g' => g.Later ins g' 1
  | .ready (.ok none), g' | .ready (.error (.disconnected _)), g' =>
    g.Later ins g' 0 ∧ channels ⊆ g'.closed
  | .ready (.error _), _ => False
  | .pending, g' => g.Later ins g' 0 ∧ awake = false

lemma recvPoll_once (inputs : PortsIn) {port : InputPortHandle}
    (hins : ∀ c ∈ port.ends.map Receiver.channel, c ∈ ins) :
    Prog.Wp (oneShot awake ins outs) (inputs.recvPoll port)
      (ReceivedOnce awake ins (port.ends.map Receiver.channel) g) g := by
  have hrecv : Prog.Wp (oneShot awake ins outs) (InputPortHandle.recv port)
      (ReceivedOnce awake ins (port.ends.map Receiver.channel) g) g := by
    unfold InputPortHandle.recv
    split
    · next hempty =>
      rw [List.isEmpty_iff] at hempty
      rw [hempty]
      exact ⟨.refl ins g, List.nil_subset _⟩
    rw [Prog.wp_bind]
    refine quiet_oneShot.wp_isCancelled ?_
    simp only [Bool.false_eq_true, if_false, Prog.wp_bind]
    refine (pollAny_go_once port (List.nil_append _).symm
      (fun r hr => hins _ (List.mem_map_of_mem hr)) le_rfl (fun _ => List.nil_subset _)
      fun _ => rfl).mono fun r g' hr => ?_
    cases r with
    | cancelled => exact hr.elim
    | _ => exact hr
  rw [PortsIn.recvPoll, Prog.wp_bind]
  refine hrecv.mono fun poll g' hpoll => ?_
  rcases poll with answer | _
  · rw [Prog.wp_bind]
    exact quiet_oneShot.wp_of_idle (idle_recordReceived inputs port answer) fun _ => hpoll
  · exact hpoll

/-- **A receive on a declared port**, whether it is polled for the first time or again. -/
theorem recv_once (inputs : PortsIn) {portId : PortId} {port : InputPortHandle}
    (hport : PortHandle.find inputs.ports portId = some port)
    (hins : ∀ c ∈ inputs.channels portId, c ∈ ins) :
    Prog.Wp (oneShot awake ins outs) (inputs.recv portId)
      (ReceivedOnce awake ins (inputs.channels portId) g) g ∧
    Prog.Wp (oneShot awake ins outs) (inputs.recvPoll port)
      (ReceivedOnce awake ins (inputs.channels portId) g) g := by
  have hchannels : inputs.channels portId = port.ends.map Receiver.channel := by
    rw [PortsIn.channels, hport]
    rfl
  rw [hchannels] at hins ⊢
  refine ⟨?_, recvPoll_once inputs hins⟩
  simp only [PortsIn.recv, hport]
  rw [Prog.wp_bind]
  exact quiet_oneShot.wp_of_idle (idle_recordQueuePressure inputs port _) fun _ =>
    recvPoll_once inputs hins

end Receiving

end Pureflow.Core
