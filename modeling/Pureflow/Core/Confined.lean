import Pureflow.Core.Traced
import Pureflow.Lib.Turns

/-!
Which calls a receive and a send make.

A receive polls the channels of its port and no others, one that does not wait asks them all before
it gives up, a send reserves and commits on the channels of its port, and neither tells the sink of
anything but queues and messages.
-/

namespace Pureflow.Core

open Pureflow.Types Pureflow.Lib

/-- A call on the channels, the token or the sink, with its answer. -/
abbrev PortEvent := Prog.Event PortOp.Answer

/-- A record that ports make. -/
def MetadataRecord.IsPort : MetadataRecord → Prop
  | .message _ | .queuePressure _ => True
  | _ => False

/-- The channels of an input port; an undeclared port has none. -/
def PortsIn.channels (ports : PortsIn) (portId : PortId) : List ℕ :=
  ((PortHandle.find ports.ports portId).elim [] (·.ends)).map Receiver.channel

/-- The calls of a receive on these channels, where it may look at the token or has done so. -/
def PortOp.Receiving (channels : List ℕ) (token : Bool) : PortOp → Prop
  | .pollRecv c | .len c => c ∈ channels
  | .isCancelled => token = true
  | .record r => r.IsPort
  | _ => False

/-- The calls of a send of a packet on these channels. -/
def PortOp.Sending (channels : List ℕ) (packet : PortPacket) : PortOp → Prop
  | .tryReserve c | .permitAbort c => c ∈ channels
  | .permitSend c sent => c ∈ channels ∧ sent = packet
  | .isCancelled => True
  | .record r => r.IsPort
  | _ => False

section Receives

variable {channels : List ℕ} {token : Bool}

lemma calls_record {P : PortOp → Prop} {r : MetadataRecord} (h : P (.record r))
    (metadataSink : Bool) : (PortM.record metadataSink r).Calls P := by
  cases metadataSink with
  | false => exact trivial
  | true => exact ⟨h, fun _ => trivial⟩

lemma receiving_recordQueuePressure (ports : PortsIn) {port : InputPortHandle}
    (h : ∀ r ∈ port.ends, r.channel ∈ channels) (kind : QueuePressureBoundaryKind) :
    (ports.recordQueuePressure port kind).Calls (PortOp.Receiving channels token) := by
  have go (receivers : List Receiver) (hsub : ∀ r ∈ receivers, r.channel ∈ channels) :
      (InputPortHandle.queuedCount.go receivers).Calls (PortOp.Receiving channels token) := by
    induction receivers with
    | nil => exact trivial
    | cons receiver rest ih =>
      obtain ⟨hfirst, hrest⟩ := List.forall_mem_cons.mp hsub
      exact Prog.calls_bind (Prog.calls_perform hfirst) fun _ =>
        Prog.calls_bind (ih hrest) fun _ => trivial
  unfold PortsIn.recordQueuePressure
  split
  · exact Prog.calls_bind (go port.ends h) fun _ => calls_record (by exact trivial) _
  · exact trivial

lemma receiving_pollAny_go (h : InputPortHandle) {receivers : List Receiver}
    (hsub : ∀ r ∈ receivers, r.channel ∈ channels) (n : ℕ) :
    (InputPortHandle.pollAny.go h receivers n).Calls (PortOp.Receiving channels token) := by
  induction receivers generalizing n with
  | nil =>
    unfold InputPortHandle.pollAny.go
    split <;> exact trivial
  | cons receiver rest ih =>
    obtain ⟨hfirst, hrest⟩ := List.forall_mem_cons.mp hsub
    refine Prog.calls_bind (Prog.calls_perform hfirst) fun answer => ?_
    rcases answer with (err | packet) | _
    · cases err with
      | disconnected => exact ih hrest _
      | cancelled => exact trivial
      | empty => exact ih hrest _
    · exact trivial
    · exact ih hrest _

lemma receiving_recordReceived (ports : PortsIn) {port : InputPortHandle}
    (h : ∀ r ∈ port.ends, r.channel ∈ channels)
    (answer : Except PortRecvError (Option PortPacket)) :
    (ports.recordReceived port answer).Calls (PortOp.Receiving channels token) := by
  rcases answer with err | _ | packet
  · cases err with
    | disconnected portId => exact receiving_recordQueuePressure ports h _
    | unknownPort portId => exact trivial
    | cancelled portId => exact trivial
  · exact receiving_recordQueuePressure ports h _
  · exact Prog.calls_bind (receiving_recordQueuePressure ports h _) fun _ =>
      calls_record (by exact trivial) _

lemma receiving_recvPoll (ports : PortsIn) {port : InputPortHandle}
    (h : ∀ r ∈ port.ends, r.channel ∈ channels) :
    (ports.recvPoll port).Calls (PortOp.Receiving channels true) := by
  have hrecv : (InputPortHandle.recv port).Calls (PortOp.Receiving channels true) := by
    unfold InputPortHandle.recv
    split
    · exact trivial
    refine Prog.calls_bind (Prog.calls_perform rfl) fun cancelled => ?_
    cases cancelled with
    | true => exact trivial
    | false =>
      refine Prog.calls_bind (receiving_pollAny_go port h 0) fun r => ?_
      cases r <;> exact trivial
  refine Prog.calls_bind hrecv fun poll => ?_
  rcases poll with answer | _
  · exact Prog.calls_bind (receiving_recordReceived ports h answer) fun _ => trivial
  · exact trivial

/-- The first poll of a receive, or a later one, keeps to the channels of its port. -/
theorem receiving_recv (ports : PortsIn) (portId : PortId) :
    (ports.recv portId).Calls (PortOp.Receiving (ports.channels portId) true) ∧
    ∀ port, PortHandle.find ports.ports portId = some port →
      (ports.recvPoll port).Calls (PortOp.Receiving (ports.channels portId) true) := by
  unfold PortsIn.recv PortsIn.channels
  cases hport : PortHandle.find ports.ports portId with
  | none => exact ⟨trivial, by rintro port ⟨⟩⟩
  | some port =>
    have hends : ∀ r ∈ port.ends, r.channel ∈ port.ends.map Receiver.channel :=
      fun r hr => List.mem_map_of_mem hr
    refine ⟨Prog.calls_bind (receiving_recordQueuePressure ports hends _) fun _ =>
      receiving_recvPoll ports hends, ?_⟩
    rintro port' ⟨⟩
    exact receiving_recvPoll ports hends

/-- A request for cancellation was seen. -/
def SeesRequest (events : List PortEvent) : Prop := ⟨.isCancelled, true⟩ ∈ events

lemma not_seesRequest {events : List PortEvent}
    (h : ∀ e ∈ events, e.1.Receiving channels false) : ¬ SeesRequest events := by
  intro hmem
  cases h _ hmem

lemma not_seesRequest_of_forall {events : List PortEvent}
    (h : ∀ e ∈ events, e = ⟨.isCancelled, false⟩ ∨ e.1 ≠ .isCancelled) : ¬ SeesRequest events := by
  intro hmem
  rcases h _ hmem with heq | hne
  · cases heq
  · exact hne rfl

lemma seesRequest_append {before after : List PortEvent} :
    SeesRequest (before ++ after) ↔ SeesRequest before ∨ SeesRequest after := List.mem_append

lemma isCancelled_yields {α : Type} {f : Bool → PortM α} {events : List PortEvent} {a : α}
    (h : (PortM.isCancelled >>= f).Yields events a) :
    ∃ cancelled rest, events = ⟨.isCancelled, cancelled⟩ :: rest ∧
      (f cancelled).Yields rest a := by
  obtain ⟨cancelled, rest, rfl, hrest⟩ := Prog.yields_call.mp h
  exact ⟨cancelled, rest, rfl, hrest⟩

lemma seesRequest_cons {cancelled : Bool} {rest : List PortEvent} :
    SeesRequest (⟨.isCancelled, cancelled⟩ :: rest) ↔ cancelled = true ∨ SeesRequest rest := by
  cases cancelled with
  | true => simp [SeesRequest]
  | false =>
    simp only [Bool.false_eq_true, false_or]
    constructor
    · rintro (_ | ⟨_, hmem⟩)
      exact hmem
    · exact List.mem_cons_of_mem _

lemma recvPoll_sees {ports : PortsIn} {port : InputPortHandle} {packet : PortPacket}
    {events : List PortEvent}
    (h : (ports.recvPoll port).Yields events (.ready (.ok (some packet)))) :
    ¬ SeesRequest events := by
  have hends : ∀ r ∈ port.ends, r.channel ∈ port.ends.map Receiver.channel :=
    fun r hr => List.mem_map_of_mem hr
  obtain ⟨poll, polling, recording, rfl, hpoll, hrest⟩ := Prog.yields_bind.mp h
  rcases poll with answer | _
  swap
  · cases (Prog.yields_ret.mp hrest).2
  obtain ⟨_, recording, rest, rfl, hrecording, hrest⟩ := Prog.yields_bind.mp hrest
  obtain ⟨rfl, hanswer⟩ := Prog.yields_ret.mp hrest
  cases hanswer
  have hquiet := not_seesRequest (hrecording.calls
    (receiving_recordReceived ports hends (.ok (some packet))))
  rw [List.append_nil, seesRequest_append, not_or]
  refine ⟨?_, hquiet⟩
  unfold InputPortHandle.recv at hpoll
  split at hpoll
  · cases (Prog.yields_ret.mp hpoll).2
  obtain ⟨cancelled, rest, rfl, hrest⟩ := isCancelled_yields hpoll
  cases cancelled with
  | true => cases (Prog.yields_ret.mp hrest).2
  | false =>
    simp only [Bool.false_eq_true, if_false] at hrest
    obtain ⟨r, scanning, last, rfl, hscan, hlast⟩ := Prog.yields_bind.mp hrest
    have hlast : last = [] := by
      cases r <;> exact (Prog.yields_ret.mp hlast).1
    have hscanned : ¬ SeesRequest scanning :=
      not_seesRequest (hscan.calls (receiving_pollAny_go port hends 0))
    rw [hlast, List.append_nil, seesRequest_cons, not_or]
    exact ⟨Bool.false_ne_true, hscanned⟩

lemma recv_sees {ports : PortsIn} {portId : PortId} {packet : PortPacket}
    {events : List PortEvent}
    (h : (ports.recv portId).Yields events (.ready (.ok (some packet)))) :
    ¬ SeesRequest events := by
  unfold PortsIn.recv at h
  split at h
  · cases (Prog.yields_ret.mp h).2
  next port hport =>
  have hends : ∀ r ∈ port.ends, r.channel ∈ port.ends.map Receiver.channel :=
    fun r hr => List.mem_map_of_mem hr
  obtain ⟨_, recording, polling, rfl, hrecording, hpoll⟩ := Prog.yields_bind.mp h
  rw [seesRequest_append, not_or]
  exact ⟨not_seesRequest (hrecording.calls (receiving_recordQueuePressure ports hends _)),
    recvPoll_sees hpoll⟩

end Receives

section TryReceives

/-- The packet answered was taken from one of these channels; without one nothing was taken. -/
def TakenFrom (channels : List ℕ) (g : Account) :
    Except PortRecvError (Option PortPacket) → Account → Prop
  | .ok (some packet), g' => ∃ c ∈ channels, g' = { g with received := g.received ++ [(c, packet)] }
  | _, g' => g' = g

lemma tryRecv_taken (ports : PortsIn) (portId : PortId) {g : Account} :
    Prog.Wp ledger (ports.tryRecv portId) (TakenFrom (ports.channels portId) g) g := by
  unfold PortsIn.tryRecv PortsIn.channels
  cases PortHandle.find ports.ports portId with
  | none => rfl
  | some port =>
    have go (receivers : List Receiver) (n : ℕ) (hsub : ∀ r ∈ receivers, r ∈ port.ends) :
        Prog.Wp ledger (InputPortHandle.tryRecv.go port receivers n)
          (TakenFrom (port.ends.map Receiver.channel) g) g := by
      induction receivers generalizing n with
      | nil =>
        unfold InputPortHandle.tryRecv.go
        split <;> rfl
      | cons receiver rest ih =>
        obtain ⟨hfirst, hrest⟩ := List.forall_mem_cons.mp hsub
        simp only [InputPortHandle.tryRecv.go, Prog.wp_bind, wp_tryRecv]
        refine ⟨fun packet => ⟨_, List.mem_map_of_mem hfirst, rfl⟩, fun err => ?_⟩
        cases err with
        | disconnected => exact ih _ hrest
        | cancelled => rfl
        | empty => exact ih _ hrest
    simp only [Prog.wp_bind]
    refine wp_recordQueuePressure ((go port.ends 0 fun _ hr => hr).mono fun _ g' hr => ?_)
    exact wp_recordReceived hr

lemma tryRecv_asks {ports : PortsIn} {portId : PortId} {events : List PortEvent}
    (h : (ports.tryRecv portId).Yields events (.ok none)) :
    ∀ c ∈ ports.channels portId, ∃ err, ⟨.tryRecv c, .error err⟩ ∈ events := by
  unfold PortsIn.tryRecv at h
  unfold PortsIn.channels
  cases hport : PortHandle.find ports.ports portId with
  | none =>
    rw [hport] at h
    cases (Prog.yields_ret.mp h).2
  | some port =>
    have go (receivers : List Receiver) (n : ℕ) {events : List PortEvent}
        (h : (InputPortHandle.tryRecv.go port receivers n).Yields events (.ok none)) :
        ∀ r ∈ receivers, ∃ err, ⟨.tryRecv r.channel, .error err⟩ ∈ events := by
      induction receivers generalizing n events with
      | nil => exact List.forall_mem_nil _
      | cons receiver rest ih =>
        rw [InputPortHandle.tryRecv.go] at h
        obtain ⟨answer, after, rfl, hafter⟩ := Prog.yields_call.mp h
        rcases answer with err | packet
        · have hrest : ∀ r ∈ rest, ∃ err, ⟨.tryRecv r.channel, .error err⟩ ∈ after := by
            cases err with
            | disconnected => exact ih _ hafter
            | cancelled => cases (Prog.yields_ret.mp hafter).2
            | empty => exact ih _ hafter
          refine List.forall_mem_cons.mpr ⟨⟨err, List.mem_cons_self⟩, fun r hr => ?_⟩
          obtain ⟨err, hmem⟩ := hrest r hr
          exact ⟨err, List.mem_cons_of_mem _ hmem⟩
        · cases (Prog.yields_ret.mp hafter).2
    rw [hport] at h
    obtain ⟨-, start, rest, rfl, -, hrest⟩ := Prog.yields_bind.mp h
    obtain ⟨answer, asked, done, rfl, hasked, hdone⟩ := Prog.yields_bind.mp hrest
    obtain ⟨-, noted, last, rfl, -, hlast⟩ := Prog.yields_bind.mp hdone
    obtain ⟨-, rfl⟩ := Prog.yields_ret.mp hlast
    intro c hc
    obtain ⟨r, hr, rfl⟩ := List.mem_map.mp hc
    obtain ⟨err, hmem⟩ := go port.ends 0 hasked r hr
    exact ⟨err, List.mem_append_right _ (List.mem_append_left _ hmem)⟩

end TryReceives

section Sends

variable {channels : List ℕ} {packet : PortPacket}

lemma sending_dropPermits {permits : List ℕ} (h : permits ⊆ channels) :
    (dropPermits permits).Calls (PortOp.Sending channels packet) := by
  induction permits with
  | nil => exact trivial
  | cons c rest ih =>
    obtain ⟨hc, hrest⟩ := List.cons_subset.mp h
    exact Prog.calls_bind (Prog.calls_perform hc) fun _ => ih hrest

lemma sending_sendAll {permits : List ℕ} (h : permits ⊆ channels) :
    (OutputPortSendPermit.sendAll packet permits).Calls (PortOp.Sending channels packet) := by
  induction permits with
  | nil => exact trivial
  | cons c rest ih =>
    obtain ⟨hc, hrest⟩ := List.cons_subset.mp h
    exact Prog.calls_bind (Prog.calls_perform ⟨hc, rfl⟩) fun _ => ih hrest

lemma sending_permit {permit : OutputPortSendPermit} (h : permit.permits ⊆ channels) :
    (permit.send packet).Calls (PortOp.Sending channels packet) := by
  unfold OutputPortSendPermit.send
  split
  · exact Prog.calls_bind (sending_dropPermits h) fun _ => trivial
  · exact Prog.calls_bind (calls_record (by exact trivial) _) fun _ =>
      Prog.calls_bind (calls_record (by exact trivial) _) fun _ =>
        Prog.calls_bind (sending_sendAll h) fun _ => trivial

lemma sending_tryReserve_go (h : OutputPortHandle) (metadataSink : Bool)
    (validator : Option OutputPacketValidator) (context : Option NodeContext)
    {senders : List Sender} {permits : List ℕ} (hsenders : ∀ s ∈ senders, s.channel ∈ channels)
    (hpermits : permits ⊆ channels) :
    (OutputPortHandle.tryReserve.go h metadataSink validator context senders permits).Calls
      (PortOp.Sending channels packet) := by
  have hpressure (kind : QueuePressureBoundaryKind) :
      (OutputPortHandle.recordQueuePressure metadataSink context h kind).Calls
        (PortOp.Sending channels packet) := calls_record (by exact trivial) _
  induction senders generalizing permits with
  | nil => exact Prog.calls_bind (hpressure _) fun _ => trivial
  | cons sender rest ih =>
    obtain ⟨hfirst, hrest⟩ := List.forall_mem_cons.mp hsenders
    refine Prog.calls_bind (Prog.calls_perform hfirst) fun answer => ?_
    rcases answer with err | ⟨⟩
    · have hdrop : (do dropPermits permits; return .error (h.mapSendError err) :
          PortM (Except PortSendError OutputPortSendPermit)).Calls
            (PortOp.Sending channels packet) :=
        Prog.calls_bind (sending_dropPermits hpermits) fun _ => trivial
      by_cases hfull : err = .full
      · simp only [hfull, if_true] at hdrop ⊢
        exact Prog.calls_bind (hpressure _) fun _ => hdrop
      · simpa only [hfull, if_false] using hdrop
    · refine ih hrest ?_
      rw [List.append_subset]
      exact ⟨hpermits, by simpa using hfirst⟩

/-- One poll of a send keeps to the channels of its port and commits only its packet. -/
theorem sending_send (ports : PortsOut) (portId : PortId) (packet : PortPacket) :
    (ports.send portId packet).Calls (PortOp.Sending (ports.channels portId) packet) := by
  have hreserve : (ports.reserve portId).Calls
      (PortOp.Sending (ports.channels portId) packet) := by
    unfold PortsOut.reserve PortsOut.channels
    cases PortHandle.find ports.ports portId with
    | none => exact trivial
    | some port =>
      refine Prog.calls_bind (Prog.calls_perform trivial) fun cancelled => ?_
      cases cancelled with
      | true => exact trivial
      | false =>
        have hgo : (OutputPortHandle.tryReserve.go port ports.metadataSink ports.validator
            ports.context port.ends []).Calls
              (PortOp.Sending (port.ends.map Sender.channel) packet) :=
          sending_tryReserve_go port _ _ _ (fun s hs => List.mem_map_of_mem hs)
            (List.nil_subset _)
        have htry : (OutputPortHandle.tryReserve port ports.metadataSink ports.validator
            ports.context).Calls (PortOp.Sending (port.ends.map Sender.channel) packet) :=
          Prog.calls_bind (calls_record (by exact trivial) _) fun _ => hgo
        refine Prog.calls_bind htry fun answer => ?_
        rcases answer with err | permit
        · cases err <;> exact trivial
        · exact trivial
  refine Prog.calls_bind_ends hreserve (portsOut_reserve_issued ports portId)
    fun poll hissued => ?_
  rcases poll with (err | permit) | _
  · exact trivial
  · have hpermits := (hissued permit rfl).permits
    exact Prog.calls_bind (sending_permit (by rw [hpermits]; exact List.Subset.refl _))
      fun _ => trivial
  · exact trivial

end Sends

section Histories

/-- The packets received in a trace, each with its channel. -/
def receivedIn (events : List PortEvent) : List (ℕ × PortPacket) :=
  events.filterMap fun e => System.receives e.1 e.2

/-- The packets committed in a trace, each with its channel. -/
def committedIn (events : List PortEvent) : List (ℕ × PortPacket) :=
  events.filterMap fun e => System.commits e.1

/-- The packet a poll of a receive returns. -/
def polledPacket : Poll (Except PortRecvError (Option PortPacket)) → Option PortPacket
  | .ready (.ok packet) => packet
  | _ => none

variable {events : List PortEvent} {g : Account}

lemma filterMap_cons_toList {α β : Type} (f : α → Option β) (a : α) (l : List α) :
    (a :: l).filterMap f = (f a).toList ++ l.filterMap f := by
  cases h : f a with
  | none => simp [h]
  | some b => simp [h]

lemma after_received : (Prog.Yields.after ledger events g).received =
    g.received ++ receivedIn events := by
  induction events generalizing g with
  | nil => exact (List.append_nil _).symm
  | cons e rest ih =>
    rw [receivedIn, filterMap_cons_toList, ← List.append_assoc, ← Traced.received_after g e.1 e.2]
    exact ih

lemma after_committed : (Prog.Yields.after ledger events g).committed =
    g.committed ++ committedIn events := by
  induction events generalizing g with
  | nil => exact (List.append_nil _).symm
  | cons e rest ih =>
    rw [committedIn, filterMap_cons_toList, ← List.append_assoc, ← Traced.committed_after g e.1 e.2]
    exact ih

lemma receivedIn_of_polled {p : PortM (Poll (Except PortRecvError (Option PortPacket)))}
    {poll : Poll (Except PortRecvError (Option PortPacket))} (h : p.Yields events poll)
    (hp : Prog.Wp ledger p (PollReceived (.holding 0)) (.holding 0)) :
    (receivedIn events).map Prod.snd = (polledPacket poll).toList := by
  have hend := h.wp (fun _ _ _ => trivial) hp
  have hreceived : receivedIn events = (Prog.Yields.after ledger events (.holding 0)).received := by
    rw [after_received]
    rfl
  rw [hreceived]
  rcases poll with (err | _ | packet) | _
  · rw [show Prog.Yields.after ledger events (.holding 0) = .holding 0 from hend]
    rfl
  · rw [show Prog.Yields.after ledger events (.holding 0) = .holding 0 from hend]
    rfl
  · obtain ⟨c, hc⟩ := hend
    rw [hc]
    rfl
  · rw [show Prog.Yields.after ledger events (.holding 0) = .holding 0 from hend]
    rfl

/-- A send commits its packet to every edge of its port if it succeeds, and nothing otherwise. -/
lemma committedIn_of_sent {ports : PortsOut} {portId : PortId} {packet : PortPacket}
    {poll : Poll (Except PortSendError Unit)} (h : (ports.send portId packet).Yields events poll) :
    committedIn events =
      if poll = .ready (.ok ()) then (ports.channels portId).map (·, packet) else [] := by
  have hend := h.wp (fun _ _ _ => trivial) (send_spec (g := .holding 0) ports portId packet)
  have hcommitted : committedIn events =
      (Prog.Yields.after ledger events (.holding 0)).committed := by
    rw [after_committed]
    rfl
  rw [hcommitted]
  rcases poll with (err | ⟨⟩) | _
  · rw [show Prog.Yields.after ledger events (.holding 0) = .holding 0 from hend]
    rfl
  · rw [show Prog.Yields.after ledger events (.holding 0) = _ from hend]
    simp [Account.holding]
  · rw [show Prog.Yields.after ledger events (.holding 0) = .holding 0 from hend]
    rfl

end Histories

end Pureflow.Core
