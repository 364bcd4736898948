import Pureflow.Core.Ports

/-!
What each port operation does to the channels, in its own account.

The account of a running operation lists the reservations it holds, with the packets it has
committed and received. A reservation may only be spent or given back by its holder; what each
operation leaves in its account is stated for all answers, whatever others do in between.
-/

namespace Pureflow.Core

open Pureflow.Types Pureflow.Lib

/-- The account of one running operation. -/
structure Account where
  held : Multiset ℕ
  committed : List (ℕ × PortPacket)
  received : List (ℕ × PortPacket)

namespace Account

/-- A fresh account that holds the given reservations. -/
def holding (held : Multiset ℕ) : Account := ⟨held, [], []⟩

/-- What one call adds to the account. -/
def after : (op : PortOp) → op.Answer → Account → Account
  | .tryReserve c, .ok (), g => { g with held := c ::ₘ g.held }
  | .permitSend c packet, _, g =>
    { g with held := g.held.erase c, committed := g.committed ++ [(c, packet)] }
  | .permitAbort c, _, g => { g with held := g.held.erase c }
  | .tryRecv c, .ok packet, g => { g with received := g.received ++ [(c, packet)] }
  | .pollRecv c, .ready (.ok packet), g => { g with received := g.received ++ [(c, packet)] }
  | _, _, g => g

/-- Only a reservation that is held may be spent or given back. -/
def allows : PortOp → Account → Prop
  | .permitSend c _, g => c ∈ g.held
  | .permitAbort c, g => c ∈ g.held
  | _, _ => True

end Account

/-- The discipline of accounts; every answer is possible. -/
def ledger : Prog.Ghost PortOp PortOp.Answer Account where
  pre := Account.allows
  can _ _ _ := True
  post := Account.after

variable {g : Account} {Q : Unit → Account → Prop}

section Calls

lemma wp_tryReserve {c : ℕ} {Q : Except SendError Unit → Account → Prop} :
    Prog.Wp ledger (PortM.tryReserve c) Q g ↔
      Q (.ok ()) { g with held := c ::ₘ g.held } ∧ ∀ err, Q (.error err) g := by
  refine ⟨fun h => ⟨h.2 (.ok ()) trivial, fun err => h.2 (.error err) trivial⟩, fun h => ?_⟩
  refine ⟨trivial, fun r _ => ?_⟩
  rcases r with err | ⟨⟩
  · exact h.2 err
  · exact h.1

lemma wp_permitSend {c : ℕ} {packet : PortPacket} :
    Prog.Wp ledger (PortM.permitSend c packet) Q g ↔ c ∈ g.held ∧
      Q () { g with held := g.held.erase c, committed := g.committed ++ [(c, packet)] } :=
  ⟨fun h => ⟨h.1, h.2 () trivial⟩, fun h => ⟨h.1, fun _ _ => h.2⟩⟩

lemma wp_permitAbort {c : ℕ} :
    Prog.Wp ledger (PortM.permitAbort c) Q g ↔ c ∈ g.held ∧
      Q () { g with held := g.held.erase c } :=
  ⟨fun h => ⟨h.1, h.2 () trivial⟩, fun h => ⟨h.1, fun _ _ => h.2⟩⟩

lemma wp_tryRecv {c : ℕ} {Q : Except RecvError PortPacket → Account → Prop} :
    Prog.Wp ledger (PortM.tryRecv c) Q g ↔
      (∀ packet, Q (.ok packet) { g with received := g.received ++ [(c, packet)] }) ∧
        ∀ err, Q (.error err) g := by
  refine ⟨fun h => ⟨fun packet => h.2 (.ok packet) trivial, fun err => h.2 (.error err) trivial⟩,
    fun h => ⟨trivial, fun r _ => ?_⟩⟩
  rcases r with err | packet
  · exact h.2 err
  · exact h.1 packet

lemma wp_pollRecv {c : ℕ} {Q : Poll (Except RecvError PortPacket) → Account → Prop} :
    Prog.Wp ledger (PortM.pollRecv c) Q g ↔
      (∀ packet, Q (.ready (.ok packet)) { g with received := g.received ++ [(c, packet)] }) ∧
        (∀ err, Q (.ready (.error err)) g) ∧ Q .pending g := by
  refine ⟨fun h => ⟨fun packet => h.2 (.ready (.ok packet)) trivial,
    fun err => h.2 (.ready (.error err)) trivial, h.2 .pending trivial⟩,
    fun h => ⟨trivial, fun r _ => ?_⟩⟩
  rcases r with (err | packet) | _
  · exact h.2.1 err
  · exact h.1 packet
  · exact h.2.2

lemma wp_isCancelled {Q : Bool → Account → Prop} :
    Prog.Wp ledger PortM.isCancelled Q g ↔ ∀ b, Q b g :=
  ⟨fun h b => h.2 b trivial, fun h => ⟨trivial, fun b _ => h b⟩⟩

lemma wp_len {c : ℕ} {Q : ℕ → Account → Prop} : Prog.Wp ledger (PortM.len c) Q g ↔ ∀ n, Q n g :=
  ⟨fun h n => h.2 n trivial, fun h => ⟨trivial, fun n _ => h n⟩⟩

lemma wp_record {metadataSink : Bool} {r : MetadataRecord} (h : Q () g) :
    Prog.Wp ledger (PortM.record metadataSink r) Q g := by
  cases metadataSink with
  | false => exact h
  | true => exact ⟨trivial, fun _ _ => h⟩

end Calls

section Sending

lemma erase_held {c : ℕ} {rest : List ℕ} {base held : Multiset ℕ}
    (h : held = base + ↑(c :: rest)) : held.erase c = base + ↑rest := by
  rw [h, ← Multiset.cons_coe, Multiset.add_cons, Multiset.erase_cons_head]

lemma wp_dropPermits {permits : List ℕ} (base : Multiset ℕ) (hg : g.held = base + permits)
    (h : Q () { g with held := base }) : Prog.Wp ledger (dropPermits permits) Q g := by
  induction permits generalizing g with
  | nil =>
    have hbase : g.held = base := by simpa using hg
    rw [← hbase] at h
    exact h
  | cons c rest ih =>
    simp only [dropPermits, Prog.wp_bind, wp_permitAbort]
    exact ⟨by simp [hg], ih (erase_held hg) h⟩

lemma wp_sendAll {packet : PortPacket} {permits : List ℕ} {base : Multiset ℕ}
    (hg : g.held = base + permits)
    (h : Q () { g with held := base, committed := g.committed ++ permits.map (·, packet) }) :
    Prog.Wp ledger (OutputPortSendPermit.sendAll packet permits) Q g := by
  induction permits generalizing g with
  | nil =>
    have hbase : g.held = base := by simpa using hg
    rw [← hbase, List.map_nil, List.append_nil] at h
    exact h
  | cons c rest ih =>
    simp only [OutputPortSendPermit.sendAll, Prog.wp_bind, wp_permitSend]
    exact ⟨by simp [hg], ih (erase_held hg) (by simpa using h)⟩

/-- A committed packet is on every edge of the permit; a rejected one is on none. Either way
the reservations of the permit are gone. -/
lemma permit_send_spec {permit : OutputPortSendPermit} {packet : PortPacket} (base : Multiset ℕ)
    (hg : g.held = base + permit.permits) :
    Prog.Wp ledger (permit.send packet)
      (fun r g' => match r with
        | .ok () => g' = { g with
            held := base, committed := g.committed ++ permit.permits.map (·, packet) }
        | .error _ => g' = { g with held := base }) g := by
  unfold OutputPortSendPermit.send
  cases permit.validate packet with
  | error err =>
    rw [Prog.wp_bind]
    exact wp_dropPermits base hg rfl
  | ok u =>
    simp only [Prog.wp_bind]
    exact wp_record (wp_record (wp_sendAll hg rfl))

/-- All edges of the port are reserved, or none is. -/
def Reserved (channels : List ℕ) (g : Account) :
    Except PortSendError OutputPortSendPermit → Account → Prop
  | .ok permit, g' => permit.permits = channels ∧ g' = { g with held := g.held + channels }
  | .error _, g' => g' = g

lemma tryReserve_go_spec (h : OutputPortHandle) (metadataSink : Bool)
    (validator : Option OutputPacketValidator) (context : Option NodeContext)
    (senders : List Sender) (permits : List ℕ) {g' : Account}
    (hg : g' = { g with held := g.held + permits }) :
    Prog.Wp ledger (OutputPortHandle.tryReserve.go h metadataSink validator context senders permits)
      (Reserved (permits ++ senders.map Sender.channel) g) g' := by
  induction senders generalizing permits g' with
  | nil =>
    simp only [OutputPortHandle.tryReserve.go, Prog.wp_bind, List.map_nil, List.append_nil]
    exact wp_record ⟨rfl, hg⟩
  | cons sender rest ih =>
    simp only [OutputPortHandle.tryReserve.go, Prog.wp_bind, wp_tryReserve]
    refine ⟨?_, fun err => ?_⟩
    · have hg' : ({ g' with held := sender.channel ::ₘ g'.held } : Account) =
          { g with held := g.held + ↑(permits ++ [sender.channel]) } := by
        rw [hg, ← Multiset.coe_add, Multiset.coe_singleton, ← add_assoc,
          ← Multiset.singleton_add, add_comm]
      simpa using ih (permits ++ [sender.channel]) hg'
    · -- the permits taken so far are dropped, whether or not a full edge was recorded
      have hdrop : Prog.Wp ledger (dropPermits permits >>= fun _ =>
          pure (.error (h.mapSendError err)))
          (Reserved (permits ++ (sender :: rest).map Sender.channel) g) g' := by
        rw [Prog.wp_bind]
        exact wp_dropPermits g.held (by rw [hg]) (by rw [hg]; rfl)
      split
      · rw [Prog.wp_bind]
        exact wp_record hdrop
      · exact hdrop

lemma tryReserve_spec (h : OutputPortHandle) (metadataSink : Bool)
    (validator : Option OutputPacketValidator) (context : Option NodeContext) :
    Prog.Wp ledger (OutputPortHandle.tryReserve h metadataSink validator context)
      (Reserved (h.ends.map Sender.channel) g) g := by
  simp only [OutputPortHandle.tryReserve, Prog.wp_bind]
  exact wp_record (tryReserve_go_spec h metadataSink validator context h.ends [] (by simp))

/-- One poll of `reserve` reserves all edges of the port or none. -/
lemma reserve_spec (h : OutputPortHandle) (metadataSink : Bool)
    (validator : Option OutputPacketValidator) (context : Option NodeContext) :
    Prog.Wp ledger (OutputPortHandle.reserve h metadataSink validator context)
      (fun r g' => match r with
        | .ready answer => Reserved (h.ends.map Sender.channel) g answer g'
        | .pending => g' = g) g := by
  simp only [OutputPortHandle.reserve, Prog.wp_bind, wp_isCancelled]
  intro cancelled
  cases cancelled with
  | true => rfl
  | false =>
    simp only [Prog.wp_bind, Bool.false_eq_true, if_false]
    refine (tryReserve_spec h metadataSink validator context).mono fun r g' hr => ?_
    rcases r with err | permit
    · cases err <;> exact hr
    · exact hr

/-- The channels of an output port; an undeclared port has none. -/
def PortsOut.channels (ports : PortsOut) (portId : PortId) : List ℕ :=
  ((PortHandle.find ports.ports portId).elim [] (·.ends)).map Sender.channel

lemma portsOut_tryReserve_spec (ports : PortsOut) (portId : PortId) :
    Prog.Wp ledger (ports.tryReserve portId) (Reserved (ports.channels portId) g) g := by
  unfold PortsOut.tryReserve PortsOut.channels
  cases PortHandle.find ports.ports portId with
  | none => rfl
  | some port => exact tryReserve_spec port _ _ _

lemma portsOut_reserve_spec (ports : PortsOut) (portId : PortId) :
    Prog.Wp ledger (ports.reserve portId)
      (fun r g' => match r with
        | .ready answer => Reserved (ports.channels portId) g answer g'
        | .pending => g' = g) g := by
  unfold PortsOut.reserve PortsOut.channels
  cases PortHandle.find ports.ports portId with
  | none => rfl
  | some port => exact reserve_spec port _ _ _

/-- The packet is committed to all the channels, or the account is as before. -/
def Delivered (channels : List ℕ) (packet : PortPacket) (g : Account) :
    Except PortSendError Unit → Account → Prop
  | .ok (), g' => g' = { g with committed := g.committed ++ channels.map (·, packet) }
  | .error _, g' => g' = g

/-- A permit fresh from `Reserved` delivers its packet or gives everything back. -/
lemma send_of_reserved {channels : List ℕ} {permit : OutputPortSendPermit} {g' : Account}
    (h : Reserved channels g (.ok permit) g') (packet : PortPacket) :
    Prog.Wp ledger (permit.send packet) (Delivered channels packet g) g' := by
  obtain ⟨hpermits, rfl⟩ := h
  refine (permit_send_spec g.held (by rw [hpermits])).mono fun r g'' hr => ?_
  rcases r with err | ⟨⟩
  · exact hr
  · rw [hpermits] at hr
    exact hr

lemma trySend_spec (ports : PortsOut) (portId : PortId) (packet : PortPacket) :
    Prog.Wp ledger (ports.trySend portId packet)
      (Delivered (ports.channels portId) packet g) g := by
  rw [PortsOut.trySend, Prog.wp_bind]
  refine (portsOut_tryReserve_spec ports portId).mono fun r g' hr => ?_
  rcases r with err | permit
  · exact hr
  · exact send_of_reserved hr packet

lemma send_spec (ports : PortsOut) (portId : PortId) (packet : PortPacket) :
    Prog.Wp ledger (ports.send portId packet)
      (fun r g' => match r with
        | .ready answer => Delivered (ports.channels portId) packet g answer g'
        | .pending => g' = g) g := by
  rw [PortsOut.send, Prog.wp_bind]
  refine (portsOut_reserve_spec ports portId).mono fun r g' hr => ?_
  rcases r with (err | permit) | _
  · exact hr
  · simp only [Prog.wp_bind]
    exact send_of_reserved hr packet
  · exact hr

end Sending

section Receiving

/-- The packet answered is the one packet received; without one the account is as before. -/
def Received (g : Account) : Except PortRecvError (Option PortPacket) → Account → Prop
  | .ok (some packet), g' => ∃ c, g' = { g with received := g.received ++ [(c, packet)] }
  | _, g' => g' = g

lemma wp_queuedCount {h : InputPortHandle} {Q : ℕ → Account → Prop} (hQ : ∀ n, Q n g) :
    Prog.Wp ledger (InputPortHandle.queuedCount h) Q g := by
  have go (receivers : List Receiver) {Q : ℕ → Account → Prop} (hQ : ∀ n, Q n g) :
      Prog.Wp ledger (InputPortHandle.queuedCount.go receivers) Q g := by
    induction receivers generalizing Q with
    | nil => exact hQ 0
    | cons receiver rest ih =>
      simp only [InputPortHandle.queuedCount.go, Prog.wp_bind, wp_len]
      exact fun n => ih fun k => hQ (n + k)
  exact go h.ends hQ

lemma wp_recordQueuePressure {ports : PortsIn} {port : InputPortHandle}
    {kind : QueuePressureBoundaryKind} (h : Q () g) :
    Prog.Wp ledger (ports.recordQueuePressure port kind) Q g := by
  unfold PortsIn.recordQueuePressure
  split
  · rw [Prog.wp_bind]
    exact wp_queuedCount fun _ => wp_record h
  · exact h

lemma wp_recordReceived {ports : PortsIn} {port : InputPortHandle}
    {answer : Except PortRecvError (Option PortPacket)} (h : Q () g) :
    Prog.Wp ledger (ports.recordReceived port answer) Q g := by
  unfold PortsIn.recordReceived
  split
  · exact wp_recordQueuePressure h
  · exact h
  · rw [Prog.wp_bind]
    exact wp_recordQueuePressure (wp_record h)
  · exact wp_recordQueuePressure h

lemma tryRecv_spec (h : InputPortHandle) :
    Prog.Wp ledger (InputPortHandle.tryRecv h) (Received g) g := by
  have go (receivers : List Receiver) (n : ℕ) :
      Prog.Wp ledger (InputPortHandle.tryRecv.go h receivers n) (Received g) g := by
    induction receivers generalizing n with
    | nil =>
      unfold InputPortHandle.tryRecv.go
      split <;> rfl
    | cons receiver rest ih =>
      simp only [InputPortHandle.tryRecv.go, Prog.wp_bind, wp_tryRecv]
      refine ⟨fun packet => ⟨_, rfl⟩, fun err => ?_⟩
      cases err with
      | disconnected => exact ih _
      | cancelled => rfl
      | empty => exact ih _
  exact go h.ends 0

/-- A poll of one port: a packet answered is the one received. -/
def Polled (g : Account) : InputPortHandle.InputPollResult → Account → Prop
  | .packet packet, g' => ∃ c, g' = { g with received := g.received ++ [(c, packet)] }
  | _, g' => g' = g

/-- It was taken from one of these channels. -/
def Taken (channels : List ℕ) (g : Account) : InputPortHandle.InputPollResult → Account → Prop
  | .packet packet, g' => ∃ c ∈ channels, g' = { g with received := g.received ++ [(c, packet)] }
  | _, g' => g' = g

lemma Taken.polled {channels : List ℕ} {result : InputPortHandle.InputPollResult} {g' : Account}
    (h : Taken channels g result g') : Polled g result g' := by
  cases result with
  | packet packet =>
    obtain ⟨c, -, hg'⟩ := h
    exact ⟨c, hg'⟩
  | pending | closed | cancelled => exact h

lemma pollAny_go_taken (h : InputPortHandle) {channels : List ℕ} {receivers : List Receiver}
    (hsub : ∀ r ∈ receivers, r.channel ∈ channels) (n : ℕ) :
    Prog.Wp ledger (InputPortHandle.pollAny.go h receivers n) (Taken channels g) g := by
  induction receivers generalizing n with
  | nil =>
    unfold InputPortHandle.pollAny.go
    split <;> rfl
  | cons receiver rest ih =>
    obtain ⟨hfirst, hrest⟩ := List.forall_mem_cons.mp hsub
    simp only [InputPortHandle.pollAny.go, Prog.wp_bind, wp_pollRecv]
    refine ⟨fun packet => ⟨_, hfirst, rfl⟩, fun err => ?_, ih hrest _⟩
    cases err with
    | disconnected => exact ih hrest _
    | cancelled => rfl
    | empty => exact ih hrest _

lemma pollAny_go_spec (h : InputPortHandle) (receivers : List Receiver) (n : ℕ) :
    Prog.Wp ledger (InputPortHandle.pollAny.go h receivers n) (Polled g) g :=
  (pollAny_go_taken h (fun _ hr => List.mem_map_of_mem (f := Receiver.channel) hr) n).mono
    fun _ _ => Taken.polled

lemma pollAny_taken (h : InputPortHandle) :
    Prog.Wp ledger (InputPortHandle.pollAny h) (Taken (h.ends.map Receiver.channel) g) g := by
  unfold InputPortHandle.pollAny
  split
  · rfl
  · exact pollAny_go_taken h (fun _ hr => List.mem_map_of_mem hr) 0

lemma pollAny_spec (h : InputPortHandle) :
    Prog.Wp ledger (InputPortHandle.pollAny h) (Polled g) g :=
  (pollAny_taken h).mono fun _ _ => Taken.polled

/-- What one poll of a receive leaves: an answer, or nothing yet. -/
def PollReceived (g : Account) : Poll (Except PortRecvError (Option PortPacket)) → Account → Prop
  | .ready answer, g' => Received g answer g'
  | .pending, g' => g' = g

lemma recv_spec (h : InputPortHandle) :
    Prog.Wp ledger (InputPortHandle.recv h) (PollReceived g) g := by
  unfold InputPortHandle.recv
  split
  · rfl
  simp only [Prog.wp_bind, wp_isCancelled]
  intro cancelled
  cases cancelled with
  | true => rfl
  | false =>
    simp only [Bool.false_eq_true, if_false, Prog.wp_bind]
    refine (pollAny_go_spec h h.ends 0).mono fun r g' hr => ?_
    cases r <;> exact hr

lemma portsIn_tryRecv_spec (ports : PortsIn) (portId : PortId) :
    Prog.Wp ledger (ports.tryRecv portId) (Received g) g := by
  unfold PortsIn.tryRecv
  cases PortHandle.find ports.ports portId with
  | none => rfl
  | some port =>
    simp only [Prog.wp_bind]
    refine wp_recordQueuePressure ((tryRecv_spec port).mono fun r g' hr => ?_)
    exact wp_recordReceived hr

lemma recvPoll_spec (ports : PortsIn) (port : InputPortHandle) :
    Prog.Wp ledger (ports.recvPoll port) (PollReceived g) g := by
  rw [PortsIn.recvPoll, Prog.wp_bind]
  refine (recv_spec port).mono fun r g' hr => ?_
  rcases r with answer | _
  · simp only [Prog.wp_bind]
    exact wp_recordReceived hr
  · exact hr

lemma portsIn_recv_spec (ports : PortsIn) (portId : PortId) :
    Prog.Wp ledger (ports.recv portId) (PollReceived g) g := by
  unfold PortsIn.recv
  cases PortHandle.find ports.ports portId with
  | none => rfl
  | some port =>
    rw [Prog.wp_bind]
    exact wp_recordQueuePressure (recvPoll_spec ports port)

/-- What one poll of `recv_any` leaves. -/
def PollReceivedAny (g : Account) :
    Poll (Except PortRecvError (Option (PortId × PortPacket))) → Account → Prop
  | .ready (.ok (some (_, packet))), g' =>
    ∃ c, g' = { g with received := g.received ++ [(c, packet)] }
  | _, g' => g' = g

/-- The packet was taken from a channel of the port that is named. -/
def TakenAny (ports : List InputPortHandle) (g : Account) :
    Poll (Except PortRecvError (Option (PortId × PortPacket))) → Account → Prop
  | .ready (.ok (some (portId, packet))), g' => ∃ port ∈ ports, port.portId = portId ∧
    ∃ c ∈ port.ends.map Receiver.channel,
      g' = { g with received := g.received ++ [(c, packet)] }
  | _, g' => g' = g

lemma TakenAny.pollReceivedAny {ports : List InputPortHandle}
    {poll : Poll (Except PortRecvError (Option (PortId × PortPacket)))} {g' : Account}
    (h : TakenAny ports g poll g') : PollReceivedAny g poll g' := by
  rcases poll with (err | _ | ⟨portId, packet⟩) | _
  · exact h
  · exact h
  · obtain ⟨port, -, -, c, -, hg'⟩ := h
    exact ⟨c, hg'⟩
  · exact h

lemma recvAnyPoll_taken (ports : PortsIn) :
    Prog.Wp ledger ports.recvAnyPoll (TakenAny ports.ports g) g := by
  have go {rest : List InputPortHandle} (hsub : rest ⊆ ports.ports) (n : ℕ) :
      Prog.Wp ledger (PortsIn.recvAnyPoll.go ports rest n) (TakenAny ports.ports g) g := by
    induction rest generalizing n with
    | nil =>
      unfold PortsIn.recvAnyPoll.go
      split <;> rfl
    | cons port rest ih =>
      obtain ⟨hport, hrest⟩ := List.cons_subset.mp hsub
      rw [PortsIn.recvAnyPoll.go, Prog.wp_bind]
      refine (pollAny_taken port).mono fun r g' hr => ?_
      cases r with
      | packet packet =>
        simp only [Prog.wp_bind]
        exact wp_recordQueuePressure (wp_record ⟨port, hport, rfl, hr⟩)
      | pending =>
        cases hr
        exact ih hrest _
      | closed =>
        cases hr
        simp only [Prog.wp_bind]
        exact wp_recordQueuePressure (ih hrest _)
      | cancelled => exact hr
  simp only [PortsIn.recvAnyPoll, Prog.wp_bind, wp_isCancelled]
  intro cancelled
  cases cancelled with
  | true =>
    simp only [if_true]
    cases ports.ports <;> rfl
  | false => exact go (List.Subset.refl _) 0

lemma recvAnyPoll_spec (ports : PortsIn) :
    Prog.Wp ledger ports.recvAnyPoll (PollReceivedAny g) g :=
  (recvAnyPoll_taken ports).mono fun _ _ => TakenAny.pollReceivedAny

lemma wp_recordAttempts {ports : PortsIn} (rest : List InputPortHandle) (h : Q () g) :
    Prog.Wp ledger (ports.recordAttempts rest) Q g := by
  induction rest with
  | nil => exact h
  | cons port rest ih =>
    rw [PortsIn.recordAttempts, Prog.wp_bind]
    exact wp_recordQueuePressure ih

lemma recvAny_taken (ports : PortsIn) :
    Prog.Wp ledger ports.recvAny (TakenAny ports.ports g) g := by
  unfold PortsIn.recvAny
  split
  · rfl
  simp only [Prog.wp_bind]
  exact wp_recordAttempts _ (recvAnyPoll_taken ports)

lemma recvAny_spec (ports : PortsIn) : Prog.Wp ledger ports.recvAny (PollReceivedAny g) g :=
  (recvAny_taken ports).mono fun _ _ => TakenAny.pollReceivedAny

end Receiving

end Pureflow.Core
