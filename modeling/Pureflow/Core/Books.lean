import Pureflow.Core.Guards

/-!
The message records of port operations, beside what they do to the channels.

The book of a running operation is its account and what it has told the sink, each message with
what the operation had received by then. Most of an operation tells the sink nothing of messages;
a send tells it once, before it commits, and a receive once, after it has taken a packet.
-/

namespace Pureflow.Core

open Pureflow.Types Pureflow.Lib

/-- The message record that a call hands to the sink. -/
def PortOp.message? : PortOp → Option MessageBoundaryRecord
  | .record (.message message) => some message
  | _ => none

/-- The call tells the sink nothing of messages. -/
def PortOp.Quiet (op : PortOp) : Prop := op.message? = none

section Quiet

lemma quiet_queuePressure (metadataSink : Bool) (r : QueuePressureRecord) :
    (PortM.record metadataSink (.queuePressure r)).Calls PortOp.Quiet := by
  cases metadataSink with
  | false => exact trivial
  | true => exact ⟨rfl, fun _ => trivial⟩

lemma quiet_dropPermits (permits : List ℕ) : (dropPermits permits).Calls PortOp.Quiet := by
  induction permits with
  | nil => exact trivial
  | cons c rest ih => exact Prog.calls_bind (Prog.calls_perform rfl) fun _ => ih

lemma quiet_sendAll (packet : PortPacket) (permits : List ℕ) :
    (OutputPortSendPermit.sendAll packet permits).Calls PortOp.Quiet := by
  induction permits with
  | nil => exact trivial
  | cons c rest ih => exact Prog.calls_bind (Prog.calls_perform rfl) fun _ => ih

section Reserving

variable (h : OutputPortHandle) (metadataSink : Bool) (validator : Option OutputPacketValidator)
  (context : Option NodeContext)

lemma quiet_tryReserve :
    (OutputPortHandle.tryReserve h metadataSink validator context).Calls PortOp.Quiet := by
  have go (senders : List Sender) (permits : List ℕ) :
      (OutputPortHandle.tryReserve.go h metadataSink validator context senders permits).Calls
        PortOp.Quiet := by
    induction senders generalizing permits with
    | nil => exact Prog.calls_bind (quiet_queuePressure _ _) fun _ => trivial
    | cons sender rest ih =>
      refine Prog.calls_bind (Prog.calls_perform rfl) fun answer => ?_
      rcases answer with err | ⟨⟩
      · have hdrop : (do dropPermits permits; return .error (h.mapSendError err) :
            PortM (Except PortSendError OutputPortSendPermit)).Calls PortOp.Quiet :=
          Prog.calls_bind (quiet_dropPermits permits) fun _ => trivial
        by_cases hfull : err = .full
        · simp only [hfull, if_true] at hdrop ⊢
          exact Prog.calls_bind (quiet_queuePressure _ _) fun _ => hdrop
        · simpa only [hfull, if_false] using hdrop
      · exact ih _
  exact Prog.calls_bind (quiet_queuePressure _ _) fun _ => go h.ends []

lemma quiet_reserve :
    (OutputPortHandle.reserve h metadataSink validator context).Calls PortOp.Quiet := by
  refine Prog.calls_bind (Prog.calls_perform rfl) fun cancelled => ?_
  cases cancelled with
  | true => exact trivial
  | false =>
    refine Prog.calls_bind (quiet_tryReserve h metadataSink validator context) fun answer => ?_
    rcases answer with err | permit
    · cases err <;> exact trivial
    · exact trivial

end Reserving

lemma quiet_portsOut_tryReserve (ports : PortsOut) (portId : PortId) :
    (ports.tryReserve portId).Calls PortOp.Quiet := by
  unfold PortsOut.tryReserve
  cases PortHandle.find ports.ports portId with
  | none => exact trivial
  | some port => exact quiet_tryReserve port _ _ _

lemma quiet_portsOut_reserve (ports : PortsOut) (portId : PortId) :
    (ports.reserve portId).Calls PortOp.Quiet := by
  unfold PortsOut.reserve
  cases PortHandle.find ports.ports portId with
  | none => exact trivial
  | some port => exact quiet_reserve port _ _ _

lemma quiet_recordQueuePressure (ports : PortsIn) (port : InputPortHandle)
    (kind : QueuePressureBoundaryKind) :
    (ports.recordQueuePressure port kind).Calls PortOp.Quiet := by
  have go (receivers : List Receiver) :
      (InputPortHandle.queuedCount.go receivers).Calls PortOp.Quiet := by
    induction receivers with
    | nil => exact trivial
    | cons receiver rest ih =>
      exact Prog.calls_bind (Prog.calls_perform rfl) fun _ =>
        Prog.calls_bind ih fun _ => trivial
  unfold PortsIn.recordQueuePressure
  split
  · exact Prog.calls_bind (go port.ends) fun _ => quiet_queuePressure _ _
  · exact trivial

lemma quiet_tryRecv (h : InputPortHandle) : (InputPortHandle.tryRecv h).Calls PortOp.Quiet := by
  have go (receivers : List Receiver) (n : ℕ) :
      (InputPortHandle.tryRecv.go h receivers n).Calls PortOp.Quiet := by
    induction receivers generalizing n with
    | nil =>
      unfold InputPortHandle.tryRecv.go
      split <;> exact trivial
    | cons receiver rest ih =>
      refine Prog.calls_bind (Prog.calls_perform rfl) fun answer => ?_
      rcases answer with err | packet
      · cases err with
        | disconnected => exact ih _
        | cancelled => exact trivial
        | empty => exact ih _
      · exact trivial
  exact go h.ends 0

lemma quiet_pollAny_go (h : InputPortHandle) (receivers : List Receiver) (n : ℕ) :
    (InputPortHandle.pollAny.go h receivers n).Calls PortOp.Quiet := by
  induction receivers generalizing n with
  | nil =>
    unfold InputPortHandle.pollAny.go
    split <;> exact trivial
  | cons receiver rest ih =>
    refine Prog.calls_bind (Prog.calls_perform rfl) fun answer => ?_
    rcases answer with (err | packet) | _
    · cases err with
      | disconnected => exact ih _
      | cancelled => exact trivial
      | empty => exact ih _
    · exact trivial
    · exact ih _

lemma quiet_pollAny (h : InputPortHandle) : (InputPortHandle.pollAny h).Calls PortOp.Quiet := by
  unfold InputPortHandle.pollAny
  split
  · exact trivial
  · exact quiet_pollAny_go h h.ends 0

lemma quiet_recv (h : InputPortHandle) : (InputPortHandle.recv h).Calls PortOp.Quiet := by
  unfold InputPortHandle.recv
  split
  · exact trivial
  refine Prog.calls_bind (Prog.calls_perform rfl) fun cancelled => ?_
  cases cancelled with
  | true => exact trivial
  | false =>
    refine Prog.calls_bind (quiet_pollAny_go h h.ends 0) fun r => ?_
    cases r <;> exact trivial

lemma quiet_recordAttempts (ports : PortsIn) (rest : List InputPortHandle) :
    (ports.recordAttempts rest).Calls PortOp.Quiet := by
  induction rest with
  | nil => exact trivial
  | cons port rest ih =>
    exact Prog.calls_bind (quiet_recordQueuePressure ports port _) fun _ => ih

end Quiet

/-- A message told to the sink, with what its call had received by then. -/
structure Notice where
  received : List (ℕ × PortPacket)
  message : MessageBoundaryRecord

/-- The account of one running operation, and what it has told the sink. -/
structure Book where
  account : Account
  told : List Notice

namespace Book

def opening (held : Multiset ℕ) : Book := ⟨.holding held, []⟩

/-- What one call adds to the book. -/
def after (op : PortOp) (answer : op.Answer) (b : Book) : Book :=
  ⟨b.account.after op answer, b.told ++ (op.message?.map (Notice.mk b.account.received)).toList⟩

end Book

/-- The discipline of accounts, with what is told; every answer is possible. -/
def books : Prog.Ghost PortOp PortOp.Answer Book where
  pre op b := b.account.allows op
  can _ _ _ := True
  post := Book.after

section Calls

variable {b : Book}

/-- **A quiet program** does to the account what it does, and tells nothing. -/
lemma wp_books_of_quiet {α : Type} {p : PortM α} {Q : α → Account → Prop} {b : Book}
    (hquiet : p.Calls PortOp.Quiet) (h : Prog.Wp ledger p Q b.account) :
    Prog.Wp books p (fun a b' => Q a b'.account ∧ b'.told = b.told) b := by
  induction p generalizing b with
  | ret a => exact ⟨h, rfl⟩
  | call op k ih =>
    obtain ⟨hop, hrest⟩ := hquiet
    have hop : op.message? = none := hop
    refine ⟨h.1, fun r _ => ?_⟩
    have htold : (b.after op r).told = b.told := by simp [Book.after, hop]
    rw [← htold]
    exact ih r (hrest r) (h.2 r trivial)

/-- A message is told to a sink that is attached. -/
lemma wp_books_message {message : MessageBoundaryRecord} {Q : Unit → Book → Prop}
    (h : Q () { b with told := b.told ++ [⟨b.account.received, message⟩] }) :
    Prog.Wp books (PortM.record true (.message message)) Q b :=
  ⟨trivial, fun _ _ => h⟩

/-- The record of a send: without an edge the packet is dropped. -/
def sendMessage (channels : List ℕ) (packet : PortPacket) : MessageBoundaryRecord :=
  ⟨if channels.isEmpty then .dropped else .enqueued, packet.metadata⟩

lemma permit_send_books {permit : OutputPortSendPermit} {packet : PortPacket} (base : Multiset ℕ)
    (hsink : permit.metadataSink = true) (hheld : b.account.held = base + permit.permits) :
    Prog.Wp books (permit.send packet)
      (fun r b' => match r with
        | .ok () => b' = ⟨{ b.account with
              held := base, committed := b.account.committed ++ permit.permits.map (·, packet) },
            b.told ++ [⟨b.account.received, sendMessage permit.permits packet⟩]⟩
        | .error _ => b' = { b with account := { b.account with held := base } }) b := by
  unfold OutputPortSendPermit.send
  cases permit.validate packet with
  | error err =>
    rw [Prog.wp_bind]
    refine (wp_books_of_quiet (quiet_dropPermits permit.permits)
      (wp_dropPermits (Q := fun _ g => g = { b.account with held := base }) base hheld rfl)).mono
      fun _ b' h => ?_
    obtain ⟨g, told⟩ := b'
    obtain ⟨rfl, rfl⟩ := h
    rfl
  | ok u =>
    simp only [Prog.wp_bind, hsink]
    refine (wp_books_of_quiet (quiet_queuePressure _ _)
      (wp_record (Q := fun _ g => g = b.account) rfl)).mono fun _ b₁ h₁ => ?_
    obtain ⟨g₁, told₁⟩ := b₁
    obtain ⟨rfl, rfl⟩ := h₁
    refine wp_books_message ?_
    let done : Account := { b.account with
      held := base, committed := b.account.committed ++ permit.permits.map (·, packet) }
    have hsent : Prog.Wp ledger (OutputPortSendPermit.sendAll packet permit.permits)
        (fun _ g => g = done) b.account := wp_sendAll hheld rfl
    refine Prog.Wp.mono (fun _ b₂ h₂ => ?_)
      (wp_books_of_quiet (quiet_sendAll packet permit.permits) hsent)
    obtain ⟨g₂, told₂⟩ := b₂
    obtain ⟨rfl, rfl⟩ := h₂
    rfl

/-- The record of a receive: that of the packet answered. -/
def receivedMessages : Except PortRecvError (Option PortPacket) → List MessageBoundaryRecord
  | .ok (some packet) => [⟨.dequeued, packet.metadata⟩]
  | _ => []

lemma wp_books_queuePressure {ports : PortsIn} {port : InputPortHandle}
    {kind : QueuePressureBoundaryKind} {Q : Unit → Book → Prop} (h : Q () b) :
    Prog.Wp books (ports.recordQueuePressure port kind) Q b := by
  refine (wp_books_of_quiet (quiet_recordQueuePressure ports port kind)
    (wp_recordQueuePressure (Q := fun _ g => g = b.account) rfl)).mono fun _ b' hb' => ?_
  obtain ⟨g, told⟩ := b'
  obtain ⟨rfl, rfl⟩ := hb'
  exact h

lemma wp_books_recordReceived {ports : PortsIn} (hsink : ports.metadataSink = true)
    {port : InputPortHandle} {answer : Except PortRecvError (Option PortPacket)}
    {Q : Unit → Book → Prop}
    (h : Q () { b with
      told := b.told ++ (receivedMessages answer).map (Notice.mk b.account.received) }) :
    Prog.Wp books (ports.recordReceived port answer) Q b := by
  rcases answer with err | _ | packet
  · simp only [receivedMessages, List.map_nil, List.append_nil] at h
    cases err with
    | disconnected portId => exact wp_books_queuePressure h
    | unknownPort portId => exact h
    | cancelled portId => exact h
  · simp only [receivedMessages, List.map_nil, List.append_nil] at h
    exact wp_books_queuePressure h
  · simp only [PortsIn.recordReceived, PortsIn.recordMessageBoundary, hsink, Prog.wp_bind]
    exact wp_books_queuePressure (wp_books_message h)

end Calls

namespace PortCall

/-- What a call sends: the channels of its port, and the packet. -/
def sends? : PortCall → Option (List ℕ × PortPacket)
  | .permitSend permit packet => some (permit.permits, packet)
  | .trySend outputs portId packet => some (outputs.channels portId, packet)
  | .send outputs portId packet => some (outputs.channels portId, packet)
  | _ => none

/-- The sink is attached to the ports of a call. -/
def Sinks : PortCall → Prop
  | .tryReserve outputs _ | .reserve outputs _ => outputs.metadataSink = true
  | .trySend outputs _ _ | .send outputs _ _ => outputs.metadataSink = true
  | .permitSend permit _ | .permitAbort permit => permit.metadataSink = true
  | .tryRecv inputs _ | .recv inputs _ | .recvAny inputs => inputs.metadataSink = true

/-- The message records a call with this result has made. -/
def messages (call : PortCall) : PortResult → List MessageBoundaryRecord
  | .sent (.ok ()) => (call.sends?.map fun s => sendMessage s.1 s.2).toList
  | .received answer => receivedMessages answer
  | .receivedAny answer => receivedMessages (answer.map (·.map Prod.snd))
  | _ => []

/-- What a poll of a call leaves in its book: a settled account with the records of the result, or
an empty book. -/
def PollTold (call : PortCall) : Poll PortResult → Book → Prop
  | .ready r, b => Settles call r b.account ∧
      b.told = (call.messages r).map (Notice.mk b.account.received)
  | .pending, b => call.holds = 0 ∧ b = .opening 0

section Sends

variable {call : PortCall} {channels : List ℕ} {packet : PortPacket}

lemma told_sent (hdeliveries : call.deliveries = channels.map (·, packet))
    (hmessages : call.messages (.sent (.ok ())) = [sendMessage channels packet])
    {permit : OutputPortSendPermit} {b : Book} (hsink : permit.metadataSink = true)
    (hpermits : permit.permits = channels) (hheld : b.account = .holding channels)
    (htold : b.told = []) :
    Prog.Wp books (permit.send packet) (fun answer b' => PollTold call (.ready (.sent answer)) b')
      b := by
  refine (permit_send_books 0 hsink ?_).mono fun answer b' h => ?_
  · rw [hheld, hpermits, zero_add]
    rfl
  · rcases answer with err | ⟨⟩
    · obtain rfl := h
      refine ⟨⟨rfl, ?_, ?_⟩, ?_⟩
      · rw [hheld]
        rfl
      · rw [hheld]
        rfl
      · rw [htold]
        rfl
    · obtain rfl := h
      refine ⟨⟨rfl, ?_, ?_⟩, ?_⟩
      · simp [hheld, Account.holding, PortResult.deliveries, hdeliveries, hpermits]
      · rw [hheld]
        rfl
      · rw [htold, hmessages, hpermits]
        rfl

lemma told_error (call : PortCall) (err : PortSendError) {b : Book} (haccount : b.account = .holding 0)
    (htold : b.told = []) : PollTold call (.ready (.sent (.error err))) b := by
  refine ⟨⟨?_, ?_, ?_⟩, ?_⟩
  · rw [haccount]
    rfl
  · rw [haccount]
    rfl
  · rw [haccount]
    rfl
  · rw [htold]
    rfl

end Sends

lemma told_pending {call : PortCall} (hcall : call.holds = 0) {b : Book}
    (haccount : b.account = .holding 0) (htold : b.told = []) : PollTold call .pending b := by
  obtain ⟨g, told⟩ := b
  obtain rfl : g = _ := haccount
  obtain rfl : told = [] := htold
  exact ⟨hcall, rfl⟩

lemma told_reserved {call : PortCall} {channels : List ℕ}
    {answer : Except PortSendError OutputPortSendPermit} {b : Book}
    (h : Reserved channels (.holding 0) answer b.account) (htold : b.told = []) :
    PollTold call (.ready (.reserved answer)) b := by
  refine ⟨reserved_settles h, ?_⟩
  rw [htold]
  rfl

section Receives

variable {inputs : PortsIn}

lemma told_received (call : PortCall) {answer : Except PortRecvError (Option PortPacket)} {b : Book}
    (h : Received (.holding 0) answer b.account)
    (htold : b.told = (receivedMessages answer).map (Notice.mk b.account.received)) :
    PollTold call (.ready (.received answer)) b := by
  refine ⟨received_settles h, ?_⟩
  rw [htold]
  rfl

lemma told_tryRecv (hsink : inputs.metadataSink = true) (portId : PortId) :
    Prog.Wp books (inputs.tryRecv portId)
      (fun answer b => PollTold (.tryRecv inputs portId) (.ready (.received answer)) b)
      (.opening 0) := by
  unfold PortsIn.tryRecv
  cases PortHandle.find inputs.ports portId with
  | none => exact told_received _ rfl rfl
  | some port =>
    simp only [Prog.wp_bind]
    refine wp_books_queuePressure ?_
    refine (wp_books_of_quiet (quiet_tryRecv port) (tryRecv_spec port)).mono fun answer b hb => ?_
    refine wp_books_recordReceived hsink (told_received _ hb.1 ?_)
    rw [hb.2]
    rfl

lemma told_recvPoll (hsink : inputs.metadataSink = true) (portId : PortId) (port : InputPortHandle) :
    Prog.Wp books (inputs.recvPoll port)
      (fun poll b => PollTold (.recv inputs portId) (poll.map .received) b) (.opening 0) := by
  rw [PortsIn.recvPoll, Prog.wp_bind]
  refine (wp_books_of_quiet (quiet_recv port) (recv_spec port)).mono fun poll b hb => ?_
  rcases poll with answer | _
  · simp only [Prog.wp_bind]
    refine wp_books_recordReceived hsink (told_received _ hb.1 ?_)
    rw [hb.2]
    rfl
  · exact told_pending rfl hb.1 hb.2

lemma told_recv (hsink : inputs.metadataSink = true) (portId : PortId) :
    Prog.Wp books (inputs.recv portId)
      (fun poll b => PollTold (.recv inputs portId) (poll.map .received) b) (.opening 0) := by
  unfold PortsIn.recv
  cases PortHandle.find inputs.ports portId with
  | none => exact told_received _ rfl rfl
  | some port =>
    rw [Prog.wp_bind]
    exact wp_books_queuePressure (told_recvPoll hsink portId port)

lemma told_receivedAny {answer : Except PortRecvError (Option (PortId × PortPacket))}
    (hnone : receivedMessages (answer.map (·.map Prod.snd)) = [])
    (h : PollReceivedAny (.holding 0) (.ready answer) (.holding 0)) :
    PollTold (.recvAny inputs) (.ready (.receivedAny answer)) (.opening 0) := by
  refine ⟨pollReceivedAny_settles rfl h, ?_⟩
  change [] = (receivedMessages (answer.map (·.map Prod.snd))).map _
  rw [hnone]
  rfl

lemma told_recvAnyPoll (hsink : inputs.metadataSink = true) :
    Prog.Wp books inputs.recvAnyPoll
      (fun poll b => PollTold (.recvAny inputs) (poll.map .receivedAny) b) (.opening 0) := by
  have go (rest : List InputPortHandle) (n : ℕ) :
      Prog.Wp books (PortsIn.recvAnyPoll.go inputs rest n)
        (fun poll b => PollTold (.recvAny inputs) (poll.map .receivedAny) b) (.opening 0) := by
    induction rest generalizing n with
    | nil =>
      unfold PortsIn.recvAnyPoll.go
      split
      · exact told_receivedAny rfl rfl
      · exact told_pending rfl rfl rfl
    | cons port rest ih =>
      rw [PortsIn.recvAnyPoll.go, Prog.wp_bind]
      refine (wp_books_of_quiet (quiet_pollAny port) (pollAny_spec port)).mono fun r b hb => ?_
      obtain ⟨hpolled, htold⟩ := hb
      cases r with
      | packet packet =>
        simp only [Prog.wp_bind, PortsIn.recordMessageBoundary, hsink]
        refine wp_books_queuePressure (wp_books_message ?_)
        have hany : PollReceivedAny (.holding 0) (.ready (.ok (some (port.portId, packet))))
            b.account := hpolled
        have hcall : (PortCall.recvAny inputs).holds = 0 := rfl
        refine ⟨pollReceivedAny_settles hcall hany, ?_⟩
        rw [htold]
        rfl
      | pending =>
        obtain ⟨g, told⟩ := b
        obtain rfl : g = _ := hpolled
        obtain rfl : told = _ := htold
        exact ih _
      | closed =>
        obtain ⟨g, told⟩ := b
        obtain rfl : g = _ := hpolled
        obtain rfl : told = _ := htold
        simp only [Prog.wp_bind]
        exact wp_books_queuePressure (ih _)
      | cancelled =>
        obtain ⟨g, told⟩ := b
        obtain rfl : g = _ := hpolled
        obtain rfl : told = _ := htold
        exact told_receivedAny rfl rfl
  rw [PortsIn.recvAnyPoll, Prog.wp_bind]
  refine ⟨trivial, fun cancelled _ => ?_⟩
  cases cancelled with
  | true =>
    refine Prog.wp_ret.mpr ?_
    simp only [if_true]
    cases inputs.ports with
    | nil => exact told_receivedAny rfl rfl
    | cons first rest => exact told_receivedAny rfl rfl
  | false => exact go inputs.ports 0

lemma told_recvAny (hsink : inputs.metadataSink = true) :
    Prog.Wp books inputs.recvAny
      (fun poll b => PollTold (.recvAny inputs) (poll.map .receivedAny) b) (.opening 0) := by
  unfold PortsIn.recvAny
  split
  · exact told_receivedAny rfl rfl
  simp only [Prog.wp_bind]
  refine (wp_books_of_quiet (quiet_recordAttempts inputs inputs.ports)
    (wp_recordAttempts (Q := fun _ g => g = .holding 0) inputs.ports rfl)).mono fun _ b hb => ?_
  obtain ⟨g, told⟩ := b
  obtain rfl : g = _ := hb.1
  obtain rfl : told = _ := hb.2
  exact told_recvAnyPoll hsink

end Receives

/-- **Every call tells the sink of what it has moved**, whatever the answers it gets. -/
theorem first_told (call : PortCall) (hsink : call.Sinks) :
    Prog.Wp books call.first call.PollTold (.opening call.holds) := by
  cases call with
  | tryReserve outputs portId =>
    rw [first, Prog.wp_bind]
    exact (wp_books_of_quiet (quiet_portsOut_tryReserve outputs portId)
      (portsOut_tryReserve_spec outputs portId)).mono fun answer b hb => told_reserved hb.1 hb.2
  | reserve outputs portId =>
    rw [first, Prog.wp_bind]
    refine (wp_books_of_quiet (quiet_portsOut_reserve outputs portId)
      (portsOut_reserve_spec outputs portId)).mono fun poll b hb => ?_
    rcases poll with answer | _
    · exact told_reserved hb.1 hb.2
    · exact told_pending rfl hb.1 hb.2
  | permitSend permit packet =>
    rw [first, Prog.wp_bind]
    exact told_sent rfl rfl hsink rfl rfl rfl
  | permitAbort permit =>
    rw [first, Prog.wp_bind]
    refine (wp_books_of_quiet (quiet_dropPermits permit.permits) (wp_dropPermits
      (Q := fun _ g => g = .holding 0) 0 (by simp [Book.opening, holds, permit?, Account.holding])
      rfl)).mono fun _ b hb => ?_
    obtain ⟨g, told⟩ := b
    obtain rfl : g = _ := hb.1
    exact ⟨⟨rfl, rfl, rfl⟩, hb.2⟩
  | trySend outputs portId packet =>
    rw [first, Prog.wp_bind, PortsOut.trySend, Prog.wp_bind]
    refine ((wp_books_of_quiet (quiet_portsOut_tryReserve outputs portId)
      (portsOut_tryReserve_spec outputs portId)).and_ends
      (portsOut_tryReserve_issued outputs portId)).mono fun answer b hb => ?_
    obtain ⟨⟨hreserved, htold⟩, hissued⟩ := hb
    rcases answer with err | permit
    · exact told_error _ err hreserved htold
    · have hissued := hissued permit rfl
      have hheld : b.account = .holding (outputs.channels portId) := by
        rw [hreserved.2]
        simp [Book.opening, Account.holding, holds, permit?]
      exact told_sent rfl rfl (hissued.metadataSink.trans hsink) hissued.permits hheld htold
  | send outputs portId packet =>
    rw [first, Prog.wp_bind, PortsOut.send, Prog.wp_bind]
    refine ((wp_books_of_quiet (quiet_portsOut_reserve outputs portId)
      (portsOut_reserve_spec outputs portId)).and_ends
      (portsOut_reserve_issued outputs portId)).mono fun poll b hb => ?_
    obtain ⟨⟨hreserved, htold⟩, hissued⟩ := hb
    rcases poll with (err | permit) | _
    · exact told_error _ err hreserved htold
    · have hissued := hissued permit rfl
      have hheld : b.account = .holding (outputs.channels portId) := by
        rw [hreserved.2]
        simp [Book.opening, Account.holding, holds, permit?]
      simp only [Prog.wp_bind]
      exact told_sent rfl rfl (hissued.metadataSink.trans hsink) hissued.permits hheld htold
    · exact told_pending rfl hreserved htold
  | tryRecv inputs portId =>
    rw [first, Prog.wp_bind]
    exact told_tryRecv hsink portId
  | recv inputs portId =>
    rw [first, Prog.wp_bind]
    exact told_recv hsink portId
  | recvAny inputs =>
    rw [first, Prog.wp_bind]
    exact told_recvAny hsink

theorem again_told (call : PortCall) (hsink : call.Sinks) :
    Prog.Wp books call.again call.PollTold (.opening call.holds) := by
  cases call with
  | recv inputs portId =>
    simp only [again]
    cases PortHandle.find inputs.ports portId with
    | none => exact told_received _ rfl rfl
    | some port =>
      rw [Prog.wp_bind]
      exact told_recvPoll hsink portId port
  | recvAny inputs =>
    rw [again, Prog.wp_bind]
    exact told_recvAnyPoll hsink
  | tryReserve outputs portId => exact first_told (.tryReserve outputs portId) hsink
  | reserve outputs portId => exact first_told (.reserve outputs portId) hsink
  | permitSend permit packet => exact first_told (.permitSend permit packet) hsink
  | permitAbort permit => exact first_told (.permitAbort permit) hsink
  | trySend outputs portId packet => exact first_told (.trySend outputs portId packet) hsink
  | send outputs portId packet => exact first_told (.send outputs portId packet) hsink
  | tryRecv inputs portId => exact first_told (.tryRecv inputs portId) hsink

end PortCall

end Pureflow.Core
