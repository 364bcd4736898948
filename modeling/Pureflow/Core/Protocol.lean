import Pureflow.Core.PortSpecs

/-!
The port protocol: any number of nodes calling port operations on shared channels.

Calls run concurrently and interleave at every channel operation. The system keeps, beside the
channels, the permits handed out and not yet used, the history of each channel and the account
of each call. What one call's account says is proved of the call alone; the invariant ties the
accounts and permits to the reservations of the channels, and the histories to their queues.
-/

namespace Pureflow.Core

open Pureflow.Types Pureflow.Lib

/-- A call of the port interface. Dropping a permit is aborting it. -/
inductive PortCall
  | tryReserve (outputs : PortsOut) (portId : PortId)
  | reserve (outputs : PortsOut) (portId : PortId)
  | permitSend (permit : OutputPortSendPermit) (packet : PortPacket)
  | permitAbort (permit : OutputPortSendPermit)
  | trySend (outputs : PortsOut) (portId : PortId) (packet : PortPacket)
  | send (outputs : PortsOut) (portId : PortId) (packet : PortPacket)
  | tryRecv (inputs : PortsIn) (portId : PortId)
  | recv (inputs : PortsIn) (portId : PortId)
  | recvAny (inputs : PortsIn)

inductive PortResult
  | reserved (answer : Except PortSendError OutputPortSendPermit)
  | sent (answer : Except PortSendError Unit)
  | aborted
  | received (answer : Except PortRecvError (Option PortPacket))
  | receivedAny (answer : Except PortRecvError (Option (PortId × PortPacket)))

namespace PortCall

/-- The program of a call up to its first return or wait. -/
def first : PortCall → PortM (Poll PortResult)
  | .tryReserve outputs portId => return .ready (.reserved (← outputs.tryReserve portId))
  | .reserve outputs portId => return (← outputs.reserve portId).map .reserved
  | .permitSend permit packet => return .ready (.sent (← permit.send packet))
  | .permitAbort permit => do
    permit.abort
    return .ready .aborted
  | .trySend outputs portId packet => return .ready (.sent (← outputs.trySend portId packet))
  | .send outputs portId packet => return (← outputs.send portId packet).map .sent
  | .tryRecv inputs portId => return .ready (.received (← inputs.tryRecv portId))
  | .recv inputs portId => return (← inputs.recv portId).map .received
  | .recvAny inputs => return (← inputs.recvAny).map .receivedAny

/-- The program of a later poll; the synchronous calls and a receive on an undeclared port have
none. -/
def again : PortCall → PortM (Poll PortResult)
  | .recv inputs portId =>
    match PortHandle.find inputs.ports portId with
    | none => return .ready (.received (.error (.unknownPort portId)))
    | some port => return (← inputs.recvPoll port).map .received
  | .recvAny inputs => return (← inputs.recvAnyPoll).map .receivedAny
  | call => call.first

/-- The permit a call uses up. -/
def permit? : PortCall → Option OutputPortSendPermit
  | .permitSend permit _ => some permit
  | .permitAbort permit => some permit
  | _ => none

/-- The reservations a call is handed: those of its permit. -/
def holds (call : PortCall) : Multiset ℕ := call.permit?.elim 0 (·.permits)

/-- What a send commits when it succeeds: the packet, on every edge. -/
def deliveries : PortCall → List (ℕ × PortPacket)
  | .permitSend permit packet => permit.permits.map (·, packet)
  | .trySend outputs portId packet => (outputs.channels portId).map (·, packet)
  | .send outputs portId packet => (outputs.channels portId).map (·, packet)
  | _ => []

end PortCall

namespace PortResult

def isError : PortResult → Bool
  | .reserved (.error _) | .sent (.error _) | .received (.error _) | .receivedAny (.error _) => true
  | _ => false

/-- The permit a call returns. -/
def permit? : PortResult → Option OutputPortSendPermit
  | .reserved (.ok permit) => some permit
  | _ => none

/-- The packet a receive returns. -/
def packet? : PortResult → Option PortPacket
  | .received (.ok packet) => packet
  | .receivedAny (.ok packet) => packet.map Prod.snd
  | _ => none

def holds (r : PortResult) : Multiset ℕ := r.permit?.elim 0 (·.permits)

/-- What a call with this result has committed: a successful send to every edge, any other call
nothing. -/
def deliveries (call : PortCall) : PortResult → List (ℕ × PortPacket)
  | .sent (.ok ()) => call.deliveries
  | _ => []

end PortResult

section Calls

/-- What the account of a call that has returned says: it holds the permit it returns and
nothing else, a successful send committed to every edge and nothing else committed anything,
and it received the packet it returns. -/
structure Settles (call : PortCall) (r : PortResult) (g : Account) : Prop where
  held : g.held = r.holds
  committed : g.committed = r.deliveries call
  received : g.received.map Prod.snd = r.packet?.toList

lemma Settles.of_isError {call : PortCall} {r : PortResult} {g : Account} (h : Settles call r g)
    (herr : r.isError = true) : g = .holding 0 := by
  obtain ⟨hheld, hcommitted, hreceived⟩ := h
  have hr : r.holds = 0 ∧ r.deliveries call = [] ∧ r.packet? = none := by
    rcases r with (_ | _) | (_ | _) | _ | (_ | _) | (_ | _) <;>
      first
      | exact ⟨rfl, rfl, rfl⟩
      | cases herr
  rw [hr.1] at hheld
  rw [hr.2.1] at hcommitted
  rw [hr.2.2, Option.toList_none, List.map_eq_nil_iff] at hreceived
  cases g
  simp_all [Account.holding]

lemma Settles.all_or_none {call : PortCall} {r : PortResult} {g : Account}
    (h : Settles call r g) :
    (g.committed = [] ∨ g.committed = call.deliveries) ∧
      (r = .sent (.ok ()) → g.committed = call.deliveries) := by
  rw [h.committed]
  refine ⟨?_, fun hr => by rw [hr]; rfl⟩
  unfold PortResult.deliveries
  split
  · exact .inr rfl
  · exact .inl rfl

lemma Settles.committed_of_ne {call : PortCall} {r : PortResult} {g : Account}
    (h : Settles call r g) (hr : r ≠ .sent (.ok ())) : g.committed = [] := by
  rw [h.committed]
  unfold PortResult.deliveries
  split
  · exact absurd rfl hr
  · rfl

/-- What a poll of a call leaves: a settled account, or, for a call that was handed nothing, the
empty account it began with. -/
def PollSettles (call : PortCall) : Poll PortResult → Account → Prop
  | .ready r, g => Settles call r g
  | .pending, g => call.holds = 0 ∧ g = .holding 0

lemma reserved_settles {call : PortCall} {channels : List ℕ}
    {answer : Except PortSendError OutputPortSendPermit} {g : Account}
    (h : Reserved channels (.holding 0) answer g) : Settles call (.reserved answer) g := by
  rcases answer with err | permit
  · cases h
    exact ⟨rfl, rfl, rfl⟩
  · obtain ⟨hpermits, rfl⟩ := h
    exact ⟨by simp [Account.holding, PortResult.holds, PortResult.permit?, hpermits], rfl, rfl⟩

lemma delivered_settles {call : PortCall} {channels : List ℕ} {packet : PortPacket}
    (hcall : call.deliveries = channels.map (·, packet)) {answer : Except PortSendError Unit}
    {g : Account} (h : Delivered channels packet (.holding 0) answer g) :
    Settles call (.sent answer) g := by
  rcases answer with err | ⟨⟩
  · cases h
    exact ⟨rfl, rfl, rfl⟩
  · cases h
    exact ⟨rfl, hcall.symm, rfl⟩

lemma received_settles {call : PortCall} {answer : Except PortRecvError (Option PortPacket)}
    {g : Account} (h : Received (.holding 0) answer g) : Settles call (.received answer) g := by
  rcases answer with err | _ | packet
  · cases h
    exact ⟨rfl, rfl, rfl⟩
  · cases h
    exact ⟨rfl, rfl, rfl⟩
  · obtain ⟨c, rfl⟩ := h
    exact ⟨rfl, rfl, rfl⟩

lemma pollReceived_settles {call : PortCall} (hcall : call.holds = 0)
    {answer : Poll (Except PortRecvError (Option PortPacket))} {g : Account}
    (h : PollReceived (.holding 0) answer g) :
    PollSettles call (answer.map .received) g := by
  rcases answer with answer | _
  · exact received_settles h
  · exact ⟨hcall, h⟩

lemma pollReceivedAny_settles {call : PortCall} (hcall : call.holds = 0)
    {answer : Poll (Except PortRecvError (Option (PortId × PortPacket)))} {g : Account}
    (h : PollReceivedAny (.holding 0) answer g) :
    PollSettles call (answer.map .receivedAny) g := by
  rcases answer with (err | _ | ⟨portId, packet⟩) | _
  · cases h
    exact ⟨rfl, rfl, rfl⟩
  · cases h
    exact ⟨rfl, rfl, rfl⟩
  · obtain ⟨c, rfl⟩ := h
    exact ⟨rfl, rfl, rfl⟩
  · exact ⟨hcall, h⟩

/-- **Every call settles its account**, whatever the answers it gets. -/
theorem first_settles (call : PortCall) :
    Prog.Wp ledger call.first (PollSettles call) (.holding call.holds) := by
  cases call with
  | tryReserve outputs portId =>
    rw [PortCall.first, Prog.wp_bind]
    exact (portsOut_tryReserve_spec outputs portId).mono fun r g' hr => reserved_settles hr
  | reserve outputs portId =>
    rw [PortCall.first, Prog.wp_bind]
    refine (portsOut_reserve_spec outputs portId).mono fun r g' hr => ?_
    rcases r with answer | _
    · exact reserved_settles hr
    · exact ⟨rfl, hr⟩
  | permitSend permit packet =>
    rw [PortCall.first, Prog.wp_bind]
    refine (permit_send_spec 0 (by simp [PortCall.holds, PortCall.permit?, Account.holding])).mono
      fun r g' hr => ?_
    rcases r with err | ⟨⟩
    · cases hr
      exact ⟨rfl, rfl, rfl⟩
    · cases hr
      exact ⟨rfl, rfl, rfl⟩
  | permitAbort permit =>
    rw [PortCall.first, Prog.wp_bind]
    refine wp_dropPermits 0 (by simp [PortCall.holds, PortCall.permit?, Account.holding]) ?_
    exact ⟨rfl, rfl, rfl⟩
  | trySend outputs portId packet =>
    rw [PortCall.first, Prog.wp_bind]
    exact (trySend_spec outputs portId packet).mono fun r g' hr => delivered_settles rfl hr
  | send outputs portId packet =>
    rw [PortCall.first, Prog.wp_bind]
    refine (send_spec outputs portId packet).mono fun r g' hr => ?_
    rcases r with answer | _
    · exact delivered_settles rfl hr
    · exact ⟨rfl, hr⟩
  | tryRecv inputs portId =>
    rw [PortCall.first, Prog.wp_bind]
    exact (portsIn_tryRecv_spec inputs portId).mono fun r g' hr => received_settles hr
  | recv inputs portId =>
    rw [PortCall.first, Prog.wp_bind]
    exact (portsIn_recv_spec inputs portId).mono fun r g' hr => pollReceived_settles rfl hr
  | recvAny inputs =>
    rw [PortCall.first, Prog.wp_bind]
    exact (recvAny_spec inputs).mono fun r g' hr => pollReceivedAny_settles rfl hr

theorem again_settles (call : PortCall) :
    Prog.Wp ledger call.again (PollSettles call) (.holding call.holds) := by
  cases call with
  | recv inputs portId =>
    have hcall : (PortCall.recv inputs portId).holds = 0 := rfl
    simp only [PortCall.again]
    cases PortHandle.find inputs.ports portId with
    | none => exact ⟨rfl, rfl, rfl⟩
    | some port =>
      simp only [Prog.wp_bind]
      exact (recvPoll_spec inputs port).mono fun r g' hr => pollReceived_settles hcall hr
  | recvAny inputs =>
    rw [PortCall.again, Prog.wp_bind]
    exact (recvAnyPoll_spec inputs).mono fun r g' hr => pollReceivedAny_settles rfl hr
  | tryReserve outputs portId => exact first_settles (.tryReserve outputs portId)
  | reserve outputs portId => exact first_settles (.reserve outputs portId)
  | permitSend permit packet => exact first_settles (.permitSend permit packet)
  | permitAbort permit => exact first_settles (.permitAbort permit)
  | trySend outputs portId packet => exact first_settles (.trySend outputs portId packet)
  | send outputs portId packet => exact first_settles (.send outputs portId packet)
  | tryRecv inputs portId => exact first_settles (.tryRecv inputs portId)

end Calls

/-- A call in flight: what is left of its program, and its account so far. -/
structure Running where
  call : PortCall
  prog : PortM (Poll PortResult)
  account : Account

/-- A call that has returned. -/
structure Returned where
  call : PortCall
  result : PortResult
  account : Account

/-- The channels with their histories, the permits handed out, and the calls. -/
structure System (m : Mpsc PortPacket) where
  channels : ℕ → m.State
  committed : ℕ → List PortPacket
  received : ℕ → List PortPacket
  receiverDropped : ℕ → Bool
  permits : List OutputPortSendPermit
  running : List Running
  returned : List Returned

namespace System

variable {m : Mpsc PortPacket}

def initial (m : Mpsc PortPacket) (capacity : ℕ → ℕ) : System m where
  channels c := m.channel (capacity c)
  committed _ := []
  received _ := []
  receiverDropped _ := false
  permits := []
  running := []
  returned := []

/-- What can be observed of a channel now. -/
def view (s : System m) (c : ℕ) : Channel PortPacket := m.view (s.channels c)

/-- The reservations held by permits and by running calls. -/
def outstanding (s : System m) : Multiset ℕ :=
  (s.permits.map fun p => (p.permits : Multiset ℕ)).sum + (s.running.map (·.account.held)).sum

/-- One call on the channels. The token may be in any state and the sink may answer anything. -/
inductive Performs (m : Mpsc PortPacket) :
    (op : PortOp) → op.Answer → (ℕ → m.State) → (ℕ → m.State) → Prop
  | tryReserve {chs : ℕ → m.State} {c : ℕ} {answer : Except SendError Unit} {st : m.State} :
    m.tryReserve (chs c) answer st → Performs m (.tryReserve c) answer chs (Function.update chs c st)
  | permitSend {chs : ℕ → m.State} {c : ℕ} {packet : PortPacket} {st : m.State} :
    m.send (chs c) packet st → Performs m (.permitSend c packet) () chs (Function.update chs c st)
  | permitAbort {chs : ℕ → m.State} {c : ℕ} {st : m.State} :
    m.abort (chs c) st → Performs m (.permitAbort c) () chs (Function.update chs c st)
  | tryRecv {chs : ℕ → m.State} {c : ℕ} {answer : Except RecvError PortPacket} {st : m.State} :
    m.tryRecv (chs c) answer st → Performs m (.tryRecv c) answer chs (Function.update chs c st)
  | pollRecv {chs : ℕ → m.State} {c : ℕ} {answer : Poll (Except RecvError PortPacket)}
      {st : m.State} :
    m.pollRecv (chs c) answer st → Performs m (.pollRecv c) answer chs (Function.update chs c st)
  | len {chs : ℕ → m.State} {c : ℕ} : Performs m (.len c) (m.view (chs c)).queue.length chs chs
  | isCancelled {chs : ℕ → m.State} (b : Bool) : Performs m .isCancelled b chs chs
  | record {chs : ℕ → m.State} {r : MetadataRecord} (answer : Except PureflowError Unit) :
    Performs m (.record r) answer chs chs

/-- The packet a call on the channels commits, with its channel. -/
def commits : PortOp → Option (ℕ × PortPacket)
  | .permitSend c packet => some (c, packet)
  | _ => none

/-- The packet a call on the channels receives, with its channel. -/
def receives : (op : PortOp) → op.Answer → Option (ℕ × PortPacket)
  | .tryRecv c, .ok packet => some (c, packet)
  | .pollRecv c, .ready (.ok packet) => some (c, packet)
  | _, _ => none

/-- A history with one more packet. -/
def append (history : ℕ → List PortPacket) : Option (ℕ × PortPacket) → ℕ → List PortPacket
  | some (c, packet) => Function.update history c (history c ++ [packet])
  | none => history

/-- One step of the system: a call starts, makes its next call on the channels, is polled again
or abandoned while it waits, or returns; or a node drops an end of a channel. -/
inductive Step (m : Mpsc PortPacket) : System m → System m → Prop
  | start {s : System m} (call : PortCall) {permits : List OutputPortSendPermit} :
    s.permits.Perm (call.permit?.toList ++ permits) →
    Step m s { s with
      permits := permits
      running := ⟨call, call.first, .holding call.holds⟩ :: s.running }
  | advance {s : System m} {before after : List Running} {call : PortCall} {op : PortOp}
      {k : op.Answer → PortM (Poll PortResult)} {g : Account} {answer : op.Answer}
      {channels : ℕ → m.State} :
    s.running = before ++ ⟨call, .call op k, g⟩ :: after →
    Performs m op answer s.channels channels →
    Step m s { s with
      channels := channels
      committed := append s.committed (commits op)
      received := append s.received (receives op answer)
      running := before ++ ⟨call, k answer, g.after op answer⟩ :: after }
  | again {s : System m} {before after : List Running} {call : PortCall} {g : Account} :
    s.running = before ++ ⟨call, .ret .pending, g⟩ :: after →
    Step m s { s with running := before ++ ⟨call, call.again, g⟩ :: after }
  | abandon {s : System m} {before after : List Running} {call : PortCall} {g : Account} :
    s.running = before ++ ⟨call, .ret .pending, g⟩ :: after →
    Step m s { s with running := before ++ after }
  | finish {s : System m} {before after : List Running} {call : PortCall} {g : Account}
      {result : PortResult} :
    s.running = before ++ ⟨call, .ret (.ready result), g⟩ :: after →
    Step m s { s with
      permits := result.permit?.toList ++ s.permits
      running := before ++ after
      returned := ⟨call, result, g⟩ :: s.returned }
  | dropSender {s : System m} (c : ℕ) {st : m.State} :
    m.dropSender (s.channels c) st →
    Step m s { s with channels := Function.update s.channels c st }
  | dropReceiver {s : System m} (c : ℕ) {st : m.State} :
    m.dropReceiver (s.channels c) st →
    Step m s { s with
      channels := Function.update s.channels c st
      receiverDropped := Function.update s.receiverDropped c true }

/-- The states reached from fresh channels of the given capacities. -/
def Reachable (m : Mpsc PortPacket) (capacity : ℕ → ℕ) (s : System m) : Prop :=
  Relation.ReflTransGen (Step m) (initial m capacity) s

/-- What holds of every reachable state. -/
structure Inv (capacity : ℕ → ℕ) (s : System m) : Prop where
  sound (c : ℕ) :
    (s.view c).Sound (capacity c) (s.outstanding.count c) (s.committed c) (s.received c)
  alive (c : ℕ) : (s.view c).receiverAlive = !s.receiverDropped c
  running : ∀ r ∈ s.running, Prog.Wp ledger r.prog (PollSettles r.call) r.account
  returned : ∀ r ∈ s.returned, Settles r.call r.result r.account

/-- The packets of a log that are on this channel. -/
def loggedOn (c : ℕ) (log : List (ℕ × PortPacket)) : Multiset PortPacket :=
  ((log.filter (·.1 = c)).map Prod.snd : List PortPacket)

/-- The packets on a channel that are in the accounts of the calls. -/
def accounted (side : Account → List (ℕ × PortPacket)) (s : System m) (c : ℕ) :
    Multiset PortPacket :=
  (s.returned.map fun r => loggedOn c (side r.account)).sum +
    (s.running.map fun r => loggedOn c (side r.account)).sum

/-- The histories of the channels are those of the calls. -/
structure Accounted (s : System m) : Prop where
  committed (c : ℕ) : (s.committed c : Multiset PortPacket) = accounted Account.committed s c
  received (c : ℕ) : (s.received c : Multiset PortPacket) = accounted Account.received s c

section Preservation

variable {capacity n : ℕ → ℕ} {g : Account} {committed received : ℕ → List PortPacket}
  {chs chs' : ℕ → m.State}

lemma sound_update {n' : ℕ → ℕ} {committed' received' : ℕ → List PortPacket} {c : ℕ}
    {st : m.State}
    (h : ∀ d, (m.view (chs d)).Sound (capacity d) (n d) (committed d) (received d))
    (hc : (m.view st).Sound (capacity c) (n' c) (committed' c) (received' c))
    (hother : ∀ d, d ≠ c → n' d = n d ∧ committed' d = committed d ∧ received' d = received d) :
    ∀ d, (m.view (Function.update chs c st d)).Sound (capacity d) (n' d) (committed' d)
      (received' d) := by
  intro d
  rcases eq_or_ne d c with rfl | hd
  · rw [Function.update_self]
    exact hc
  · obtain ⟨hn, hcom, hrec⟩ := hother d hd
    rw [Function.update_of_ne hd, hn, hcom, hrec]
    exact h d

lemma append_some_of_ne {history : ℕ → List PortPacket} {c d : ℕ} {packet : PortPacket}
    (h : d ≠ c) : append history (some (c, packet)) d = history d := by
  simp [append, h]

lemma count_erase {c : ℕ} {held : Multiset ℕ} (h : c ∈ held) :
    held.count c = (held.erase c).count c + 1 := by
  rw [← Multiset.count_cons_self, Multiset.cons_erase h]

/-- **One call on the channels** by an operation entitled to it keeps every channel in agreement
with its history and with the reservations held, `n` of them by others. -/
lemma performs_sound (hm : m.Lawful) {op : PortOp} {answer : op.Answer}
    (hp : Performs m op answer chs chs') (hallow : g.allows op)
    (h : ∀ c, (m.view (chs c)).Sound (capacity c) (n c + g.held.count c) (committed c)
      (received c)) :
    ∀ c, (m.view (chs' c)).Sound (capacity c) (n c + (g.after op answer).held.count c)
      (append committed (commits op) c) (append received (receives op answer) c) := by
  cases hp with
  | @tryReserve _ c answer st hst =>
    rcases answer with err | ⟨⟩
    · refine sound_update h ?_ fun d _ => ⟨rfl, rfl, rfl⟩
      rw [hm.reserve_error hst]
      exact h c
    · obtain ⟨hroom, hview⟩ := hm.reserve_ok hst
      refine sound_update h ?_ fun d hd => ⟨?_, rfl, rfl⟩
      · rw [hview]
        simpa [Account.after, append, commits, receives, ← add_assoc] using (h c).reserve hroom
      · simp [Account.after, hd]
  | @permitSend _ c packet st hst =>
    have hres := (h c).reserved
    have hc := h c
    rw [count_erase hallow, ← add_assoc] at hc hres
    refine sound_update h ?_ fun d hd => ⟨?_, append_some_of_ne hd, rfl⟩
    · rw [hm.send hst (by omega)]
      simpa [Account.after, append, commits, receives] using hc.commit packet
    · simp [Account.after, hd]
  | @permitAbort _ c st hst =>
    have hres := (h c).reserved
    have hc := h c
    rw [count_erase hallow, ← add_assoc] at hc hres
    refine sound_update h ?_ fun d hd => ⟨?_, rfl, rfl⟩
    · rw [hm.abort hst (by omega)]
      exact hc.release
    · simp [Account.after, hd]
  | @tryRecv _ c answer st hst =>
    rcases answer with err | packet
    · refine sound_update h ?_ fun d _ => ⟨rfl, rfl, rfl⟩
      rw [hm.recv_error hst]
      exact h c
    · obtain ⟨hhead, hview⟩ := hm.recv_ok hst
      refine sound_update h ?_ fun d hd => ⟨rfl, rfl, append_some_of_ne hd⟩
      rw [hview]
      simpa [Account.after, append, commits, receives] using (h c).pop hhead
  | @pollRecv _ c answer st hst =>
    rcases answer with (err | packet) | _
    · refine sound_update h ?_ fun d _ => ⟨rfl, rfl, rfl⟩
      rw [hm.poll_error hst]
      exact h c
    · obtain ⟨hhead, hview⟩ := hm.poll_ok hst
      refine sound_update h ?_ fun d hd => ⟨rfl, rfl, append_some_of_ne hd⟩
      rw [hview]
      simpa [Account.after, append, commits, receives] using (h c).pop hhead
    · refine sound_update h ?_ fun d _ => ⟨rfl, rfl, rfl⟩
      rw [hm.poll_pending hst]
      exact h c
  | len => exact h
  | isCancelled b => exact h
  | record answer => exact h

lemma performs_alive (hm : m.Lawful) {op : PortOp} {answer : op.Answer}
    (hp : Performs m op answer chs chs') (hallow : g.allows op)
    (h : ∀ c, c ∈ g.held → 0 < (m.view (chs c)).reserved) (c : ℕ) :
    (m.view (chs' c)).receiverAlive = (m.view (chs c)).receiverAlive := by
  have hupdate {d : ℕ} {st : m.State}
      (hd : (m.view st).receiverAlive = (m.view (chs d)).receiverAlive) :
      (m.view (Function.update chs d st c)).receiverAlive = (m.view (chs c)).receiverAlive := by
    rcases eq_or_ne c d with rfl | hc
    · rw [Function.update_self, hd]
    · rw [Function.update_of_ne hc]
  cases hp with
  | @tryReserve _ c answer st hst =>
    rcases answer with err | ⟨⟩
    · exact hupdate (by rw [hm.reserve_error hst])
    · exact hupdate (by rw [(hm.reserve_ok hst).2, Channel.reserve])
  | permitSend hst => exact hupdate (by rw [hm.send hst (h _ hallow), Channel.commit])
  | permitAbort hst => exact hupdate (by rw [hm.abort hst (h _ hallow), Channel.release])
  | @tryRecv _ c answer st hst =>
    rcases answer with err | packet
    · exact hupdate (by rw [hm.recv_error hst])
    · exact hupdate (by rw [(hm.recv_ok hst).2, Channel.pop])
  | @pollRecv _ c answer st hst =>
    rcases answer with (err | packet) | _
    · exact hupdate (by rw [hm.poll_error hst])
    · exact hupdate (by rw [(hm.poll_ok hst).2, Channel.pop])
    · exact hupdate (by rw [hm.poll_pending hst])
  | len => rfl
  | isCancelled b => rfl
  | record answer => rfl

variable {s s' : System m}

lemma outstanding_of_running {before after : List Running} {r : Running}
    (h : s.running = before ++ r :: after) :
    s.outstanding = { s with running := before ++ after }.outstanding + r.account.held := by
  simp only [outstanding, h, List.map_append, List.map_cons, List.sum_append, List.sum_cons]
  abel

lemma forall_mem_middle {α : Type} {P : α → Prop} {before after : List α} {r : α} :
    (∀ q ∈ before ++ r :: after, P q) ↔ P r ∧ ∀ q ∈ before ++ after, P q := by
  simp only [List.mem_append, List.mem_cons]
  aesop

lemma sum_permits_toList (p : Option OutputPortSendPermit) :
    (p.toList.map fun p => (p.permits : Multiset ℕ)).sum =
      p.elim 0 fun p => (p.permits : Multiset ℕ) := by
  cases p <;> simp

lemma inv_initial (hm : m.Lawful) (capacity : ℕ → ℕ) : Inv capacity (initial m capacity) where
  sound c := by
    simpa [view, initial, hm.view_channel, outstanding] using Channel.Sound.new (capacity c)
  alive c := by simp [view, initial, hm.view_channel, Channel.new]
  running r hr := by cases hr
  returned r hr := by cases hr

lemma inv_start (h : Inv capacity s) (call : PortCall) {permits : List OutputPortSendPermit}
    (hperm : s.permits.Perm (call.permit?.toList ++ permits)) :
    Inv capacity { s with
      permits := permits
      running := ⟨call, call.first, .holding call.holds⟩ :: s.running } := by
  have hsum := (hperm.map fun p => (p.permits : Multiset ℕ)).sum_eq
  rw [List.map_append, List.sum_append, sum_permits_toList] at hsum
  have hout : s.outstanding = { s with
      permits := permits
      running := ⟨call, call.first, .holding call.holds⟩ :: s.running }.outstanding := by
    simp only [outstanding, hsum, List.map_cons, List.sum_cons, Account.holding, PortCall.holds]
    abel
  refine ⟨fun c => ?_, h.alive, fun r hr => ?_, h.returned⟩
  · rw [← hout]
    exact h.sound c
  · rcases List.mem_cons.mp hr with rfl | hr
    · exact first_settles call
    · exact h.running r hr

lemma inv_advance (hm : m.Lawful) (h : Inv capacity s) {before after : List Running}
    {call : PortCall} {op : PortOp} {k : op.Answer → PortM (Poll PortResult)} {g : Account}
    {answer : op.Answer} {channels : ℕ → m.State}
    (hrun : s.running = before ++ ⟨call, .call op k, g⟩ :: after)
    (hperf : Performs m op answer s.channels channels) :
    Inv capacity { s with
      channels := channels
      committed := append s.committed (commits op)
      received := append s.received (receives op answer)
      running := before ++ ⟨call, k answer, g.after op answer⟩ :: after } := by
  obtain ⟨⟨hallow, hnext⟩, hrest⟩ := forall_mem_middle.mp (hrun ▸ h.running)
  have hsound (c : ℕ) : (m.view (s.channels c)).Sound (capacity c)
      ({ s with running := before ++ after }.outstanding.count c + g.held.count c)
      (s.committed c) (s.received c) := by
    have := h.sound c
    rwa [outstanding_of_running hrun, Multiset.count_add] at this
  refine ⟨fun c => ?_, fun c => ?_, ?_, h.returned⟩
  · rw [outstanding_of_running rfl, Multiset.count_add]
    exact performs_sound hm hperf hallow hsound c
  · rw [← h.alive c]
    refine performs_alive hm hperf hallow (fun d hd => ?_) c
    have hcount : 0 < g.held.count d := Multiset.count_pos.mpr hd
    rw [(hsound d).reserved]
    omega
  · exact forall_mem_middle.mpr ⟨hnext answer trivial, hrest⟩

/-- A waiting call has the account it began with, and can be polled again. -/
lemma inv_again (h : Inv capacity s) {before after : List Running} {call : PortCall} {g : Account}
    (hrun : s.running = before ++ ⟨call, .ret .pending, g⟩ :: after) :
    Inv capacity { s with running := before ++ ⟨call, call.again, g⟩ :: after } := by
  obtain ⟨⟨hholds, hg⟩, hrest⟩ := forall_mem_middle.mp (hrun ▸ h.running)
  refine ⟨fun c => ?_, h.alive, ?_, h.returned⟩
  · have := h.sound c
    rw [outstanding_of_running hrun] at this
    rw [outstanding_of_running rfl]
    exact this
  · refine forall_mem_middle.mpr ⟨?_, hrest⟩
    have := again_settles call
    rwa [hholds, ← hg] at this

lemma inv_abandon (h : Inv capacity s) {before after : List Running} {call : PortCall}
    {g : Account} (hrun : s.running = before ++ ⟨call, .ret .pending, g⟩ :: after) :
    Inv capacity { s with running := before ++ after } := by
  obtain ⟨⟨-, hg⟩, hrest⟩ := forall_mem_middle.mp (hrun ▸ h.running)
  have hheld : g.held = 0 := congrArg Account.held hg
  refine ⟨fun c => ?_, h.alive, hrest, h.returned⟩
  have := h.sound c
  rwa [outstanding_of_running hrun, hheld, add_zero] at this

lemma inv_finish (h : Inv capacity s) {before after : List Running} {call : PortCall}
    {g : Account} {result : PortResult}
    (hrun : s.running = before ++ ⟨call, .ret (.ready result), g⟩ :: after) :
    Inv capacity { s with
      permits := result.permit?.toList ++ s.permits
      running := before ++ after
      returned := ⟨call, result, g⟩ :: s.returned } := by
  obtain ⟨hready, hrest⟩ := forall_mem_middle.mp (hrun ▸ h.running)
  have hsettles : Settles call result g := hready
  have hout : s.outstanding = { s with
      permits := result.permit?.toList ++ s.permits
      running := before ++ after }.outstanding := by
    rw [outstanding_of_running hrun]
    simp only [outstanding, List.map_append, List.sum_append, sum_permits_toList,
      hsettles.held, PortResult.holds]
    abel
  refine ⟨fun c => ?_, h.alive, hrest, fun r hr => ?_⟩
  · have := h.sound c
    rw [hout] at this
    exact this
  · rcases List.mem_cons.mp hr with rfl | hr
    · exact hsettles
    · exact h.returned r hr

lemma inv_dropSender (hm : m.Lawful) (h : Inv capacity s) {c : ℕ} {st : m.State}
    (hst : m.dropSender (s.channels c) st) :
    Inv capacity { s with channels := Function.update s.channels c st } := by
  have hview := hm.dropSender hst
  refine ⟨sound_update h.sound ?_ fun d _ => ⟨rfl, rfl, rfl⟩, fun d => ?_, h.running, h.returned⟩
  · rw [hview]
    exact h.sound c
  · rw [← h.alive d]
    rcases eq_or_ne d c with rfl | hd
    · simp [view, hview]
    · simp [view, hd]

lemma inv_dropReceiver (hm : m.Lawful) (h : Inv capacity s) {c : ℕ} {st : m.State}
    (hst : m.dropReceiver (s.channels c) st) :
    Inv capacity { s with
      channels := Function.update s.channels c st
      receiverDropped := Function.update s.receiverDropped c true } := by
  have hview := hm.dropReceiver hst
  refine ⟨sound_update h.sound ?_ fun d _ => ⟨rfl, rfl, rfl⟩, fun d => ?_, h.running, h.returned⟩
  · rw [hview]
    exact (h.sound c).close
  · rcases eq_or_ne d c with rfl | hd
    · simp [view, hview, Channel.close]
    · have := h.alive d
      simpa [view, hd] using this

/-- **Every step keeps the invariant.** -/
theorem inv_step (hm : m.Lawful) (h : Inv capacity s) (hstep : Step m s s') : Inv capacity s' := by
  cases hstep with
  | start call hperm => exact inv_start h call hperm
  | advance hrun hperf => exact inv_advance hm h hrun hperf
  | again hrun => exact inv_again h hrun
  | abandon hrun => exact inv_abandon h hrun
  | finish hrun => exact inv_finish h hrun
  | dropSender c hst => exact inv_dropSender hm h hst
  | dropReceiver c hst => exact inv_dropReceiver hm h hst

/-- **Every reachable state satisfies the invariant.** -/
theorem inv_of_reachable (hm : m.Lawful) (h : Reachable m capacity s) : Inv capacity s := by
  induction h with
  | refl => exact inv_initial hm capacity
  | tail _ hstep ih => exact inv_step hm ih hstep

lemma after_committed (g : Account) (op : PortOp) (answer : op.Answer) :
    (g.after op answer).committed = g.committed ++ (commits op).toList := by
  cases op with
  | permitSend c packet => rfl
  | tryReserve c => rcases answer with err | ⟨⟩ <;> exact (List.append_nil _).symm
  | tryRecv c => rcases answer with err | packet <;> exact (List.append_nil _).symm
  | pollRecv c => rcases answer with (err | packet) | _ <;> exact (List.append_nil _).symm
  | permitAbort c | len c | isCancelled | record r => exact (List.append_nil _).symm

lemma after_received (g : Account) (op : PortOp) (answer : op.Answer) :
    (g.after op answer).received = g.received ++ (receives op answer).toList := by
  cases op with
  | tryReserve c => rcases answer with err | ⟨⟩ <;> exact (List.append_nil _).symm
  | tryRecv c =>
    rcases answer with err | packet
    · exact (List.append_nil _).symm
    · rfl
  | pollRecv c =>
    rcases answer with (err | packet) | _
    · exact (List.append_nil _).symm
    · rfl
    · exact (List.append_nil _).symm
  | permitSend c packet | permitAbort c | len c | isCancelled | record r =>
    exact (List.append_nil _).symm

lemma loggedOn_append (c : ℕ) (log more : List (ℕ × PortPacket)) :
    loggedOn c (log ++ more) = loggedOn c log + loggedOn c more := by
  rw [loggedOn, List.filter_append, List.map_append, ← Multiset.coe_add, loggedOn, loggedOn]

lemma append_loggedOn (history : ℕ → List PortPacket) (entry : Option (ℕ × PortPacket)) (c : ℕ) :
    (append history entry c : Multiset PortPacket) = history c + loggedOn c entry.toList := by
  rcases entry with _ | ⟨d, packet⟩
  · exact (add_zero _).symm
  · rcases eq_or_ne c d with rfl | hne
    · simp only [append, Function.update_self, ← Multiset.coe_add]
      simp [loggedOn]
    · rw [append_some_of_ne hne]
      simp [loggedOn, hne.symm]

lemma accounted_of_running {side : Account → List (ℕ × PortPacket)} {before after : List Running}
    {r : Running} (h : s.running = before ++ r :: after) (c : ℕ) :
    accounted side s c =
      accounted side { s with running := before ++ after } c + loggedOn c (side r.account) := by
  simp only [accounted, h, List.map_append, List.map_cons, List.sum_append, List.sum_cons]
  abel

lemma accounted_advance (h : Accounted s) {before after : List Running} {call : PortCall}
    {op : PortOp} {k : op.Answer → PortM (Poll PortResult)} {g : Account} {answer : op.Answer}
    {channels : ℕ → m.State} (hrun : s.running = before ++ ⟨call, .call op k, g⟩ :: after) :
    Accounted { s with
      channels := channels
      committed := append s.committed (commits op)
      received := append s.received (receives op answer)
      running := before ++ ⟨call, k answer, g.after op answer⟩ :: after } := by
  refine ⟨fun c => ?_, fun c => ?_⟩
  · rw [append_loggedOn, h.committed, accounted_of_running hrun, add_assoc, ← loggedOn_append,
      ← after_committed, eq_comm]
    rw [accounted_of_running rfl]
    rfl
  · rw [append_loggedOn, h.received, accounted_of_running hrun, add_assoc, ← loggedOn_append,
      ← after_received, eq_comm]
    rw [accounted_of_running rfl]
    rfl

/-- A step that moves no packet, and loses only accounts that are empty. -/
lemma Accounted.of_same (h : Accounted s) (hcommitted : s'.committed = s.committed)
    (hreceived : s'.received = s.received)
    (hsame : ∀ side : Account → List (ℕ × PortPacket), (∀ held, side (.holding held) = []) →
      ∀ c, accounted side s' c = accounted side s c) : Accounted s' := by
  refine ⟨fun c => ?_, fun c => ?_⟩
  · rw [hcommitted, hsame _ fun _ => rfl, h.committed]
  · rw [hreceived, hsame _ fun _ => rfl, h.received]

/-- **Every packet is in the account of one call.** -/
lemma accounted_step (hinv : Inv capacity s) (h : Accounted s) (hstep : Step m s s') :
    Accounted s' := by
  cases hstep with
  | start call hperm =>
    refine h.of_same rfl rfl fun side hside c => ?_
    simp [accounted, hside, loggedOn]
  | advance hrun hperf => exact accounted_advance h hrun
  | again hrun =>
    refine h.of_same rfl rfl fun side hside c => ?_
    refine Eq.trans ?_ (accounted_of_running hrun c).symm
    rw [accounted_of_running rfl]
  | abandon hrun =>
    -- the call waits, so its account is the empty one
    obtain ⟨⟨-, hg⟩, -⟩ := forall_mem_middle.mp (hrun ▸ hinv.running)
    refine h.of_same rfl rfl fun side hside c => ?_
    rw [accounted_of_running hrun, hg, hside]
    exact (add_zero _).symm
  | finish hrun =>
    refine h.of_same rfl rfl fun side hside c => ?_
    rw [accounted_of_running hrun]
    simp only [accounted, List.map_cons, List.sum_cons]
    abel
  | dropSender c hst => exact ⟨h.committed, h.received⟩
  | dropReceiver c hst => exact ⟨h.committed, h.received⟩

lemma accounted_initial (m : Mpsc PortPacket) (capacity : ℕ → ℕ) :
    Accounted (initial m capacity) :=
  ⟨fun _ => rfl, fun _ => rfl⟩

theorem accounted_of_reachable (hm : m.Lawful) (h : Reachable m capacity s) : Accounted s := by
  induction h with
  | refl => exact accounted_initial m capacity
  | tail h hstep ih => exact accounted_step (inv_of_reachable hm h) ih hstep

end Preservation

/-- What a call itself did to the number of reservations of a channel. -/
def netReserved (r : Returned) (c : ℕ) : ℤ := r.account.held.count c - r.call.holds.count c

/-- **Port protocol safety.** In every reachable state of every system of nodes, whatever the
wiring and the interleaving:
queued packets and reservations, all of them held by a permit or a running call, fit the
capacity of each channel;
what was received from a channel is a prefix of what was committed to it, and the rest is queued
unless the receiver was dropped;
each packet that was committed to a channel or received from it is in the account of exactly one
call;
a call that returned an error moved no packet and gave back the reservations it was handed, those
of its permit, and left no others;
a send committed its packet to every edge of the port or to none, to every edge if it succeeded,
and nothing but a send committed anything;
what a call received is the packet it returned, and nothing if it returned none. -/
theorem port_protocol_safe (m : Mpsc PortPacket) (hm : m.Lawful) (capacity : ℕ → ℕ)
    (s : System m) (h : Reachable m capacity s) :
    (∀ c, (s.view c).queue.length + (s.view c).reserved ≤ capacity c ∧
      (s.view c).reserved = s.outstanding.count c) ∧
    (∀ c, s.received c <+: s.committed c ∧
      (s.receiverDropped c = false → s.committed c = s.received c ++ (s.view c).queue) ∧
      (s.receiverDropped c = true → (s.view c).queue = [])) ∧
    (∀ c, (s.committed c : Multiset PortPacket) = accounted Account.committed s c ∧
      (s.received c : Multiset PortPacket) = accounted Account.received s c) ∧
    (∀ r ∈ s.returned, r.result.isError = true →
      r.account.committed = [] ∧ r.account.received = [] ∧
        ∀ c, netReserved r c = -r.call.holds.count c) ∧
    (∀ r ∈ s.returned,
      (r.account.committed = [] ∨ r.account.committed = r.call.deliveries) ∧
        (r.result = .sent (.ok ()) → r.account.committed = r.call.deliveries)) ∧
    (∀ r ∈ s.returned, r.result ≠ .sent (.ok ()) → r.account.committed = []) ∧
    (∀ r ∈ s.returned, r.account.received.map Prod.snd = r.result.packet?.toList) := by
  have hinv := inv_of_reachable hm h
  have haccounted := accounted_of_reachable hm h
  refine ⟨fun c => ⟨?_, (hinv.sound c).reserved⟩, fun c => ?_,
    fun c => ⟨haccounted.committed c, haccounted.received c⟩, fun r hr herr => ?_, fun r hr => ?_,
    fun r hr => (hinv.returned r hr).committed_of_ne, fun r hr => (hinv.returned r hr).received⟩
  · rw [← (hinv.sound c).capacity]
    exact (hinv.sound c).used_le
  · refine ⟨(hinv.sound c).received_isPrefix, fun hc => ?_, fun hc => ?_⟩
    · exact (hinv.sound c).alive (by rw [hinv.alive c, hc]; rfl)
    · exact (hinv.sound c).dead (by rw [hinv.alive c, hc]; rfl)
  · have hg := (hinv.returned r hr).of_isError herr
    refine ⟨by rw [hg]; rfl, by rw [hg]; rfl, fun c => ?_⟩
    simp [netReserved, hg, Account.holding]
  · exact (hinv.returned r hr).all_or_none

section Sample

def samplePacket : PortPacket where
  metadata :=
    { messageId := ⟨"m1", message_m1_valid⟩
      workflowId := ⟨"flow", workflow_flow_valid⟩
      execution := .firstAttempt ⟨"run-1", execution_run_valid⟩
      route := ⟨none, ⟨⟨"sink", by decide⟩, ⟨"in", port_in_valid⟩⟩⟩ }
  payload := .bytes [1]

/-- One output port with two edges. -/
def sampleOutputs : PortsOut :=
  .fromHandles [⟨"out", port_out_valid⟩]
    [.connected ⟨"out", port_out_valid⟩ ⟨0, 1⟩, .connected ⟨"out", port_out_valid⟩ ⟨1, 1⟩]

/-- A fan-out send over two channels of capacity one, from its start to its return. -/
lemma sample_reachable : ∃ s : System (.plain PortPacket), Reachable _ (fun _ => 1) s ∧
    s.committed 0 = [samplePacket] ∧ s.committed 1 = [samplePacket] ∧ s.running = [] := by
  let call : PortCall := .trySend sampleOutputs ⟨"out", by decide⟩ samplePacket
  refine ⟨_, .tail (.tail (.tail (.tail (.tail (.tail .refl (.start call (List.Perm.refl [])))
    (.advance (List.nil_append _).symm (.tryReserve rfl)))
    (.advance (List.nil_append _).symm (.tryReserve rfl)))
    (.advance (List.nil_append _).symm (.permitSend rfl)))
    (.advance (List.nil_append _).symm (.permitSend rfl)))
    (.finish (List.nil_append _).symm), rfl, rfl, rfl⟩

theorem port_protocol_safe_sample :
    (Mpsc.plain PortPacket).Lawful ∧ ∃ s : System (.plain PortPacket),
      Reachable _ (fun _ => 1) s ∧ s.committed 1 = [samplePacket] ∧
      ∀ c, (s.view c).queue.length + (s.view c).reserved ≤ 1 ∧
        (s.view c).reserved = s.outstanding.count c := by
  obtain ⟨s, hs, -, hcommitted, -⟩ := sample_reachable
  have hlawful := Mpsc.plain_lawful PortPacket
  exact ⟨hlawful, s, hs, hcommitted,
    (port_protocol_safe (.plain PortPacket) hlawful (fun _ => 1) s hs).1⟩

end Sample

end System

end Pureflow.Core
