import Pureflow.Core.Books

/-!
The port protocol run with the books of its calls.

The system keeps in addition the stream of message records the calls hand to the sink, and the
packets that are lost with a dropped receiver. Calls are made on the ports of a wiring, with the
sink attached to both sides. What a call on the channels adds to a history or to the stream it adds
to the book of its call, so a total over the one is a total over the other.
-/

namespace Pureflow.Core

open Pureflow.Types Pureflow.Lib

namespace PortCall

/-- A send on a declared port without edges. -/
def Unconnected : PortCall → Prop
  | .permitSend permit _ => permit.permits = []
  | .trySend outputs portId _ | .send outputs portId _ =>
    ∃ port, PortHandle.find outputs.ports portId = some port ∧ port.ends = []
  | _ => False

/-- Without edges a send of an accepted packet succeeds, unless it is cancelled. -/
def Succeeds (call : PortCall) (r : PortResult) : Prop :=
  call.Unconnected → call.Accepted →
    r = .sent (.ok ()) ∨ ∃ portId, r = .sent (.error (.cancelled portId))

def PollSucceeds (call : PortCall) (poll : Poll PortResult) : Prop :=
  ∀ r, poll = .ready r → call.Succeeds r

lemma permit_send_succeeds {permit : OutputPortSendPermit} {packet : PortPacket}
    (h : permit.validate packet = .ok ()) : (permit.send packet).Ends (· = .ok ()) := by
  simp only [OutputPortSendPermit.send, h, Prog.ends_bind]
  exact Prog.ends_of_forall (fun _ => Prog.ends_of_forall (fun _ =>
    Prog.ends_of_forall (fun _ => rfl) _) _) _

lemma tryReserve_unconnected {h : OutputPortHandle} (hends : h.ends = []) (metadataSink : Bool)
    (validator : Option OutputPacketValidator) (context : Option NodeContext) :
    (OutputPortHandle.tryReserve h metadataSink validator context).Ends
      (∃ permit, · = .ok permit) := by
  simp only [OutputPortHandle.tryReserve, hends, OutputPortHandle.tryReserve.go, Prog.ends_bind]
  exact Prog.ends_of_forall (fun _ => Prog.ends_of_forall (fun _ => ⟨_, rfl⟩) _) _

lemma validate_of_issued {outputs : PortsOut} {portId : PortId} {permit : OutputPortSendPermit}
    (h : IssuedBy outputs portId permit) {packet : PortPacket}
    (haccepts : outputs.Accepts portId packet) : permit.validate packet = .ok () := by
  unfold OutputPortSendPermit.validate
  rw [h.validator, h.port]
  cases hvalidator : outputs.validator with
  | none => rfl
  | some validator => exact haccepts validator hvalidator

lemma trySend_succeeds {outputs : PortsOut} {portId : PortId} {packet : PortPacket}
    {port : OutputPortHandle} (hport : PortHandle.find outputs.ports portId = some port)
    (hends : port.ends = []) (haccepts : outputs.Accepts portId packet) :
    (outputs.trySend portId packet).Ends (· = .ok ()) := by
  rw [PortsOut.trySend, Prog.ends_bind]
  have hreserve : (outputs.tryReserve portId).Ends (∃ permit, · = .ok permit) := by
    rw [PortsOut.tryReserve, hport]
    exact tryReserve_unconnected hends _ _ _
  refine (hreserve.and (portsOut_tryReserve_issued outputs portId)).mono fun answer hanswer => ?_
  obtain ⟨⟨permit, rfl⟩, hissued⟩ := hanswer
  exact permit_send_succeeds (validate_of_issued (hissued permit rfl) haccepts)

lemma send_succeeds {outputs : PortsOut} {portId : PortId} {packet : PortPacket}
    {port : OutputPortHandle} (hport : PortHandle.find outputs.ports portId = some port)
    (hends : port.ends = []) (haccepts : outputs.Accepts portId packet) :
    (outputs.send portId packet).Ends fun poll =>
      poll = .ready (.ok ()) ∨ ∃ other, poll = .ready (.error (.cancelled other)) := by
  rw [PortsOut.send, Prog.ends_bind]
  have hreserve : (outputs.reserve portId).Ends fun poll =>
      (∃ permit, poll = .ready (.ok permit)) ∨
        ∃ other, poll = .ready (.error (.cancelled other)) := by
    simp only [PortsOut.reserve, hport, OutputPortHandle.reserve, Prog.ends_bind]
    refine fun cancelled => Prog.ends_ret.mpr ?_
    cases cancelled with
    | true => exact .inr ⟨_, rfl⟩
    | false =>
      simp only [Bool.false_eq_true, if_false, Prog.ends_bind]
      refine (tryReserve_unconnected hends _ _ _).mono fun answer hanswer => ?_
      obtain ⟨permit, rfl⟩ := hanswer
      exact .inl ⟨permit, rfl⟩
  refine (hreserve.and (portsOut_reserve_issued outputs portId)).mono fun poll hpoll => ?_
  obtain ⟨⟨permit, rfl⟩ | ⟨other, rfl⟩, hissued⟩ := hpoll
  · simp only [Prog.ends_bind]
    refine (permit_send_succeeds
      (validate_of_issued (hissued permit rfl) haccepts)).mono fun answer hanswer => ?_
    exact .inl (by rw [hanswer])
  · exact .inr ⟨other, rfl⟩

lemma first_succeeds (call : PortCall) : call.first.Ends call.PollSucceeds := by
  by_cases hunconnected : call.Unconnected ∧ call.Accepted
  · obtain ⟨hunconnected, haccepted⟩ := hunconnected
    cases call with
    | permitSend permit packet =>
      rw [first, Prog.ends_bind]
      refine (permit_send_succeeds haccepted).mono fun answer h => ?_
      rintro r ⟨⟩ - -
      exact .inl (by rw [h])
    | trySend outputs portId packet =>
      obtain ⟨port, hport, hends⟩ := hunconnected
      rw [first, Prog.ends_bind]
      refine (trySend_succeeds hport hends haccepted).mono fun answer h => ?_
      rintro r ⟨⟩ - -
      exact .inl (by rw [h])
    | send outputs portId packet =>
      obtain ⟨port, hport, hends⟩ := hunconnected
      rw [first, Prog.ends_bind]
      refine (send_succeeds hport hends haccepted).mono fun poll h => ?_
      rcases h with rfl | ⟨other, rfl⟩
      · rintro r ⟨⟩ - -
        exact .inl rfl
      · rintro r ⟨⟩ - -
        exact .inr ⟨other, rfl⟩
    | _ => cases hunconnected
  · refine Prog.ends_of_forall (fun poll r _ h h' => ?_) _
    exact absurd ⟨h, h'⟩ hunconnected

lemma again_succeeds (call : PortCall) : call.again.Ends call.PollSucceeds := by
  cases call with
  | recv inputs portId => exact Prog.ends_of_forall (fun poll r _ h => by cases h) _
  | recvAny inputs => exact Prog.ends_of_forall (fun poll r _ h => by cases h) _
  | tryReserve outputs portId => exact first_succeeds (.tryReserve outputs portId)
  | reserve outputs portId => exact first_succeeds (.reserve outputs portId)
  | permitSend permit packet => exact first_succeeds (.permitSend permit packet)
  | permitAbort permit => exact first_succeeds (.permitAbort permit)
  | trySend outputs portId packet => exact first_succeeds (.trySend outputs portId packet)
  | send outputs portId packet => exact first_succeeds (.send outputs portId packet)
  | tryRecv inputs portId => exact first_succeeds (.tryRecv inputs portId)

/-- What holds where a poll of a call ends. -/
structure PollKept (call : PortCall) (poll : Poll PortResult) (b : Book) : Prop where
  told : call.PollTold poll b
  checked : call.PollChecked poll
  succeeds : call.PollSucceeds poll

lemma first_kept {call : PortCall} (hsink : call.Sinks) :
    Prog.Wp books call.first call.PollKept (.opening call.holds) :=
  (((first_told call hsink).and_ends (first_checked call)).and_ends (first_succeeds call)).mono
    fun _ _ h => ⟨h.1.1, h.1.2, h.2⟩

lemma again_kept {call : PortCall} (hsink : call.Sinks) :
    Prog.Wp books call.again call.PollKept (.opening call.holds) :=
  (((again_told call hsink).and_ends (again_checked call)).and_ends (again_succeeds call)).mono
    fun _ _ h => ⟨h.1.1, h.1.2, h.2⟩

/-- The inputs a call receives on. -/
def inputs? : PortCall → Option PortsIn
  | .tryRecv inputs _ | .recv inputs _ | .recvAny inputs => some inputs
  | _ => none

end PortCall

/-- A wiring: the outputs that are given out, all with the sink attached. The sender of a channel is
held once, by one port. -/
structure Wiring where
  given : PortsOut → Prop
  sink : ∀ outputs, given outputs → outputs.metadataSink = true
  nodup : ∀ outputs, given outputs → ∀ portId, (outputs.channels portId).Nodup
  owned : ∀ outputs outputs', given outputs → given outputs' → ∀ portId portId',
    ∀ c ∈ outputs.channels portId, c ∈ outputs'.channels portId' →
      outputs.channels portId = outputs'.channels portId'

namespace Wiring

variable {w : Wiring} {call : PortCall}

/-- A call on ports of the wiring, with the sink attached to both sides. -/
structure Attached (w : Wiring) (call : PortCall) : Prop where
  outputs : ∀ outputs ∈ call.outputs?, w.given outputs
  inputs : ∀ inputs ∈ call.inputs?, inputs.metadataSink = true

/-- A permit reserved on a port of the wiring. -/
def Permits (w : Wiring) (permit : OutputPortSendPermit) : Prop :=
  ∃ outputs portId, w.given outputs ∧ IssuedBy outputs portId permit

/-- An attached call whose permit is one of the wiring, too. -/
structure Serves (w : Wiring) (call : PortCall) : Prop extends Attached w call where
  permit : ∀ permit ∈ call.permit?, w.Permits permit

lemma Serves.sinks (h : w.Serves call) : call.Sinks := by
  have hpermit {permit : OutputPortSendPermit} (hpermit : w.Permits permit) :
      permit.metadataSink = true := by
    obtain ⟨outputs, portId, hgiven, hissued⟩ := hpermit
    rw [hissued.metadataSink]
    exact w.sink outputs hgiven
  cases call with
  | permitSend permit packet => exact hpermit (h.permit permit rfl)
  | permitAbort permit => exact hpermit (h.permit permit rfl)
  | tryRecv inputs portId => exact h.inputs inputs rfl
  | recv inputs portId => exact h.inputs inputs rfl
  | recvAny inputs => exact h.inputs inputs rfl
  | _ => exact w.sink _ (h.outputs _ rfl)

lemma Serves.channels (h : w.Serves call) {channels : List ℕ} {packet : PortPacket}
    (hsends : call.sends? = some (channels, packet)) :
    ∃ outputs portId, w.given outputs ∧ channels = outputs.channels portId := by
  cases call with
  | permitSend permit packet =>
    cases hsends
    obtain ⟨outputs, portId, hgiven, hissued⟩ := h.permit permit rfl
    exact ⟨outputs, portId, hgiven, hissued.permits⟩
  | trySend outputs portId packet =>
    cases hsends
    exact ⟨outputs, portId, h.outputs outputs rfl, rfl⟩
  | send outputs portId packet =>
    cases hsends
    exact ⟨outputs, portId, h.outputs outputs rfl, rfl⟩
  | _ => cases hsends

lemma Serves.issued (h : w.Serves call) {permit : OutputPortSendPermit}
    (hissued : call.Issued permit) : w.Permits permit := by
  cases call with
  | tryReserve outputs portId => exact ⟨outputs, portId, h.outputs outputs rfl, hissued⟩
  | reserve outputs portId => exact ⟨outputs, portId, h.outputs outputs rfl, hissued⟩
  | _ => cases hissued

end Wiring

/-- How many of the packets are on a channel. -/
def onChannel (c : ℕ) (packets : List (ℕ × PortPacket)) : ℕ := packets.countP (·.1 == c)

/-- A call in flight, with its book so far. -/
structure Recording where
  call : PortCall
  prog : PortM (Poll PortResult)
  book : Book

def Recording.forget (r : Recording) : Running := ⟨r.call, r.prog, r.book.account⟩

/-- A call that has returned, with its book. -/
structure Recorded where
  call : PortCall
  result : PortResult
  book : Book

def Recorded.forget (r : Recorded) : Returned := ⟨r.call, r.result, r.book.account⟩

/-- A message record in the stream, with the call that made it. -/
structure Entry where
  call : PortCall
  notice : Notice

/-- The port protocol with the books of its calls. `stream` lists the message records handed to the
sink, in their order; `discarded` the packets lost with a dropped receiver. -/
structure Traced (m : Mpsc PortPacket) where
  channels : ℕ → m.State
  committed : ℕ → List PortPacket
  received : ℕ → List PortPacket
  discarded : ℕ → List PortPacket
  receiverDropped : ℕ → Bool
  permits : List OutputPortSendPermit
  running : List Recording
  returned : List Recorded
  stream : List Entry

namespace Traced

variable {m : Mpsc PortPacket}

def initial (m : Mpsc PortPacket) (capacity : ℕ → ℕ) : Traced m where
  channels c := m.channel (capacity c)
  committed _ := []
  received _ := []
  discarded _ := []
  receiverDropped _ := false
  permits := []
  running := []
  returned := []
  stream := []

/-- The system without the records. -/
def system (t : Traced m) : System m where
  channels := t.channels
  committed := t.committed
  received := t.received
  receiverDropped := t.receiverDropped
  permits := t.permits
  running := t.running.map Recording.forget
  returned := t.returned.map Recorded.forget

/-- The packet a call commits to a channel that has lost its receiver. -/
def discards (receiverDropped : ℕ → Bool) (op : PortOp) : Option (ℕ × PortPacket) :=
  (System.commits op).filter (receiverDropped ·.1)

/-- What a call on the channels adds to the stream. -/
def entries (call : PortCall) (b : Book) (op : PortOp) : List Entry :=
  (op.message?.map fun message => ⟨call, b.account.received, message⟩).toList

/-- The steps of the port protocol, with what they record. -/
inductive Step (m : Mpsc PortPacket) : Traced m → Traced m → Prop
  | start {t : Traced m} (call : PortCall) {permits : List OutputPortSendPermit} :
    t.permits.Perm (call.permit?.toList ++ permits) →
    Step m t { t with
      permits := permits
      running := ⟨call, call.first, .opening call.holds⟩ :: t.running }
  | advance {t : Traced m} {before after : List Recording} {call : PortCall} {op : PortOp}
      {k : op.Answer → PortM (Poll PortResult)} {b : Book} {answer : op.Answer}
      {channels : ℕ → m.State} :
    t.running = before ++ ⟨call, .call op k, b⟩ :: after →
    System.Performs m op answer t.channels channels →
    Step m t { t with
      channels := channels
      committed := System.append t.committed (System.commits op)
      received := System.append t.received (System.receives op answer)
      discarded := System.append t.discarded (discards t.receiverDropped op)
      running := before ++ ⟨call, k answer, b.after op answer⟩ :: after
      stream := t.stream ++ entries call b op }
  | again {t : Traced m} {before after : List Recording} {call : PortCall} {b : Book} :
    t.running = before ++ ⟨call, .ret .pending, b⟩ :: after →
    Step m t { t with running := before ++ ⟨call, call.again, b⟩ :: after }
  | abandon {t : Traced m} {before after : List Recording} {call : PortCall} {b : Book} :
    t.running = before ++ ⟨call, .ret .pending, b⟩ :: after →
    Step m t { t with running := before ++ after }
  | finish {t : Traced m} {before after : List Recording} {call : PortCall} {b : Book}
      {result : PortResult} :
    t.running = before ++ ⟨call, .ret (.ready result), b⟩ :: after →
    Step m t { t with
      permits := result.permit?.toList ++ t.permits
      running := before ++ after
      returned := ⟨call, result, b⟩ :: t.returned }
  | dropSender {t : Traced m} (c : ℕ) {st : m.State} :
    m.dropSender (t.channels c) st →
    Step m t { t with channels := Function.update t.channels c st }
  | dropReceiver {t : Traced m} (c : ℕ) {st : m.State} :
    m.dropReceiver (t.channels c) st →
    Step m t { t with
      channels := Function.update t.channels c st
      discarded := Function.update t.discarded c
        (t.discarded c ++ (m.view (t.channels c)).queue)
      receiverDropped := Function.update t.receiverDropped c true }

section Forgetting

variable {t t' : Traced m} {before after : List Recording}

lemma running_forget {call : PortCall} {prog : PortM (Poll PortResult)} {b : Book}
    (hrun : t.running = before ++ ⟨call, prog, b⟩ :: after) :
    t.system.running = before.map Recording.forget ++
      ⟨call, prog, b.account⟩ :: after.map Recording.forget := by
  simp [system, hrun, Recording.forget]

lemma system_step (h : Step m t t') : System.Step m t.system t'.system := by
  cases h with
  | start call hperm => exact .start call hperm
  | advance hrun hperf =>
    simpa [system, Recording.forget, Book.after] using
      System.Step.advance (running_forget hrun) hperf
  | again hrun => simpa [system, Recording.forget] using System.Step.again (running_forget hrun)
  | abandon hrun => simpa [system] using System.Step.abandon (running_forget hrun)
  | finish hrun =>
    simpa [system, Recorded.forget] using System.Step.finish (running_forget hrun)
  | dropSender c hst => exact .dropSender c hst
  | dropReceiver c hst => exact .dropReceiver c hst

lemma exists_running {before after : List Running} {call : PortCall}
    {prog : PortM (Poll PortResult)} {g : Account}
    (hrun : t.system.running = before ++ ⟨call, prog, g⟩ :: after) :
    ∃ before' after' b, t.running = before' ++ ⟨call, prog, b⟩ :: after' ∧
      before = before'.map Recording.forget ∧ g = b.account ∧
      after = after'.map Recording.forget := by
  obtain ⟨before', tail, hrun', rfl, htail⟩ := List.map_eq_append_iff.mp hrun
  obtain ⟨⟨call', prog', b⟩, after', rfl, hr, rfl⟩ := List.map_eq_cons_iff.mp htail
  obtain ⟨rfl, rfl, rfl⟩ := Running.mk.inj hr
  exact ⟨before', after', b, hrun', rfl, rfl, rfl⟩

/-- **Every step of the port protocol can be recorded.** -/
theorem exists_step {s' : System m} (h : System.Step m t.system s') :
    ∃ t', Step m t t' ∧ t'.system = s' := by
  cases h with
  | start call hperm => exact ⟨_, .start call hperm, rfl⟩
  | advance hrun hperf =>
    obtain ⟨before', after', b, hrun', rfl, rfl, rfl⟩ := exists_running hrun
    exact ⟨_, .advance hrun' hperf, by simp [system, Recording.forget, Book.after]⟩
  | again hrun =>
    obtain ⟨before', after', b, hrun', rfl, rfl, rfl⟩ := exists_running hrun
    exact ⟨_, .again hrun', by simp [system, Recording.forget]⟩
  | abandon hrun =>
    obtain ⟨before', after', b, hrun', rfl, rfl, rfl⟩ := exists_running hrun
    exact ⟨_, .abandon hrun', by simp [system]⟩
  | finish hrun =>
    obtain ⟨before', after', b, hrun', rfl, rfl, rfl⟩ := exists_running hrun
    exact ⟨_, .finish hrun', by simp [system, Recorded.forget]⟩
  | dropSender c hst => exact ⟨_, .dropSender c hst, rfl⟩
  | dropReceiver c hst => exact ⟨_, .dropReceiver c hst, rfl⟩

end Forgetting

/-- The states reached by calls on the ports of a wiring. -/
def Reachable (m : Mpsc PortPacket) (w : Wiring) (capacity : ℕ → ℕ) (t : Traced m) : Prop :=
  Relation.ReflTransGen (fun t t' => Step m t t' ∧ ∀ r ∈ t'.running, w.Attached r.call)
    (initial m capacity) t

section Preservation

variable {w : Wiring} {capacity : ℕ → ℕ} {t t' : Traced m}

lemma Reachable.system (h : Reachable m w capacity t) : System.Reachable m capacity t.system := by
  induction h with
  | refl => exact .refl
  | tail _ hstep ih => exact .tail ih (system_step hstep.1)

/-- Permits and calls are of the wiring, and every call keeps its book. -/
structure Kept (w : Wiring) (t : Traced m) : Prop where
  permits : ∀ permit ∈ t.permits, w.Permits permit
  running : ∀ r ∈ t.running, w.Serves r.call ∧ Prog.Wp books r.prog r.call.PollKept r.book
  returned : ∀ r ∈ t.returned, w.Serves r.call ∧ r.call.PollKept (.ready r.result) r.book

lemma kept_initial : Kept w (initial m capacity) where
  permits permit h := by cases h
  running r h := by cases h
  returned r h := by cases h

lemma kept_step (h : Kept w t) (hstep : Step m t t')
    (hattached : ∀ r ∈ t'.running, w.Attached r.call) : Kept w t' := by
  cases hstep with
  | start call hperm =>
    have hpermits : ∀ permit ∈ call.permit?.toList ++ _, w.Permits permit :=
      fun permit hmem => h.permits permit (hperm.mem_iff.mpr hmem)
    refine ⟨fun permit hmem => hpermits permit (List.mem_append_right _ hmem), fun r hr => ?_,
      h.returned⟩
    rcases List.mem_cons.mp hr with rfl | hr
    · have hserves : w.Serves call := by
        refine ⟨hattached _ List.mem_cons_self, fun permit hpermit => ?_⟩
        exact hpermits permit (List.mem_append_left _ (Option.mem_toList.mpr hpermit))
      exact ⟨hserves, PortCall.first_kept hserves.sinks⟩
    · exact h.running r hr
  | @advance before after call op k b answer channels hrun hperf =>
    obtain ⟨⟨hserves, hwp⟩, hrest⟩ := System.forall_mem_middle.mp (hrun ▸ h.running)
    have hnext : Prog.Wp books (k answer) call.PollKept (b.after op answer) := hwp.2 answer trivial
    exact ⟨h.permits, System.forall_mem_middle.mpr ⟨⟨hserves, hnext⟩, hrest⟩, h.returned⟩
  | @again before after call b hrun =>
    obtain ⟨⟨hserves, hpending⟩, hrest⟩ := System.forall_mem_middle.mp (hrun ▸ h.running)
    -- a waiting call has an empty book, as before its first poll
    obtain ⟨hholds, rfl⟩ := hpending.told
    have hagain := PortCall.again_kept hserves.sinks
    rw [hholds] at hagain
    exact ⟨h.permits, System.forall_mem_middle.mpr ⟨⟨hserves, hagain⟩, hrest⟩, h.returned⟩
  | abandon hrun =>
    obtain ⟨-, hrest⟩ := System.forall_mem_middle.mp (hrun ▸ h.running)
    exact ⟨h.permits, hrest, h.returned⟩
  | finish hrun =>
    obtain ⟨⟨hserves, hready⟩, hrest⟩ := System.forall_mem_middle.mp (hrun ▸ h.running)
    refine ⟨fun permit hmem => ?_, hrest, fun r hr => ?_⟩
    · rcases List.mem_append.mp hmem with hmem | hmem
      · exact hserves.issued ((hready.checked _ rfl).permit permit (Option.mem_toList.mp hmem))
      · exact h.permits permit hmem
    · rcases List.mem_cons.mp hr with rfl | hr
      · exact ⟨hserves, hready⟩
      · exact h.returned r hr
  | dropSender c hst => exact ⟨h.permits, h.running, h.returned⟩
  | dropReceiver c hst => exact ⟨h.permits, h.running, h.returned⟩

lemma kept_of_reachable (h : Reachable m w capacity t) : Kept w t := by
  induction h with
  | refl => exact kept_initial
  | tail _ hstep ih => exact kept_step ih hstep.1 hstep.2

section Tallies

variable {M : Type} [AddCommMonoid M] {f : PortCall → Book → M}
  {total : (ℕ → List PortPacket) → (ℕ → List PortPacket) → List Entry → M}

/-- What the books of all calls add up to. -/
def tally (f : PortCall → Book → M) (t : Traced m) : M :=
  (t.running.map fun r => f r.call r.book).sum + (t.returned.map fun r => f r.call r.book).sum

/-- A total over what was committed, received and recorded, to which each call on the channels adds
what it adds to the book of its call. -/
structure Counts (f : PortCall → Book → M)
    (total : (ℕ → List PortPacket) → (ℕ → List PortPacket) → List Entry → M) : Prop where
  opening : ∀ call held, f call (.opening held) = 0
  initial : total (fun _ => []) (fun _ => []) [] = 0
  after : ∀ committed received stream call b op (answer : op.Answer), ∃ d,
    f call (b.after op answer) = f call b + d ∧
    total (System.append committed (System.commits op))
      (System.append received (System.receives op answer)) (stream ++ entries call b op) =
      total committed received stream + d

lemma tally_of_running {before after : List Recording} {r : Recording}
    (hrun : t.running = before ++ r :: after) :
    t.tally f = { t with running := before ++ after }.tally f + f r.call r.book := by
  simp only [tally, hrun, List.map_append, List.map_cons, List.sum_append, List.sum_cons]
  abel

/-- **A total stays what the books add up to.** -/
lemma total_step (hcounts : Counts f total) (hkept : Kept w t) (hstep : Step m t t')
    (h : total t.committed t.received t.stream = t.tally f) :
    total t'.committed t'.received t'.stream = t'.tally f := by
  cases hstep with
  | start call hperm => simpa [tally, hcounts.opening] using h
  | @advance before after call op k b answer channels hrun hperf =>
    obtain ⟨d, hbook, htotal⟩ := hcounts.after t.committed t.received t.stream call b op answer
    rw [tally_of_running hrun] at h
    rw [tally_of_running rfl]
    calc total _ _ _ = total t.committed t.received t.stream + d := htotal
      _ = _ + f call b + d := by rw [h]
      _ = _ + (f call b + d) := add_assoc _ _ _
      _ = _ := by rw [← hbook]; rfl
  | again hrun =>
    rw [tally_of_running hrun] at h
    rw [tally_of_running rfl]
    exact h
  | @abandon before after call b hrun =>
    obtain ⟨⟨-, hpending⟩, -⟩ := System.forall_mem_middle.mp (hrun ▸ hkept.running)
    obtain ⟨-, rfl⟩ := hpending.told
    rw [tally_of_running hrun, hcounts.opening, add_zero] at h
    exact h
  | finish hrun =>
    rw [h, tally_of_running hrun]
    simp only [tally, List.map_cons, List.sum_cons]
    abel
  | dropSender c hst => exact h
  | dropReceiver c hst => exact h

lemma total_of_reachable (hcounts : Counts f total) (h : Reachable m w capacity t) :
    total t.committed t.received t.stream = t.tally f := by
  induction h with
  | refl => simpa [tally, initial] using hcounts.initial
  | tail hbefore hstep ih =>
    exact total_step hcounts (kept_of_reachable hbefore) hstep.1 ih

lemma length_append_history (history : ℕ → List PortPacket) (packet? : Option (ℕ × PortPacket))
    (c : ℕ) : (System.append history packet? c).length =
      (history c).length + onChannel c packet?.toList := by
  rcases packet? with _ | ⟨d, packet⟩
  · rfl
  · by_cases hd : d = c
    · subst hd
      simp [System.append, onChannel]
    · rw [System.append_some_of_ne (Ne.symm hd)]
      simp [onChannel, hd]

lemma committed_after (g : Account) (op : PortOp) (answer : op.Answer) :
    (g.after op answer).committed = g.committed ++ (System.commits op).toList := by
  cases op with
  | permitSend c packet => rfl
  | tryReserve c => rcases answer with err | ⟨⟩ <;> exact (List.append_nil _).symm
  | tryRecv c => rcases answer with err | packet <;> exact (List.append_nil _).symm
  | pollRecv c => rcases answer with (err | packet) | _ <;> exact (List.append_nil _).symm
  | _ => exact (List.append_nil _).symm

lemma received_after (g : Account) (op : PortOp) (answer : op.Answer) :
    (g.after op answer).received = g.received ++ (System.receives op answer).toList := by
  cases op with
  | tryRecv c =>
    rcases answer with err | packet
    · exact (List.append_nil _).symm
    · rfl
  | pollRecv c =>
    rcases answer with (err | packet) | _
    · exact (List.append_nil _).symm
    · rfl
    · exact (List.append_nil _).symm
  | tryReserve c => rcases answer with err | ⟨⟩ <;> exact (List.append_nil _).symm
  | _ => exact (List.append_nil _).symm

lemma counts_committed (c : ℕ) :
    Counts (fun _ b => onChannel c b.account.committed) fun committed _ _ =>
      (committed c).length where
  opening _ _ := rfl
  initial := rfl
  after committed _ _ _ b op answer := by
    refine ⟨onChannel c (System.commits op).toList, ?_, length_append_history _ _ c⟩
    rw [Book.after, committed_after]
    exact List.countP_append

lemma counts_received (c : ℕ) :
    Counts (fun _ b => onChannel c b.account.received) fun _ received _ =>
      (received c).length where
  opening _ _ := rfl
  initial := rfl
  after _ received _ _ b op answer := by
    refine ⟨onChannel c (System.receives op answer).toList, ?_, length_append_history _ _ c⟩
    rw [Book.after, received_after]
    exact List.countP_append

lemma counts_stream :
    Counts (fun call b => (b.told.map (Entry.mk call) : Multiset Entry)) fun _ _ stream =>
      (stream : Multiset Entry) where
  opening _ _ := rfl
  initial := rfl
  after _ _ stream call b op answer := by
    refine ⟨(entries call b op : Multiset Entry), ?_, ?_⟩
    · rw [Multiset.coe_add, Book.after, List.map_append, entries]
      cases op.message? <;> rfl
    · exact (Multiset.coe_add _ _).symm

end Tallies

section Discarding

/-- What is lost with the receiver: nothing before it is dropped, and then all that was committed and
not received. -/
def Lost (t : Traced m) : Prop :=
  ∀ c, (t.receiverDropped c = false → t.discarded c = []) ∧
    (t.receiverDropped c = true → t.committed c = t.received c ++ t.discarded c)

lemma queued_of_receives (hm : m.Lawful) {op : PortOp} {answer : op.Answer}
    {chs chs' : ℕ → m.State} (hperf : System.Performs m op answer chs chs') {c : ℕ}
    {packet : PortPacket} (h : System.receives op answer = some (c, packet)) :
    (m.view (chs c)).queue.head? = some packet := by
  cases hperf with
  | @tryRecv _ d answer st hst =>
    rcases answer with err | packet'
    · cases h
    · cases h
      exact (hm.recv_ok hst).1
  | @pollRecv _ d answer st hst =>
    rcases answer with (err | packet') | _
    · cases h
    · cases h
      exact (hm.poll_ok hst).1
    · cases h
  | _ => cases h

/-- Without a receiver nothing is received, and what is committed is lost. -/
lemma lost_advance (hm : m.Lawful) (hinv : System.Inv capacity t.system) {op : PortOp}
    {answer : op.Answer} {channels : ℕ → m.State}
    (hperf : System.Performs m op answer t.channels channels) (h : Lost t) (c : ℕ) :
    (t.receiverDropped c = false →
      System.append t.discarded (discards t.receiverDropped op) c = []) ∧
    (t.receiverDropped c = true →
      System.append t.committed (System.commits op) c =
        System.append t.received (System.receives op answer) c ++
          System.append t.discarded (discards t.receiverDropped op) c) := by
  constructor
  · intro hc
    rw [← (h c).1 hc]
    cases hop : discards t.receiverDropped op with
    | none => rfl
    | some delivery =>
      obtain ⟨d, packet⟩ := delivery
      have hd : t.receiverDropped d = true := (Option.filter_eq_some_iff.mp hop).2
      refine System.append_some_of_ne fun hcd => ?_
      rw [← hcd, hc] at hd
      cases hd
  · intro hc
    have hreceived : System.append t.received (System.receives op answer) c = t.received c := by
      cases hop : System.receives op answer with
      | none => rfl
      | some delivery =>
        obtain ⟨d, packet⟩ := delivery
        refine System.append_some_of_ne fun hcd => ?_
        subst hcd
        have halive : (m.view (t.channels c)).receiverAlive = !t.receiverDropped c := hinv.alive c
        have hdead : (m.view (t.channels c)).queue = [] :=
          (hinv.sound c).dead (by rw [System.view, system, halive, hc]; rfl)
        have hhead := queued_of_receives hm hperf hop
        rw [hdead] at hhead
        cases hhead
    rw [hreceived]
    cases hop : System.commits op with
    | none =>
      rw [discards, hop]
      exact (h c).2 hc
    | some delivery =>
      obtain ⟨d, packet⟩ := delivery
      by_cases hcd : c = d
      · subst hcd
        have hdiscards : discards t.receiverDropped op = some (c, packet) := by
          rw [discards, hop, Option.filter_some, if_pos hc]
        simp [hdiscards, System.append, (h c).2 hc]
      · rw [System.append_some_of_ne hcd, (h c).2 hc]
        congr 1
        rw [discards, hop, Option.filter]
        split
        · exact (System.append_some_of_ne hcd).symm
        · rfl

/-- What was committed was received, is lost or is queued. -/
lemma committed_split (hinv : System.Inv capacity t.system) (h : Lost t) (c : ℕ) :
    t.committed c = t.received c ++ (t.discarded c ++ (m.view (t.channels c)).queue) := by
  have halive : (m.view (t.channels c)).receiverAlive = !t.receiverDropped c := hinv.alive c
  have hsound := hinv.sound c
  cases hc : t.receiverDropped c with
  | true =>
    have hdead : (m.view (t.channels c)).queue = [] := hsound.dead (halive.trans (by rw [hc]; rfl))
    rw [hdead, List.append_nil]
    exact (h c).2 hc
  | false =>
    rw [(h c).1 hc, List.nil_append]
    exact hsound.alive (halive.trans (by rw [hc]; rfl))

lemma lost_step (hm : m.Lawful) (hinv : System.Inv capacity t.system) (h : Lost t)
    (hstep : Step m t t') : Lost t' := by
  cases hstep with
  | advance hrun hperf => exact lost_advance hm hinv hperf h
  | dropReceiver c hst =>
    intro d
    rcases eq_or_ne d c with rfl | hd
    · refine ⟨fun hdropped => ?_, fun _ => ?_⟩
      · simp at hdropped
      · -- what was queued is lost, after what was lost before
        simpa using committed_split hinv h d
    · simpa [hd] using h d
  | _ => exact h

lemma lost_of_reachable (hm : m.Lawful) (h : Reachable m w capacity t) : Lost t := by
  induction h with
  | refl => exact fun c => ⟨fun _ => rfl, fun _ => rfl⟩
  | tail hbefore hstep ih =>
    have hreachable : Reachable m w capacity _ := hbefore
    exact lost_step hm (System.inv_of_reachable hm hreachable.system) ih hstep.1

end Discarding

end Preservation

end Traced

end Pureflow.Core
