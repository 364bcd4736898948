import Pureflow.Core.Protocol

/-!
Guarded ports: what reaches a channel is what the validators in front of it let through.

A packet is committed by a send that succeeds in the end, and a send succeeds only if the
validator of its outputs, or of its permit, accepts the packet. A permit carries the validator,
the port and the channels of the outputs it was reserved on, however late it is used.
-/

namespace Pureflow.Core

open Pureflow.Types Pureflow.Lib

section Answers

/-- What a reservation on a handle answers: a permit for the channels with the sink and the validator
it was given, or an error, but not that the port is unknown. -/
def Issues (portId : PortId) (metadataSink : Bool) (validator : Option OutputPacketValidator)
    (channels : List ℕ) : Except PortSendError OutputPortSendPermit → Prop
  | .ok permit => permit.portId = portId ∧ permit.metadataSink = metadataSink ∧
      permit.validator = validator ∧ permit.permits = channels
  | .error err => ∀ other, err ≠ .unknownPort other

lemma tryReserve_go_issues (h : OutputPortHandle) (metadataSink : Bool)
    (validator : Option OutputPacketValidator) (context : Option NodeContext)
    (senders : List Sender) (permits : List ℕ) :
    (OutputPortHandle.tryReserve.go h metadataSink validator context senders permits).Ends
      (Issues h.portId metadataSink validator (permits ++ senders.map Sender.channel)) := by
  induction senders generalizing permits with
  | nil =>
    rw [OutputPortHandle.tryReserve.go, Prog.ends_bind]
    refine Prog.ends_of_forall (fun _ => ⟨rfl, rfl, rfl, ?_⟩) _
    rw [List.map_nil, List.append_nil]
  | cons sender rest ih =>
    rw [OutputPortHandle.tryReserve.go, Prog.ends_bind]
    refine fun answer => Prog.ends_ret.mpr ?_
    rcases answer with err | ⟨⟩
    · have hfails : Issues h.portId metadataSink validator (permits ++ (sender :: rest).map Sender.channel)
          (.error (h.mapSendError err)) := by
        intro other
        cases err with
        | disconnected => simp [OutputPortHandle.mapSendError]
        | cancelled => simp [OutputPortHandle.mapSendError]
        | full => simp [OutputPortHandle.mapSendError]
      have hdrop : (do dropPermits permits; return .error (h.mapSendError err) : PortM _).Ends
          (Issues h.portId metadataSink validator (permits ++ (sender :: rest).map Sender.channel)) := by
        rw [Prog.ends_bind]
        exact Prog.ends_of_forall (fun _ => hfails) _
      by_cases hfull : err = .full
      · simp only [hfull, if_true] at hdrop ⊢
        rw [Prog.ends_bind]
        exact Prog.ends_of_forall (fun _ => hdrop) _
      · simpa only [hfull, if_false] using hdrop
    · simpa using ih (permits ++ [sender.channel])

lemma tryReserve_issues (h : OutputPortHandle) (metadataSink : Bool)
    (validator : Option OutputPacketValidator) (context : Option NodeContext) :
    (OutputPortHandle.tryReserve h metadataSink validator context).Ends
      (Issues h.portId metadataSink validator (h.ends.map Sender.channel)) := by
  rw [OutputPortHandle.tryReserve, Prog.ends_bind]
  exact Prog.ends_of_forall (fun _ => tryReserve_go_issues h metadataSink validator context _ []) _

lemma reserve_issues (h : OutputPortHandle) (metadataSink : Bool)
    (validator : Option OutputPacketValidator) (context : Option NodeContext) :
    (OutputPortHandle.reserve h metadataSink validator context).Ends fun poll =>
      ∀ answer, poll = .ready answer →
        Issues h.portId metadataSink validator (h.ends.map Sender.channel) answer := by
  simp only [OutputPortHandle.reserve, Prog.ends_bind]
  refine fun cancelled => Prog.ends_ret.mpr ?_
  cases cancelled with
  | true =>
    rintro answer ⟨⟩ other
    simp
  | false =>
    simp only [Bool.false_eq_true, if_false, Prog.ends_bind]
    refine (tryReserve_issues h metadataSink validator context).mono fun r hr => ?_
    rcases r with err | permit
    · cases err with
      | full portId => rintro answer ⟨⟩
      | _ =>
        rintro answer ⟨⟩
        exact hr
    · rintro answer ⟨⟩
      exact hr

lemma permit_send_accepted (permit : OutputPortSendPermit) (packet : PortPacket) :
    (permit.send packet).Ends fun answer =>
      answer = .ok () → permit.validate packet = .ok () := by
  unfold OutputPortSendPermit.send
  split
  · rw [Prog.ends_bind]
    refine Prog.ends_of_forall (fun _ h => ?_) _
    cases h
  · next h => exact Prog.ends_of_forall (fun _ _ => h) _

end Answers

section Calls

/-- The validator of the outputs, if there is one, accepts the packet for the port. -/
def PortsOut.Accepts (outputs : PortsOut) (portId : PortId) (packet : PortPacket) : Prop :=
  ∀ validator ∈ outputs.validator, validator portId packet = .ok ()

/-- A permit reserved on a port of some outputs. -/
structure IssuedBy (outputs : PortsOut) (portId : PortId) (permit : OutputPortSendPermit) :
    Prop where
  port : permit.portId = portId
  metadataSink : permit.metadataSink = outputs.metadataSink
  validator : permit.validator = outputs.validator
  permits : permit.permits = outputs.channels portId

lemma IssuedBy.accepts {outputs : PortsOut} {portId : PortId} {permit : OutputPortSendPermit}
    (h : IssuedBy outputs portId permit) {packet : PortPacket}
    (hvalid : permit.validate packet = .ok ()) : outputs.Accepts portId packet := by
  intro validator hvalidator
  rw [← h.validator] at hvalidator
  rw [OutputPortSendPermit.validate, hvalidator, h.port] at hvalid
  exact hvalid

lemma issuedBy_of_issues {outputs : PortsOut} {portId : PortId} {port : OutputPortHandle}
    (hport : PortHandle.find outputs.ports portId = some port) {permit : OutputPortSendPermit}
    (h : Issues port.portId outputs.metadataSink outputs.validator (port.ends.map Sender.channel) (.ok permit)) :
    IssuedBy outputs portId permit := by
  have hportId : port.portId = portId := by simpa using List.find?_some hport
  obtain ⟨hid, hsink, hvalidator, hpermits⟩ := h
  refine ⟨hid.trans hportId, hsink, hvalidator, ?_⟩
  rw [hpermits, PortsOut.channels, hport]
  rfl

lemma portsOut_tryReserve_issued (outputs : PortsOut) (portId : PortId) :
    (outputs.tryReserve portId).Ends fun answer =>
      ∀ permit, answer = .ok permit → IssuedBy outputs portId permit := by
  unfold PortsOut.tryReserve
  cases hport : PortHandle.find outputs.ports portId with
  | none =>
    rintro permit ⟨⟩
  | some port =>
    refine (tryReserve_issues port _ _ _).mono fun answer hanswer permit h => ?_
    subst h
    exact issuedBy_of_issues hport hanswer

lemma portsOut_reserve_issued (outputs : PortsOut) (portId : PortId) :
    (outputs.reserve portId).Ends fun poll =>
      ∀ permit, poll = .ready (.ok permit) → IssuedBy outputs portId permit := by
  unfold PortsOut.reserve
  cases hport : PortHandle.find outputs.ports portId with
  | none =>
    rintro permit ⟨⟩
  | some port =>
    refine (reserve_issues port _ _ _).mono fun poll hpoll permit h => ?_
    exact issuedBy_of_issues hport (hpoll _ h)

lemma trySend_accepted (outputs : PortsOut) (portId : PortId) (packet : PortPacket) :
    (outputs.trySend portId packet).Ends fun answer =>
      answer = .ok () → outputs.Accepts portId packet := by
  rw [PortsOut.trySend, Prog.ends_bind]
  refine (portsOut_tryReserve_issued outputs portId).mono fun answer hanswer => ?_
  rcases answer with err | permit
  · rintro ⟨⟩
  · refine (permit_send_accepted permit packet).mono fun sent hsent hok => ?_
    exact (hanswer permit rfl).accepts (hsent hok)

lemma send_accepted (outputs : PortsOut) (portId : PortId) (packet : PortPacket) :
    (outputs.send portId packet).Ends fun poll =>
      poll = .ready (.ok ()) → outputs.Accepts portId packet := by
  rw [PortsOut.send, Prog.ends_bind]
  refine (portsOut_reserve_issued outputs portId).mono fun poll hpoll => ?_
  rcases poll with (err | permit) | _
  · rintro ⟨⟩
  · simp only [Prog.ends_bind]
    refine (permit_send_accepted permit packet).mono fun sent hsent hok => ?_
    cases hok
    exact (hpoll permit rfl).accepts (hsent rfl)
  · rintro ⟨⟩

namespace PortCall

/-- The outputs a call sends or reserves on. -/
def outputs? : PortCall → Option PortsOut
  | .tryReserve outputs _ | .reserve outputs _ => some outputs
  | .trySend outputs _ _ | .send outputs _ _ => some outputs
  | _ => none

/-- The permit is one that the call can return. -/
def Issued : PortCall → OutputPortSendPermit → Prop
  | .tryReserve outputs portId, permit => IssuedBy outputs portId permit
  | .reserve outputs portId, permit => IssuedBy outputs portId permit
  | _, _ => False

/-- The packet of a send is accepted by the validator of its outputs or of its permit. -/
def Accepted : PortCall → Prop
  | .permitSend permit packet => permit.validate packet = .ok ()
  | .trySend outputs portId packet => outputs.Accepts portId packet
  | .send outputs portId packet => outputs.Accepts portId packet
  | _ => True

/-- What is checked of the result of a call. -/
structure Checked (call : PortCall) (r : PortResult) : Prop where
  permit : ∀ permit ∈ r.permit?, call.Issued permit
  sent : r = .sent (.ok ()) → call.Accepted

def PollChecked (call : PortCall) (poll : Poll PortResult) : Prop :=
  ∀ r, poll = .ready r → call.Checked r

lemma checked_reserved {call : PortCall} {answer : Except PortSendError OutputPortSendPermit}
    (h : ∀ permit, answer = .ok permit → call.Issued permit) : call.Checked (.reserved answer) := by
  refine ⟨fun permit hpermit => h permit ?_, nofun⟩
  rcases answer with err | permit'
  · cases hpermit
  · cases hpermit
    rfl

lemma checked_sent {call : PortCall} {answer : Except PortSendError Unit}
    (h : answer = .ok () → call.Accepted) : call.Checked (.sent answer) := by
  constructor
  · intro permit hpermit
    cases hpermit
  · intro hsent
    cases hsent
    exact h rfl

lemma checked_other {r : PortResult} (call : PortCall) (hpermit : r.permit? = none)
    (hsent : r ≠ .sent (.ok ())) : call.Checked r := by
  refine ⟨fun permit h => ?_, fun h => absurd h hsent⟩
  rw [hpermit] at h
  cases h

lemma checked_received (call : PortCall) (answer : Except PortRecvError (Option PortPacket)) :
    call.Checked (.received answer) :=
  checked_other call rfl nofun

lemma checked_receivedAny (call : PortCall)
    (answer : Except PortRecvError (Option (PortId × PortPacket))) :
    call.Checked (.receivedAny answer) :=
  checked_other call rfl nofun

lemma pollChecked_ready {call : PortCall} {r : PortResult} (h : call.Checked r) :
    call.PollChecked (.ready r) := by
  rintro r' ⟨⟩
  exact h

lemma pollChecked_map {α : Type} {call : PortCall} {result : α → PortResult} {poll : Poll α}
    (h : ∀ answer, poll = .ready answer → call.Checked (result answer)) :
    call.PollChecked (poll.map result) := by
  rcases poll with answer | _
  · exact pollChecked_ready (h answer rfl)
  · rintro r ⟨⟩

/-- **Every call checks its result**, whatever the answers it gets. -/
theorem first_checked (call : PortCall) : call.first.Ends call.PollChecked := by
  cases call with
  | tryReserve outputs portId =>
    rw [first, Prog.ends_bind]
    exact (portsOut_tryReserve_issued outputs portId).mono fun answer h =>
      pollChecked_ready (checked_reserved h)
  | reserve outputs portId =>
    rw [first, Prog.ends_bind]
    refine (portsOut_reserve_issued outputs portId).mono fun poll h => pollChecked_map ?_
    rintro answer rfl
    exact checked_reserved fun permit hpermit => h permit (by rw [hpermit])
  | permitSend permit packet =>
    rw [first, Prog.ends_bind]
    exact (permit_send_accepted permit packet).mono fun answer h =>
      pollChecked_ready (checked_sent h)
  | permitAbort permit =>
    rw [first, Prog.ends_bind]
    have hsent : PortResult.aborted ≠ .sent (.ok ()) := by
      intro h
      cases h
    have haborted : (permitAbort permit).Checked .aborted := checked_other _ rfl hsent
    exact Prog.ends_of_forall (fun _ => pollChecked_ready haborted) _
  | trySend outputs portId packet =>
    rw [first, Prog.ends_bind]
    exact (trySend_accepted outputs portId packet).mono fun answer h =>
      pollChecked_ready (checked_sent h)
  | send outputs portId packet =>
    rw [first, Prog.ends_bind]
    refine (send_accepted outputs portId packet).mono fun poll h => pollChecked_map ?_
    rintro answer rfl
    exact checked_sent fun hok => h (by rw [hok])
  | tryRecv inputs portId =>
    rw [first, Prog.ends_bind]
    exact Prog.ends_of_forall (fun answer => pollChecked_ready (checked_received _ answer)) _
  | recv inputs portId =>
    rw [first, Prog.ends_bind]
    exact Prog.ends_of_forall
      (fun poll => pollChecked_map fun answer _ => checked_received _ answer) _
  | recvAny inputs =>
    rw [first, Prog.ends_bind]
    exact Prog.ends_of_forall
      (fun poll => pollChecked_map fun answer _ => checked_receivedAny _ answer) _

theorem again_checked (call : PortCall) : call.again.Ends call.PollChecked := by
  cases call with
  | recv inputs portId =>
    simp only [again]
    cases PortHandle.find inputs.ports portId with
    | none => exact pollChecked_ready (checked_received _ _)
    | some port =>
      rw [Prog.ends_bind]
      exact Prog.ends_of_forall
        (fun poll => pollChecked_map fun answer _ => checked_received _ answer) _
  | recvAny inputs =>
    rw [again, Prog.ends_bind]
    exact Prog.ends_of_forall
      (fun poll => pollChecked_map fun answer _ => checked_receivedAny _ answer) _
  | tryReserve outputs portId => exact first_checked (.tryReserve outputs portId)
  | reserve outputs portId => exact first_checked (.reserve outputs portId)
  | permitSend permit packet => exact first_checked (.permitSend permit packet)
  | permitAbort permit => exact first_checked (.permitAbort permit)
  | trySend outputs portId packet => exact first_checked (.trySend outputs portId packet)
  | send outputs portId packet => exact first_checked (.send outputs portId packet)
  | tryRecv inputs portId => exact first_checked (.tryRecv inputs portId)

end PortCall

end Calls

section Ends

/-- Some answer to every call. -/
def PortOp.someAnswer : (op : PortOp) → op.Answer
  | .tryReserve _ => .ok ()
  | .permitSend _ _ => ()
  | .permitAbort _ => ()
  | .tryRecv _ => .error .empty
  | .pollRecv _ => .pending
  | .len _ => (0 : ℕ)
  | .isCancelled => false
  | .record _ => .ok ()

lemma committed_subset_after (g : Account) (op : PortOp) (answer : op.Answer) :
    g.committed ⊆ (g.after op answer).committed := by
  cases op with
  | permitSend c packet => exact List.subset_append_left _ _
  | tryReserve c => rcases answer with err | ⟨⟩ <;> exact List.Subset.refl _
  | tryRecv c => rcases answer with err | packet <;> exact List.Subset.refl _
  | pollRecv c => rcases answer with (err | packet) | _ <;> exact List.Subset.refl _
  | _ => exact List.Subset.refl _

/-- **A program can end**, and then what holds of all its ends holds, with all that it had
committed. -/
lemma exists_end {α : Type} {p : PortM α} {Q : α → Account → Prop} {R : α → Prop} {g : Account}
    (hQ : Prog.Wp ledger p Q g) (hR : p.Ends R) :
    ∃ a g', Q a g' ∧ R a ∧ g.committed ⊆ g'.committed := by
  induction p generalizing g with
  | ret a => exact ⟨a, g, hQ, hR, List.Subset.refl _⟩
  | call op k ih =>
    obtain ⟨a, g', hQ', hR', hsub⟩ := ih op.someAnswer (hQ.2 _ trivial) (hR _)
    exact ⟨a, g', hQ', hR', List.Subset.trans (committed_subset_after g op _) hsub⟩

end Ends

namespace System

variable {m : Mpsc PortPacket} {capacity : ℕ → ℕ} {s s' : System m}

/-- The states reached by runs in which every call is made on outputs that were given out. -/
def ReachableOn (m : Mpsc PortPacket) (given : PortsOut → Prop) (capacity : ℕ → ℕ) (s : System m) :
    Prop :=
  Relation.ReflTransGen (fun s s' => Step m s s' ∧
    ∀ r ∈ s'.running, ∀ outputs ∈ r.call.outputs?, given outputs) (initial m capacity) s

lemma ReachableOn.reachable {given : PortsOut → Prop} (h : ReachableOn m given capacity s) :
    Reachable m capacity s := by
  induction h with
  | refl => exact .refl
  | tail _ hstep ih => exact .tail ih hstep.1

section Guarding

variable (Good : ℕ → PortPacket → Prop)

/-- The validator of the outputs lets only good packets on their channels. -/
def Guards (outputs : PortsOut) : Prop :=
  ∀ portId, ∀ c ∈ outputs.channels portId, ∀ packet, outputs.Accepts portId packet → Good c packet

/-- The validator of a permit lets only good packets on its channels. -/
def GuardedPermit (permit : OutputPortSendPermit) : Prop :=
  ∀ c ∈ permit.permits, ∀ packet, permit.validate packet = .ok () → Good c packet

/-- What a call sends on or with is guarded. -/
structure GuardedCall (call : PortCall) : Prop where
  outputs : ∀ outputs ∈ call.outputs?, Guards Good outputs
  permit : ∀ permit ∈ call.permit?, GuardedPermit Good permit

/-- Permits and calls are guarded, calls in flight will check their results and calls that returned
did, and what was committed is good. -/
structure Guarded (s : System m) : Prop where
  permits : ∀ permit ∈ s.permits, GuardedPermit Good permit
  running : ∀ r ∈ s.running, GuardedCall Good r.call ∧ r.prog.Ends r.call.PollChecked
  returned : ∀ r ∈ s.returned, r.call.Checked r.result
  committed : ∀ c, ∀ packet ∈ s.committed c, Good c packet

variable {Good}

lemma guardedPermit_of_issued {call : PortCall} {permit : OutputPortSendPermit}
    (hcall : GuardedCall Good call) (h : call.Issued permit) : GuardedPermit Good permit := by
  intro c hc packet hvalid
  cases call with
  | tryReserve outputs portId =>
    have hissued : IssuedBy outputs portId permit := h
    rw [hissued.permits] at hc
    exact hcall.outputs outputs rfl portId c hc packet (hissued.accepts hvalid)
  | reserve outputs portId =>
    have hissued : IssuedBy outputs portId permit := h
    rw [hissued.permits] at hc
    exact hcall.outputs outputs rfl portId c hc packet (hissued.accepts hvalid)
  | _ => cases h

lemma good_of_accepted {call : PortCall} (hcall : GuardedCall Good call) (h : call.Accepted)
    {delivery : ℕ × PortPacket} (hmem : delivery ∈ call.deliveries) :
    Good delivery.1 delivery.2 := by
  cases call with
  | permitSend permit packet =>
    obtain ⟨c, hc, rfl⟩ := List.mem_map.mp hmem
    exact hcall.permit permit rfl c hc packet h
  | trySend outputs portId packet =>
    obtain ⟨c, hc, rfl⟩ := List.mem_map.mp hmem
    exact hcall.outputs outputs rfl portId c hc packet h
  | send outputs portId packet =>
    obtain ⟨c, hc, rfl⟩ := List.mem_map.mp hmem
    exact hcall.outputs outputs rfl portId c hc packet h
  | _ => cases hmem

/-- **A call in flight commits only what is accepted**: in the end it has committed what it
delivers, and then the packet was accepted. -/
lemma accepted_of_committed {call : PortCall} {p : PortM (Poll PortResult)} {g : Account}
    (hends : p.Ends call.PollChecked) (hwp : Prog.Wp ledger p (PollSettles call) g)
    {delivery : ℕ × PortPacket} (hmem : delivery ∈ g.committed) :
    call.Accepted ∧ delivery ∈ call.deliveries := by
  obtain ⟨poll, g', hsettles, hchecked, hsub⟩ := exists_end hwp hends
  have hend := hsub hmem
  rcases poll with result | _
  · have hcommitted : g'.committed = result.deliveries call := hsettles.committed
    rw [hcommitted] at hend
    unfold PortResult.deliveries at hend
    split at hend
    · exact ⟨(hchecked _ rfl).sent rfl, hend⟩
    · cases hend
  · obtain ⟨-, rfl⟩ := hsettles
    cases hend

lemma mem_append_commits {op : PortOp} {history : ℕ → List PortPacket} {c : ℕ} {packet : PortPacket}
    (h : packet ∈ append history (commits op) c) :
    packet ∈ history c ∨ commits op = some (c, packet) := by
  cases hop : commits op with
  | none =>
    rw [hop] at h
    exact .inl h
  | some delivery =>
    obtain ⟨d, sent⟩ := delivery
    rw [hop] at h
    by_cases hc : c = d
    · subst hc
      simp only [append, Function.update_self, List.mem_append, List.mem_singleton] at h
      rcases h with h | rfl
      · exact .inl h
      · exact .inr rfl
    · rw [append_some_of_ne hc] at h
      exact .inl h

lemma committed_of_commits (g : Account) {op : PortOp} (answer : op.Answer)
    {delivery : ℕ × PortPacket} (h : commits op = some delivery) :
    delivery ∈ (g.after op answer).committed := by
  cases op with
  | permitSend c packet =>
    cases h
    exact List.mem_append_right _ List.mem_cons_self
  | _ => cases h

lemma guarded_initial : Guarded Good (initial m capacity) where
  permits permit h := by cases h
  running r h := by cases h
  returned r h := by cases h
  committed c packet h := by cases h

/-- **Every step keeps the channels guarded**, if the calls in flight are made on guarded outputs. -/
theorem guarded_step (hm : m.Lawful) (hinv : Inv capacity s) (h : Guarded Good s)
    (hstep : Step m s s')
    (hgiven : ∀ r ∈ s'.running, ∀ outputs ∈ r.call.outputs?, Guards Good outputs) :
    Guarded Good s' := by
  have hinv' : Inv capacity s' := inv_step hm hinv hstep
  cases hstep with
  | start call hperm =>
    have hpermits : ∀ permit ∈ call.permit?.toList ++ _, GuardedPermit Good permit :=
      fun permit hmem => h.permits permit (hperm.mem_iff.mpr hmem)
    refine ⟨fun permit hmem => hpermits permit (List.mem_append_right _ hmem), fun r hr => ?_,
      h.returned, h.committed⟩
    rcases List.mem_cons.mp hr with rfl | hr
    · refine ⟨⟨hgiven _ List.mem_cons_self, fun permit hpermit => ?_⟩, call.first_checked⟩
      exact hpermits permit (List.mem_append_left _ (Option.mem_toList.mpr hpermit))
    · exact h.running r hr
  | @advance before after call op k g answer channels hrun hperf =>
    obtain ⟨⟨hcall, hends⟩, hrest⟩ := forall_mem_middle.mp (hrun ▸ h.running)
    have hnext : Prog.Ends call.PollChecked (k answer) := hends answer
    have hwp : Prog.Wp ledger (k answer) (PollSettles call) (g.after op answer) :=
      (forall_mem_middle.mp hinv'.running).1
    refine ⟨h.permits, forall_mem_middle.mpr ⟨⟨hcall, hnext⟩, hrest⟩, h.returned,
      fun c packet hmem => ?_⟩
    rcases mem_append_commits hmem with hmem | hmem
    · exact h.committed c packet hmem
    · -- the account of the call has the packet, too
      obtain ⟨haccepted, hdelivery⟩ :=
        accepted_of_committed hnext hwp (committed_of_commits g answer hmem)
      exact good_of_accepted hcall haccepted hdelivery
  | again hrun =>
    obtain ⟨⟨hcall, -⟩, hrest⟩ := forall_mem_middle.mp (hrun ▸ h.running)
    exact ⟨h.permits, forall_mem_middle.mpr ⟨⟨hcall, PortCall.again_checked _⟩, hrest⟩,
      h.returned, h.committed⟩
  | abandon hrun =>
    obtain ⟨-, hrest⟩ := forall_mem_middle.mp (hrun ▸ h.running)
    exact ⟨h.permits, hrest, h.returned, h.committed⟩
  | finish hrun =>
    obtain ⟨⟨hcall, hends⟩, hrest⟩ := forall_mem_middle.mp (hrun ▸ h.running)
    refine ⟨fun permit hmem => ?_, hrest, fun r hr => ?_, h.committed⟩
    · rcases List.mem_append.mp hmem with hmem | hmem
      · have hissued := (hends _ rfl).permit permit (Option.mem_toList.mp hmem)
        exact guardedPermit_of_issued hcall hissued
      · exact h.permits permit hmem
    · rcases List.mem_cons.mp hr with rfl | hr
      · exact hends _ rfl
      · exact h.returned r hr
  | dropSender c hst => exact ⟨h.permits, h.running, h.returned, h.committed⟩
  | dropReceiver c hst => exact ⟨h.permits, h.running, h.returned, h.committed⟩

/-- **Everything committed in a run on guarded outputs is good.** -/
theorem guarded_of_reachableOn (hm : m.Lawful) {given : PortsOut → Prop}
    (hgiven : ∀ outputs, given outputs → Guards Good outputs)
    (h : ReachableOn m given capacity s) : Guarded Good s := by
  induction h with
  | refl => exact guarded_initial
  | tail hbefore hstep ih =>
    have hreachable : ReachableOn m given capacity _ := hbefore
    exact guarded_step hm (inv_of_reachable hm hreachable.reachable) ih hstep.1
      fun r hr outputs houtputs => hgiven outputs (hstep.2 r hr outputs houtputs)

/-- **A send whose packet is not accepted** puts nothing on any channel, at no time, and gives back
the slots it was handed or reserved. -/
theorem rejected_of_guarded (hinv : Inv capacity s) (h : Guarded Good s) :
    (∀ r ∈ s.running, ¬ r.call.Accepted → r.account.committed = []) ∧
    ∀ r ∈ s.returned, ¬ r.call.Accepted →
      r.account.committed = [] ∧ ∀ c, netReserved r c = -r.call.holds.count c := by
  refine ⟨fun r hr hrejected => ?_, fun r hr hrejected => ?_⟩
  · rw [List.eq_nil_iff_forall_not_mem]
    intro delivery hmem
    exact hrejected (accepted_of_committed (h.running r hr).2 (hinv.running r hr) hmem).1
  · have hsettles := hinv.returned r hr
    have hchecked := h.returned r hr
    have hdeliveries : r.result.deliveries r.call = [] := by
      unfold PortResult.deliveries
      split
      · next hsent => exact absurd (hchecked.sent hsent) hrejected
      · rfl
    have hholds : r.result.holds = 0 := by
      unfold PortResult.holds
      cases hpermit : r.result.permit? with
      | none => rfl
      | some permit =>
        -- only a reservation returns a permit, and it has no packet to reject
        have hissued := hchecked.permit permit hpermit
        rcases r with ⟨call, result, g⟩
        cases call with
        | tryReserve outputs portId => exact absurd trivial hrejected
        | reserve outputs portId => exact absurd trivial hrejected
        | _ => cases hissued
    refine ⟨hsettles.committed.trans hdeliveries, fun c => ?_⟩
    simp [netReserved, hsettles.held, hholds]

end Guarding

end System

end Pureflow.Core
