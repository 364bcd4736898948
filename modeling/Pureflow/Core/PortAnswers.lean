import Pureflow.Core.PortSpecs

/-!
What sends and receives answer in an environment that is not free to answer anything: receivers
stay connected, the token answers as it should, and receives follow their channels.
-/

namespace Pureflow.Core

open Pureflow.Types Pureflow.Lib

/-- What the token may answer, and what the poll of a channel may answer for an account. -/
structure Surroundings where
  token : Bool → Prop
  recv : ℕ → Poll (Except RecvError PortPacket) → Account → Prop

namespace Surroundings

/-- The answers of connected channels: a reservation is made, or there is no room yet. -/
def can (a : Surroundings) : (op : PortOp) → op.Answer → Account → Prop
  | .tryReserve _, answer, _ => answer = .ok () ∨ answer = .error .full
  | .tryRecv c, answer, g => a.recv c (.ready answer) g
  | .pollRecv c, answer, g => a.recv c answer g
  | .isCancelled, answer, _ => a.token answer
  | _, _, _ => True

def ghost (a : Surroundings) : Prog.Ghost PortOp PortOp.Answer Account := { ledger with can := a.can }

/-- The same surroundings while no cancellation is requested. -/
def quiet (a : Surroundings) : Surroundings := { a with token := (· = false) }

end Surroundings

variable {a : Surroundings} {g : Account}

lemma wp_of_ledger {α : Type} {p : PortM α} {Q : α → Account → Prop} (h : Prog.Wp ledger p Q g) :
    Prog.Wp a.ghost p Q g := by
  have hpre : a.ghost.pre = ledger.pre := rfl
  have hpost : a.ghost.post = ledger.post := rfl
  exact h.restrict hpre hpost fun _ _ _ _ => trivial

lemma received_after {op : PortOp} {answer : op.Answer} (h : a.can op answer g) :
    (g.after op answer).received = g.received ∨
      ∃ channel packet, a.recv channel (.ready (.ok packet)) g ∧
        (g.after op answer).received = g.received ++ [(channel, packet)] := by
  cases op with
  | tryRecv channel =>
    rcases answer with err | packet
    · exact .inl rfl
    · exact .inr ⟨channel, packet, h, rfl⟩
  | pollRecv channel =>
    rcases answer with (err | packet) | _
    · exact .inl rfl
    · exact .inr ⟨channel, packet, h, rfl⟩
    · exact .inl rfl
  | tryReserve channel =>
    rcases answer with err | ⟨⟩
    · exact .inl rfl
    · exact .inl rfl
  | _ => exact .inl rfl

lemma free_tryReserve {c : ℕ} {Q : Except SendError Unit → Account → Prop} :
    Prog.Wp a.ghost.free (PortM.tryReserve c) Q g ↔
      Q (.ok ()) { g with held := c ::ₘ g.held } ∧ Q (.error .full) g := by
  refine ⟨fun h => ⟨h.2 (.ok ()) (.inl rfl), h.2 (.error .full) (.inr rfl)⟩, fun h => ?_⟩
  refine ⟨trivial, fun r hr => ?_⟩
  rcases hr with rfl | rfl
  · exact h.1
  · exact h.2

lemma quiet_isCancelled {Q : Bool → Account → Prop} :
    Prog.Wp a.quiet.ghost.free PortM.isCancelled Q g ↔ Q false g := by
  refine ⟨fun h => h.2 false rfl, fun h => ⟨trivial, fun b hb => ?_⟩⟩
  obtain rfl : b = false := hb
  exact h

section Sending

/-- The permit of a port, with its validator; or there was no room. -/
def Granted (h : OutputPortHandle) (validator : Option OutputPacketValidator) :
    Except PortSendError OutputPortSendPermit → Prop
  | .ok permit => permit.portId = h.portId ∧ permit.validator = validator
  | .error e => e = .full h.portId

lemma tryReserve_go_granted (h : OutputPortHandle) (metadataSink : Bool)
    (validator : Option OutputPacketValidator) (context : Option NodeContext)
    (senders : List Sender) (permits : List ℕ) :
    Prog.Wp a.ghost.free
      (OutputPortHandle.tryReserve.go h metadataSink validator context senders permits)
      (fun r _ => Granted h validator r) g := by
  induction senders generalizing permits g with
  | nil =>
    rw [OutputPortHandle.tryReserve.go, Prog.wp_bind]
    exact Prog.wp_free (fun _ _ => ⟨rfl, rfl⟩) _ _
  | cons sender rest ih =>
    rw [OutputPortHandle.tryReserve.go, Prog.wp_bind, free_tryReserve]
    refine ⟨ih _, ?_⟩
    simp only [if_true, Prog.wp_bind]
    exact Prog.wp_free (fun _ _ => Prog.wp_free (fun _ _ => rfl) _ _) _ _

lemma reserve_granted (h : OutputPortHandle) (metadataSink : Bool)
    (validator : Option OutputPacketValidator) (context : Option NodeContext) :
    Prog.Wp a.quiet.ghost.free (OutputPortHandle.reserve h metadataSink validator context)
      (fun r _ => match r with
        | .ready answer => ∃ permit, answer = .ok permit ∧ permit.portId = h.portId ∧
            permit.validator = validator
        | .pending => True) g := by
  rw [OutputPortHandle.reserve, Prog.wp_bind, quiet_isCancelled]
  simp only [Bool.false_eq_true, if_false, OutputPortHandle.tryReserve, Prog.wp_bind]
  refine Prog.wp_free (fun _ g => ?_) _ _
  refine (tryReserve_go_granted h metadataSink validator context h.ends []).mono ?_
  rintro (err | permit) g' hr
  · cases hr
    trivial
  · exact ⟨permit, rfl, hr⟩

/-- **A send on a connected port** that is declared, of a packet its validator accepts, while
nothing is cancelled: it commits to all edges, or waits. -/
theorem send_connected (outputs : PortsOut) {portId : PortId} {packet : PortPacket}
    {port : OutputPortHandle} (hport : PortHandle.find outputs.ports portId = some port)
    (hvalid : ∀ validator ∈ outputs.validator, validator portId packet = .ok ()) :
    Prog.Wp a.quiet.ghost (outputs.send portId packet)
      (fun r g' => match r with
        | .ready answer => answer = .ok () ∧
            g' = { g with committed := g.committed ++ (outputs.channels portId).map (·, packet) }
        | .pending => g' = g) g := by
  have hportId : port.portId = portId := by simpa using List.find?_some hport
  have hanswer : Prog.Wp a.quiet.ghost.free (outputs.send portId packet)
      (fun r _ => ∀ answer, r = .ready answer → answer = .ok ()) g := by
    rw [PortsOut.send, PortsOut.reserve, hport, Prog.wp_bind]
    refine (reserve_granted port _ _ _).mono fun r g' hr => ?_
    rcases r with answer | _
    · obtain ⟨permit, rfl, hid, hvalidator⟩ := hr
      have hok : permit.validate packet = .ok () := by
        unfold OutputPortSendPermit.validate
        rw [hvalidator, hid, hportId]
        cases hv : outputs.validator with
        | none => rfl
        | some validator => exact hvalid validator hv
      simp only [OutputPortSendPermit.send, hok, Prog.wp_bind]
      refine Prog.wp_free (fun _ _ => Prog.wp_free (fun _ _ => Prog.wp_free ?_ _ _) _ _) _ _
      rintro ⟨⟩ g' answer h
      cases h
      rfl
    · intro answer h
      cases h
  refine ((wp_of_ledger (send_spec outputs portId packet)).and hanswer).mono fun r g' hr => ?_
  obtain ⟨hdelivered, hok⟩ := hr
  rcases r with answer | _
  · obtain rfl := hok answer rfl
    exact ⟨rfl, hdelivered⟩
  · exact hdelivered

end Sending

section Receiving

/-- A poll of some receivers of a port: the packet is from one of them, and the port is closed
only if all of them were disconnected. -/
def PollAnswered (a : Surroundings) (g : Account) (receivers : List Receiver) (others : ℕ) :
    InputPortHandle.InputPollResult → Account → Prop
  | .packet packet, g' => ∃ r ∈ receivers, a.recv r.channel (.ready (.ok packet)) g ∧
      g' = { g with received := g.received ++ [(r.channel, packet)] }
  | .closed, g' => g' = g ∧ others = 0 ∧
      ∀ r ∈ receivers, a.recv r.channel (.ready (.error .disconnected)) g
  | .cancelled, g' => g' = g ∧ ∃ r ∈ receivers, a.recv r.channel (.ready (.error .cancelled)) g
  | .pending, g' => g' = g

lemma PollAnswered.open {receiver : Receiver} {rest : List Receiver} {others : ℕ}
    {r : InputPortHandle.InputPollResult} {g' : Account}
    (h : PollAnswered a g rest (others + 1) r g') :
    PollAnswered a g (receiver :: rest) others r g' := by
  cases r with
  | packet packet =>
    obtain ⟨x, hx, hrecv⟩ := h
    exact ⟨x, List.mem_cons_of_mem _ hx, hrecv⟩
  | pending => exact h
  | closed => exact absurd h.2.1 (Nat.succ_ne_zero others)
  | cancelled =>
    obtain ⟨hg, x, hx, hrecv⟩ := h
    exact ⟨hg, x, List.mem_cons_of_mem _ hx, hrecv⟩

lemma PollAnswered.closing {receiver : Receiver} {rest : List Receiver} {others : ℕ}
    {r : InputPortHandle.InputPollResult} {g' : Account}
    (hclosed : a.recv receiver.channel (.ready (.error .disconnected)) g)
    (h : PollAnswered a g rest others r g') : PollAnswered a g (receiver :: rest) others r g' := by
  cases r with
  | packet packet =>
    obtain ⟨x, hx, hrecv⟩ := h
    exact ⟨x, List.mem_cons_of_mem _ hx, hrecv⟩
  | pending => exact h
  | closed => exact ⟨h.1, h.2.1, List.forall_mem_cons.mpr ⟨hclosed, h.2.2⟩⟩
  | cancelled =>
    obtain ⟨hg, x, hx, hrecv⟩ := h
    exact ⟨hg, x, List.mem_cons_of_mem _ hx, hrecv⟩

/-- `others` counts the receivers before these that were not disconnected. -/
lemma pollAny_go_answered (h : InputPortHandle) (receivers : List Receiver) (n others : ℕ)
    (hn : n + others + receivers.length = h.ends.length) :
    Prog.Wp a.ghost (InputPortHandle.pollAny.go h receivers n) (PollAnswered a g receivers others)
      g := by
  induction receivers generalizing n others with
  | nil =>
    rw [InputPortHandle.pollAny.go]
    simp only [List.length_nil, add_zero] at hn
    split
    · next hclosed =>
      have hlen : n = h.ends.length := by simpa using hclosed
      exact ⟨rfl, by omega, by simp⟩
    · rfl
  | cons receiver rest ih =>
    rw [List.length_cons] at hn
    rw [InputPortHandle.pollAny.go, Prog.wp_bind]
    refine ⟨trivial, fun answer hanswer => ?_⟩
    rcases answer with (err | packet) | _
    · cases err with
      | disconnected =>
        refine (ih (n + 1) others (by omega)).mono fun r g' hr => hr.closing hanswer
      | cancelled => exact ⟨rfl, receiver, List.mem_cons_self, hanswer⟩
      | empty => exact (ih n (others + 1) (by omega)).mono fun r g' hr => hr.open
    · exact ⟨receiver, List.mem_cons_self, hanswer, rfl⟩
    · exact (ih n (others + 1) (by omega)).mono fun r g' hr => hr.open

/-- What a receive on a port answers: a packet of one of its channels, the end of all of them, or
a cancellation. -/
def Answered (a : Surroundings) (port : InputPortHandle) (g : Account) :
    Except PortRecvError (Option PortPacket) → Account → Prop
  | .ok (some packet), g' => ∃ r ∈ port.ends, a.recv r.channel (.ready (.ok packet)) g ∧
      g' = { g with received := g.received ++ [(r.channel, packet)] }
  | .ok none, g' => g' = g ∧ port.ends = []
  | .error (.disconnected _), g' => g' = g ∧
      ∀ r ∈ port.ends, a.recv r.channel (.ready (.error .disconnected)) g
  | .error (.cancelled _), g' => g' = g ∧ (a.token true ∨
      ∃ r ∈ port.ends, a.recv r.channel (.ready (.error .cancelled)) g)
  | .error (.unknownPort _), _ => False

def PollAnswer (a : Surroundings) (port : InputPortHandle) (g : Account) :
    Poll (Except PortRecvError (Option PortPacket)) → Account → Prop
  | .ready answer, g' => Answered a port g answer g'
  | .pending, g' => g' = g

lemma recv_answered (port : InputPortHandle) :
    Prog.Wp a.ghost (InputPortHandle.recv port) (PollAnswer a port g) g := by
  unfold InputPortHandle.recv
  split
  · next hempty => exact ⟨rfl, by simpa using hempty⟩
  rw [Prog.wp_bind]
  refine ⟨trivial, fun cancelled hcancelled => ?_⟩
  cases cancelled with
  | true => exact ⟨rfl, .inl hcancelled⟩
  | false =>
    show Prog.Wp a.ghost (InputPortHandle.pollAny.go port port.ends 0 >>= _) _ _
    rw [Prog.wp_bind]
    refine (pollAny_go_answered port port.ends 0 0 (by simp)).mono fun r g' hr => ?_
    cases r with
    | packet packet => exact hr
    | pending => exact hr
    | closed => exact ⟨hr.1, hr.2.2⟩
    | cancelled => exact ⟨hr.1, .inr hr.2⟩

lemma recvPoll_answered (inputs : PortsIn) (port : InputPortHandle) :
    Prog.Wp a.ghost (inputs.recvPoll port) (PollAnswer a port g) g := by
  rw [PortsIn.recvPoll, Prog.wp_bind]
  refine (recv_answered port).mono fun r g' hr => ?_
  rcases r with answer | _
  · simp only [Prog.wp_bind]
    exact wp_of_ledger (wp_recordReceived hr)
  · exact hr

/-- **A receive on a declared port** answers what its channels do. -/
theorem portsIn_recv_answered (inputs : PortsIn) {portId : PortId} {port : InputPortHandle}
    (hport : PortHandle.find inputs.ports portId = some port) :
    Prog.Wp a.ghost (inputs.recv portId) (PollAnswer a port g) g := by
  rw [PortsIn.recv, hport]
  simp only [Prog.wp_bind]
  exact wp_of_ledger (wp_recordQueuePressure (recvPoll_answered inputs port))

end Receiving

section Stalling

/-- The answer is that the channel has nothing to give yet, or no room. -/
def PortOp.isStall : (op : PortOp) → op.Answer → Bool
  | .tryReserve _, .error .full => true
  | .pollRecv _, .ready (.error .empty) => true
  | .pollRecv _, .pending => true
  | _, _ => false

/-- Whether a channel has stalled. -/
def stalls : Prog.Ghost PortOp PortOp.Answer Bool where
  pre _ _ := True
  can _ _ _ := True
  post op answer stalled := stalled || op.isStall answer

variable {stalled : Bool}

lemma stalls_of_forall {α : Type} {Q : α → Bool → Prop} (h : ∀ r b, Q r b) (p : PortM α) :
    Prog.Wp stalls p Q stalled := by
  show Prog.Wp stalls.free p Q stalled
  exact Prog.wp_free h p stalled

lemma stalls_stays {α : Type} (p : PortM α) : Prog.Wp stalls p (fun _ b => b = true) true := by
  induction p with
  | ret r => rfl
  | call op k ih => exact ⟨trivial, fun answer _ => ih answer⟩

/-- `n` of the receivers before these were disconnected. The others stalled. -/
lemma pollAny_go_stalls (h : InputPortHandle) (receivers : List Receiver) (n : ℕ)
    (hn : stalled = true ∨ n + receivers.length = h.ends.length) :
    Prog.Wp stalls (InputPortHandle.pollAny.go h receivers n)
      (fun r b => r = .pending → b = true) stalled := by
  induction receivers generalizing n stalled with
  | nil =>
    rw [InputPortHandle.pollAny.go]
    split
    · intro hr
      cases hr
    · next hopen =>
      intro _
      refine hn.resolve_right fun hlen => hopen ?_
      simpa using hlen
  | cons receiver rest ih =>
    rw [List.length_cons] at hn
    rw [InputPortHandle.pollAny.go, Prog.wp_bind]
    refine ⟨trivial, fun answer _ => ?_⟩
    have hstall : (stalled || true) = true := Bool.or_true stalled
    rcases answer with (err | packet) | _
    · cases err with
      | disconnected =>
        refine ih (n + 1) (hn.imp (fun hb => ?_) fun hlen => ?_)
        · rw [hb]
          rfl
        · omega
      | cancelled =>
        intro hr
        cases hr
      | empty => exact ih n (.inl hstall)
    · intro hr
      cases hr
    · exact ih n (.inl hstall)

lemma recvPoll_stalls (inputs : PortsIn) (port : InputPortHandle) :
    Prog.Wp stalls (inputs.recvPoll port) (fun r b => r = .pending → b = true) stalled := by
  have hready {α : Type} (answer : α) (b : Bool) :
      (Poll.ready answer : Poll α) = .pending → b = true := by
    intro h
    cases h
  have hrecv : Prog.Wp stalls (InputPortHandle.recv port) (fun r b => r = .pending → b = true)
      stalled := by
    unfold InputPortHandle.recv
    split
    · exact hready _ _
    rw [Prog.wp_bind]
    refine ⟨trivial, fun cancelled _ => ?_⟩
    cases cancelled with
    | true => exact hready _ _
    | false =>
      show Prog.Wp stalls (InputPortHandle.pollAny.go port port.ends 0 >>= _) _ _
      rw [Prog.wp_bind]
      refine (pollAny_go_stalls port port.ends 0 (.inr (Nat.zero_add _))).mono fun r b hr => ?_
      cases r with
      | packet packet => exact hready _ _
      | closed => exact hready _ _
      | cancelled => exact hready _ _
      | pending => exact fun _ => hr rfl
  rw [PortsIn.recvPoll, Prog.wp_bind]
  refine hrecv.mono fun r b hr => ?_
  rcases r with answer | _
  · simp only [Prog.wp_bind]
    exact stalls_of_forall (fun _ _ => hready _ _) _
  · exact hr

/-- **A receive waits only where a channel stalled.** -/
theorem portsIn_recv_stalls (inputs : PortsIn) (portId : PortId) :
    Prog.Wp stalls (inputs.recv portId) (fun r b => r = .pending → b = true) stalled := by
  rw [PortsIn.recv]
  cases PortHandle.find inputs.ports portId with
  | none =>
    intro hr
    cases hr
  | some port =>
    simp only [Prog.wp_bind]
    refine stalls_of_forall (fun _ b => ?_) _
    exact recvPoll_stalls inputs port

lemma stalls_tryReserve {c : ℕ} {Q : Except SendError Unit → Bool → Prop}
    (hok : Q (.ok ()) stalled) (hfull : Q (.error .full) true)
    (herror : ∀ err, err ≠ .full → Q (.error err) stalled) :
    Prog.Wp stalls (PortM.tryReserve c) Q stalled := by
  refine ⟨trivial, fun answer _ => ?_⟩
  show Q answer (stalled || PortOp.isStall (.tryReserve c) answer)
  rcases answer with err | ⟨⟩
  · cases err with
    | full =>
      rw [show PortOp.isStall (.tryReserve c) (.error .full) = true from rfl, Bool.or_true]
      exact hfull
    | disconnected =>
      rw [show PortOp.isStall (.tryReserve c) (.error .disconnected) = false from rfl, Bool.or_false]
      exact herror _ (by decide)
    | cancelled =>
      rw [show PortOp.isStall (.tryReserve c) (.error .cancelled) = false from rfl, Bool.or_false]
      exact herror _ (by decide)
  · rw [show PortOp.isStall (.tryReserve c) (.ok ()) = false from rfl, Bool.or_false]
    exact hok

lemma tryReserve_go_stalls (h : OutputPortHandle) (metadataSink : Bool)
    (validator : Option OutputPacketValidator) (context : Option NodeContext)
    (senders : List Sender) (permits : List ℕ) :
    Prog.Wp stalls
      (OutputPortHandle.tryReserve.go h metadataSink validator context senders permits)
      (fun r b => ∀ portId, r = .error (.full portId) → b = true) stalled := by
  induction senders generalizing permits stalled with
  | nil =>
    rw [OutputPortHandle.tryReserve.go, Prog.wp_bind]
    refine stalls_of_forall (fun _ b portId hr => ?_) _
    cases hr
  | cons sender rest ih =>
    rw [OutputPortHandle.tryReserve.go, Prog.wp_bind]
    refine stalls_tryReserve (ih _) ?_ fun err herr => ?_
    · exact (stalls_stays _).mono fun _ _ hb portId _ => hb
    · simp only [if_neg herr, Prog.wp_bind]
      refine stalls_of_forall (fun _ _ portId hr => ?_) _
      cases err with
      | full => exact absurd rfl herr
      | disconnected => cases hr
      | cancelled => cases hr

/-- **A send waits only where a channel stalled.** -/
theorem send_stalls (outputs : PortsOut) (portId : PortId) (packet : PortPacket) :
    Prog.Wp stalls (outputs.send portId packet) (fun r b => r = .pending → b = true) stalled := by
  have hready {α : Type} (answer : α) (b : Bool) :
      (Poll.ready answer : Poll α) = .pending → b = true := by
    intro h
    cases h
  have hreserve : Prog.Wp stalls (outputs.reserve portId) (fun r b => r = .pending → b = true)
      stalled := by
    rw [PortsOut.reserve]
    cases PortHandle.find outputs.ports portId with
    | none => exact hready _ _
    | some port =>
      simp only [OutputPortHandle.reserve, OutputPortHandle.tryReserve, Prog.wp_bind]
      refine stalls_of_forall (fun cancelled b => ?_) _
      cases cancelled with
      | true => exact hready _ _
      | false =>
        simp only [Bool.false_eq_true, if_false, Prog.wp_bind]
        refine stalls_of_forall (fun _ b => ?_) _
        refine (tryReserve_go_stalls port _ _ _ port.ends []).mono fun r b hr => ?_
        rcases r with err | permit
        · cases err with
          | full portId => exact fun _ => hr portId rfl
          | _ => exact hready _ _
        · exact hready _ _
  rw [PortsOut.send, Prog.wp_bind]
  refine hreserve.mono fun r b hr => ?_
  rcases r with (err | permit) | _
  · exact hready _ _
  · simp only [Prog.wp_bind]
    exact stalls_of_forall (fun _ _ => hready _ _) _
  · exact fun _ => hr rfl

end Stalling

end Pureflow.Core
