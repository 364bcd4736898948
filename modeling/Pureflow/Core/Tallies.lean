import Pureflow.Core.Receives
import Pureflow.Lib.Merge

/-!
What a node learns by receiving on its ports.

A node is followed by the packets it has received, each with its channel, and by the channels it
has seen disconnected. While no cancellation is requested, a channel that was seen disconnected is
finished: all that was committed to it was received, and nothing will be committed to it any more.
-/

namespace Pureflow.Core

open Pureflow.Types Pureflow.Lib

/-- The packets a node has received, and the channels it has seen disconnected. -/
structure Tally where
  received : List (ℕ × PortPacket)
  closed : List ℕ

namespace Tally

def fresh : Tally := ⟨[], []⟩

/-- The channels that an answer shows to be disconnected. -/
def closes : (op : PortOp) → op.Answer → List ℕ
  | .pollRecv c, .ready (.error .disconnected) => [c]
  | _, _ => []

def after (op : PortOp) (answer : op.Answer) (g : Tally) : Tally :=
  ⟨g.received ++ (System.receives op answer).toList, g.closed ++ closes op answer⟩

lemma eq_of_closes {op : PortOp} {answer : op.Answer} {c : ℕ} (h : c ∈ closes op answer) :
    op = .pollRecv c := by
  cases op with
  | pollRecv d =>
    rcases answer with (err | packet) | _
    · cases err with
      | disconnected => rw [List.mem_singleton.mp h]
      | cancelled | empty => cases h
    · cases h
    · cases h
  | _ => cases h

end Tally

/-- The answers a node gets as long as no cancellation is requested, with its tally. -/
def tallied : Prog.Ghost PortOp PortOp.Answer Tally where
  pre _ _ := True
  can
    | .pollRecv _, .ready (.error err), _ => err = .disconnected
    | .isCancelled, cancelled, _ => cancelled = false
    | _, _, _ => True
  post := Tally.after

section Scans

variable {g g₀ : Tally}

lemma quiet_tallied : Quiet tallied where
  pre _ _ := trivial
  post {op} hop answer g := by
    cases op with
    | len c | isCancelled | record r =>
      simp [tallied, Tally.after, Tally.closes, System.receives]
    | _ => cases hop
  token h := h

lemma tallied_pollRecv {c : ℕ} {Q : Poll (Except RecvError PortPacket) → Tally → Prop}
    (hpacket : ∀ packet,
      Q (.ready (.ok packet)) { g with received := g.received ++ [(c, packet)] })
    (hclosed : Q (.ready (.error .disconnected)) { g with closed := g.closed ++ [c] })
    (hpending : Q .pending g) : Prog.Wp tallied (PortM.pollRecv c) Q g := by
  refine ⟨trivial, fun answer hcan => ?_⟩
  rcases answer with (err | packet) | _
  · obtain rfl : err = .disconnected := hcan
    have hafter : g.after (.pollRecv c) (.ready (.error .disconnected)) =
        { g with closed := g.closed ++ [c] } := by
      simp [Tally.after, Tally.closes, System.receives]
    show Q _ (g.after (.pollRecv c) (.ready (.error .disconnected)))
    rwa [hafter]
  · have hafter : g.after (.pollRecv c) (.ready (.ok packet)) =
        { g with received := g.received ++ [(c, packet)] } := by
      simp [Tally.after, Tally.closes, System.receives]
    show Q _ (g.after (.pollRecv c) (.ready (.ok packet)))
    rw [hafter]
    exact hpacket packet
  · have hafter : g.after (.pollRecv c) .pending = g := by
      simp [Tally.after, Tally.closes, System.receives]
    show Q _ (g.after (.pollRecv c) .pending)
    rwa [hafter]

/-- The same packets, and no fewer channels closed. -/
structure Tally.Later (g₀ g : Tally) : Prop where
  received : g.received = g₀.received
  closed : g₀.closed ⊆ g.closed

lemma Tally.Later.refl (g : Tally) : g.Later g := ⟨rfl, List.Subset.refl _⟩

/-- A scan of these channels: it takes one packet from one of them, or none, and finds them
closed only if all of them were disconnected. -/
def ScanTallied (channels : List ℕ) (g₀ : Tally) : InputPortHandle.InputPollResult → Tally → Prop
  | .packet packet, g => ∃ c ∈ channels, g.received = g₀.received ++ [(c, packet)]
  | .pending, g => g₀.Later g
  | .closed, g => g₀.Later g ∧ channels ⊆ g.closed
  | .cancelled, _ => False

lemma pollAny_go_tallied (h : InputPortHandle) {done rest : List Receiver} {n : ℕ}
    (hall : h.ends = done ++ rest) (hle : n ≤ done.length)
    (hclosed : n = done.length → done.map Receiver.channel ⊆ g.closed) (hlater : g₀.Later g) :
    Prog.Wp tallied (InputPortHandle.pollAny.go h rest n)
      (ScanTallied (h.ends.map Receiver.channel) g₀) g := by
  induction rest generalizing done n g with
  | nil =>
    rw [List.append_nil] at hall
    rw [InputPortHandle.pollAny.go, hall]
    by_cases hn : n = done.length
    · rw [if_pos (by simp [hn])]
      exact ⟨hlater, hclosed hn⟩
    · rw [if_neg (by simp [hn])]
      exact hlater
  | cons receiver rest ih =>
    have hmem : receiver.channel ∈ h.ends.map Receiver.channel := by
      rw [hall]
      exact List.mem_map_of_mem (List.mem_append_right _ List.mem_cons_self)
    have hall : h.ends = (done ++ [receiver]) ++ rest := by simp [hall]
    rw [InputPortHandle.pollAny.go, Prog.wp_bind]
    refine tallied_pollRecv (fun packet => ?_) ?_ ?_
    · exact ⟨_, hmem, by rw [hlater.received]⟩
    · refine ih hall (by simpa using hle) (fun hn => ?_)
        ⟨hlater.received, List.Subset.trans hlater.closed (List.subset_append_left _ _)⟩
      rw [List.length_append, List.length_singleton, Nat.add_right_cancel_iff] at hn
      rw [List.map_append]
      exact List.append_subset.mpr
        ⟨List.Subset.trans (hclosed hn) (List.subset_append_left _ _),
          List.subset_append_right _ _⟩
    · -- fewer are counted than were polled
      refine ih hall (by rw [List.length_append]; omega) (fun hn => ?_) hlater
      rw [List.length_append, List.length_singleton] at hn
      omega

lemma pollAny_tallied (h : InputPortHandle) (hlater : g₀.Later g) :
    Prog.Wp tallied (InputPortHandle.pollAny h)
      (ScanTallied (h.ends.map Receiver.channel) g₀) g := by
  unfold InputPortHandle.pollAny
  split
  · next hempty =>
    rw [List.isEmpty_iff.mp hempty]
    exact ⟨hlater, List.nil_subset _⟩
  · exact pollAny_go_tallied h (List.nil_append _).symm le_rfl (fun _ => List.nil_subset _) hlater

/-- What `recv` leaves: a packet it returns came from one of the channels of its port, and they are
all closed if it ends without one. -/
def RecvTallied (channels : List ℕ) (g₀ : Tally) :
    Poll (Except PortRecvError (Option PortPacket)) → Tally → Prop
  | .ready (.ok (some packet)), g => ∃ c ∈ channels, g.received = g₀.received ++ [(c, packet)]
  | .ready _, g => g₀.Later g ∧ channels ⊆ g.closed
  | .pending, g => g₀.Later g

lemma recvPoll_tallied (ports : PortsIn) (port : InputPortHandle) :
    Prog.Wp tallied (ports.recvPoll port) (RecvTallied (port.ends.map Receiver.channel) g) g := by
  have hrecv : Prog.Wp tallied (InputPortHandle.recv port)
      (RecvTallied (port.ends.map Receiver.channel) g) g := by
    unfold InputPortHandle.recv
    split
    · next hempty =>
      rw [List.isEmpty_iff.mp hempty]
      exact ⟨.refl g, List.nil_subset _⟩
    · rw [Prog.wp_bind]
      refine quiet_tallied.wp_isCancelled ?_
      simp only [Bool.false_eq_true, if_false, Prog.wp_bind]
      refine (pollAny_go_tallied port (List.nil_append _).symm le_rfl (fun _ => List.nil_subset _)
        (.refl g)).mono fun result g' hresult => ?_
      cases result with
      | packet packet => exact hresult
      | pending => exact hresult
      | closed => exact hresult
      | cancelled => exact hresult.elim
  rw [PortsIn.recvPoll, Prog.wp_bind]
  refine hrecv.mono fun poll g' hpoll => ?_
  cases poll with
  | pending => exact hpoll
  | ready answer =>
    simp only [Prog.wp_bind]
    exact quiet_tallied.wp_of_idle (idle_recordReceived ports port answer) fun _ => hpoll

/-- **A first poll of `recv`.** -/
theorem recv_tallied (ports : PortsIn) (portId : PortId) :
    Prog.Wp tallied (ports.recv portId) (RecvTallied (ports.channels portId) g) g := by
  unfold PortsIn.recv PortsIn.channels
  cases PortHandle.find ports.ports portId with
  | none => exact ⟨.refl g, List.nil_subset _⟩
  | some port =>
    simp only [Prog.wp_bind]
    exact quiet_tallied.wp_of_idle (idle_recordQueuePressure ports port _) fun _ =>
      recvPoll_tallied ports port

/-- What `recv_any` leaves: a packet it returns came from a channel of the port it names, and all
channels are closed if there is none any more. -/
def AnyTallied (ports : List InputPortHandle) (g₀ : Tally) :
    Poll (Except PortRecvError (Option (PortId × PortPacket))) → Tally → Prop
  | .ready (.ok (some (portId, packet))), g => ∃ port ∈ ports, port.portId = portId ∧
    ∃ c ∈ port.ends.map Receiver.channel, g.received = g₀.received ++ [(c, packet)]
  | .ready (.ok none), g => g₀.Later g ∧
    ∀ port ∈ ports, port.ends.map Receiver.channel ⊆ g.closed
  | .ready (.error _), _ => False
  | .pending, g => g₀.Later g

lemma recvAnyPoll_go_tallied (ports : PortsIn) {done rest : List InputPortHandle} {n : ℕ}
    (hall : ports.ports = done ++ rest) (hle : n ≤ done.length)
    (hclosed : n = done.length → ∀ port ∈ done, port.ends.map Receiver.channel ⊆ g.closed)
    (hlater : g₀.Later g) :
    Prog.Wp tallied (PortsIn.recvAnyPoll.go ports rest n) (AnyTallied ports.ports g₀) g := by
  induction rest generalizing done n g with
  | nil =>
    rw [List.append_nil] at hall
    rw [PortsIn.recvAnyPoll.go, hall]
    by_cases hn : n = done.length
    · rw [if_pos (by simp [hn])]
      exact ⟨hlater, hclosed hn⟩
    · rw [if_neg (by simp [hn])]
      exact hlater
  | cons port rest ih =>
    have hmem : port ∈ ports.ports := by
      rw [hall]
      exact List.mem_append_right _ List.mem_cons_self
    have hall : ports.ports = (done ++ [port]) ++ rest := by simp [hall]
    rw [PortsIn.recvAnyPoll.go, Prog.wp_bind]
    refine (pollAny_tallied port (Tally.Later.refl g)).mono fun result g' hresult => ?_
    cases result with
    | packet packet =>
      obtain ⟨c, hc, hreceived⟩ := hresult
      simp only [Prog.wp_bind]
      refine quiet_tallied.wp_of_idle (idle_recordQueuePressure ports port _) fun _ => ?_
      refine quiet_tallied.wp_of_idle (calls_record (by exact trivial) _) fun _ => ?_
      exact ⟨port, hmem, rfl, c, hc, by rw [hreceived, hlater.received]⟩
    | cancelled => exact hresult.elim
    | closed =>
      obtain ⟨hg', hchannels⟩ := hresult
      simp only [Prog.wp_bind]
      refine quiet_tallied.wp_of_idle (idle_recordQueuePressure ports port _) fun _ => ?_
      refine ih hall (by simpa using hle) (fun hn => ?_)
        ⟨hg'.received.trans hlater.received, List.Subset.trans hlater.closed hg'.closed⟩
      rw [List.length_append, List.length_singleton, Nat.add_right_cancel_iff] at hn
      intro other hother
      rcases List.mem_append.mp hother with hother | hother
      · exact List.Subset.trans (hclosed hn other hother) hg'.closed
      · rw [List.mem_singleton.mp hother]
        exact hchannels
    | pending =>
      have hg' : g.Later g' := hresult
      refine ih hall (by rw [List.length_append]; omega) (fun hn => ?_)
        ⟨hg'.received.trans hlater.received, List.Subset.trans hlater.closed hg'.closed⟩
      rw [List.length_append, List.length_singleton] at hn
      omega

lemma recvAnyPoll_tallied (ports : PortsIn) :
    Prog.Wp tallied ports.recvAnyPoll (AnyTallied ports.ports g) g := by
  rw [PortsIn.recvAnyPoll, Prog.wp_bind]
  refine quiet_tallied.wp_isCancelled ?_
  simp only [Bool.false_eq_true, if_false]
  exact recvAnyPoll_go_tallied ports (List.nil_append _).symm le_rfl
    (fun _ => List.forall_mem_nil _) (.refl g)

/-- **A first poll of `recv_any`.** -/
theorem recvAny_tallied (ports : PortsIn) :
    Prog.Wp tallied ports.recvAny (AnyTallied ports.ports g) g := by
  unfold PortsIn.recvAny
  split
  · next hempty =>
    rw [List.isEmpty_iff.mp hempty]
    exact ⟨.refl g, List.forall_mem_nil _⟩
  · rw [Prog.wp_bind]
    exact quiet_tallied.wp_of_idle (idle_recordAttempts _ _) fun _ => recvAnyPoll_tallied ports

lemma tallied_closed {α : Type} (p : PortM α) :
    Prog.Wp tallied p (fun _ g' => g.closed ⊆ g'.closed) g := by
  have hall (g' : Tally) (hsub : g.closed ⊆ g'.closed) :
      Prog.Wp tallied p (fun _ g'' => g.closed ⊆ g''.closed) g' := by
    induction p generalizing g' with
    | ret a => exact hsub
    | call op k ih => exact ⟨trivial, fun answer _ =>
        ih answer _ (List.Subset.trans hsub (List.subset_append_left _ _))⟩
  exact hall g (List.Subset.refl _)

lemma tallied_of_sending {α : Type} {channels : List ℕ} {packet : PortPacket} {p : PortM α}
    (h : p.Calls (PortOp.Sending channels packet)) :
    Prog.Wp tallied p (fun _ g' => g' = g) g := by
  induction p with
  | ret a => rfl
  | call op k ih =>
    have hafter (answer : op.Answer) : g.after op answer = g := by
      cases op with
      | tryReserve c | permitSend c sent | permitAbort c | isCancelled | record r =>
        simp [Tally.after, Tally.closes, System.receives]
      | _ => cases h.1
    refine ⟨trivial, fun answer _ => ?_⟩
    show Prog.Wp tallied (k answer) _ (g.after op answer)
    rw [hafter answer]
    exact ih answer (h.2 answer)

end Scans

/-- The calls of a node that keeps to the ends of channels it is given. -/
def NetworkNode.Owns (node : NetworkNode) : PortOp → Prop
  | .permitSend c _ => c ∈ node.senders
  | .tryRecv c | .pollRecv c => c ∈ node.receivers
  | _ => True

/-- Every end of a channel is given to one node, and all nodes keep to theirs. -/
structure Wires {ι : Type} (nodes : ι → NetworkNode) : Prop where
  sender_unique {i j : ι} {c : ℕ} : c ∈ (nodes i).senders → c ∈ (nodes j).senders → i = j
  receiver_unique {i j : ι} {c : ℕ} : c ∈ (nodes i).receivers → c ∈ (nodes j).receivers → i = j
  keeps (i : ι) : ∃ good, (nodes i).future.Keeps (nodes i).Owns good

lemma append_eq_withKey (history : ℕ → List PortPacket) (added : Option (ℕ × PortPacket)) (c : ℕ) :
    System.append history added c = history c ++ withKey c added.toList := by
  rcases added with _ | ⟨d, packet⟩
  · exact (List.append_nil _).symm
  · rcases eq_or_ne d c with rfl | hne
    · simp [System.append]
    · rw [System.append_some_of_ne hne.symm, Option.toList_some, withKey_cons_of_ne hne,
        withKey_nil, List.append_nil]

namespace Network

variable {m : Mpsc PortPacket} {senders : m.State → ℕ} {ι : Type} {nodes : ι → NetworkNode}
  {regime : Regime} {capacity : ℕ → ℕ} {i : ι} {Good : (nodes i).future.Stage → Tally → Prop}
  {closed : List ℕ} {s s' : Network m nodes}

/-- What holds of every reachable state for a node that is followed by its tally. -/
structure Follows (senders : m.State → ℕ) (i : ι)
    (Good : (nodes i).future.Stage → Tally → Prop) (closed : List ℕ) (s : Network m nodes) :
    Prop where
  running : Prog.Wp tallied (s.progs i) Good ⟨(s.accounts i).received, closed⟩
  finished : ∀ c ∈ closed, c ∈ (nodes i).receivers ∧ s.senderDropped c = true ∧
    s.received c = s.committed c
  received : ∀ c ∈ (nodes i).receivers, s.received c = withKey c (s.accounts i).received
  senders (c : ℕ) : senders (s.channels c) = if s.senderDropped c then 0 else 1
  senderDropped {j : ι} {c : ℕ} : c ∈ (nodes j).senders → s.senderDropped c = true →
    s.gone j = true
  receiverDropped {c : ℕ} : c ∈ (nodes i).receivers → s.receiverDropped c = true →
    s.gone i = true
  quiet : s.cancelled = false

lemma follows_initial (hm : m.Prompt senders)
    (hstart : Prog.Wp tallied ((nodes i).future.step (nodes i).future.start) Good .fresh) :
    Follows senders i Good [] (initial m nodes capacity) where
  running := hstart
  finished c h := by cases h
  received _ _ := rfl
  senders c := hm.senders_channel _
  senderDropped _ h := by cases h
  receiverDropped _ h := by cases h
  quiet := rfl

lemma senders_performs (hm : m.Prompt senders) {op : PortOp} {answer : op.Answer}
    {channels channels' : ℕ → m.State} (h : System.Performs m op answer channels channels')
    (c : ℕ) : senders (channels' c) = senders (channels c) := by
  have hupdate {d : ℕ} {st : m.State} (hst : senders st = senders (channels d)) :
      senders (Function.update channels d st c) = senders (channels c) := by
    rcases eq_or_ne c d with rfl | hne
    · rw [Function.update_self, hst]
    · rw [Function.update_of_ne hne]
  cases h with
  | tryReserve hst => exact hupdate (hm.senders_reserve hst)
  | permitSend hst => exact hupdate (hm.senders_send hst)
  | permitAbort hst => exact hupdate (hm.senders_abort hst)
  | tryRecv hst => exact hupdate (hm.senders_recv hst)
  | pollRecv hst => exact hupdate (hm.senders_poll hst)
  | len | isCancelled | record => rfl

lemma committed_of_dropped (h : Follows senders i Good closed s) {j : ι} {op : PortOp}
    (hgone : s.gone j = false) (howns : (nodes j).Owns op) {c : ℕ}
    (hdropped : s.senderDropped c = true) :
    System.append s.committed (System.commits op) c = s.committed c := by
  cases op with
  | permitSend d packet =>
    have hne : c ≠ d := by
      rintro rfl
      have hleft := h.senderDropped howns hdropped
      rw [hgone] at hleft
      cases hleft
    exact System.append_some_of_ne hne
  | _ => rfl

lemma received_of_other (hwires : Wires nodes) {j : ι} (hne : j ≠ i) {op : PortOp}
    (answer : op.Answer) (howns : (nodes j).Owns op) {c : ℕ} (hc : c ∈ (nodes i).receivers) :
    System.append s.received (System.receives op answer) c = s.received c := by
  have hother {d : ℕ} (hd : d ∈ (nodes j).receivers) : c ≠ d := by
    rintro rfl
    exact hne (hwires.receiver_unique hd hc)
  cases op with
  | tryRecv d =>
    rcases answer with err | packet
    · rfl
    · exact System.append_some_of_ne (hother howns)
  | pollRecv d =>
    rcases answer with (err | packet) | _
    · rfl
    · exact System.append_some_of_ne (hother howns)
    · rfl
  | _ => rfl

/-- **The network answers a node as its tally has it.** -/
lemma tallied_of_performs (hm : m.Prompt senders) (h : Follows senders i Good closed s)
    {op : PortOp} {answer : op.Answer} {channels : ℕ → m.State} (g : Tally)
    (hperforms : System.Performs m op answer s.channels channels) (htells : s.Tells op answer) :
    tallied.can op answer g := by
  cases hperforms with
  | @pollRecv _ c answer st hst =>
    obtain ⟨rfl, -⟩ := hm.pollRecv_eq hst
    unfold Channel.pollRecv
    split
    · exact trivial
    · split
      · exact rfl
      · exact trivial
  | isCancelled b =>
    have hb : b = s.cancelled := htells
    exact hb.trans h.quiet
  | tryReserve | permitSend | permitAbort | tryRecv | len | record => exact trivial

variable [Fintype ι]

/-- A channel that is seen disconnected while it has a receiver has lost its sender and is
drained. -/
lemma drained_of_closes (hm : m.Prompt senders) (hinv : Inv capacity s)
    (hsenders : ∀ c, senders (s.channels c) = if s.senderDropped c then 0 else 1) {op : PortOp}
    {answer : op.Answer} {channels : ℕ → m.State}
    (hperforms : System.Performs m op answer s.channels channels) {c : ℕ}
    (hc : c ∈ Tally.closes op answer) (hreceiver : s.receiverDropped c = false) :
    s.senderDropped c = true ∧ s.received c = s.committed c := by
  cases hperforms with
  | @pollRecv _ d answer st hst =>
    obtain ⟨rfl, -⟩ := hm.pollRecv_eq hst
    have hdisconnected : c = d ∧ (s.view d).queue = [] ∧ senders (s.channels d) = 0 := by
      unfold Channel.pollRecv at hc
      cases hqueue : (m.view (s.channels d)).queue with
      | cons packet rest =>
        rw [hqueue] at hc
        cases hc
      | nil =>
        by_cases hsenders : senders (s.channels d) = 0
        · rw [hqueue, if_pos hsenders] at hc
          exact ⟨List.mem_singleton.mp hc, hqueue, hsenders⟩
        · rw [hqueue, if_neg hsenders] at hc
          cases hc
    obtain ⟨rfl, hqueue, hnone⟩ := hdisconnected
    have hdropped : s.senderDropped c = true := by
      by_contra hkept
      rw [hsenders c, if_neg hkept] at hnone
      cases hnone
    have halive : (s.view c).receiverAlive = true := by rw [hinv.alive c, hreceiver, Bool.not_false]
    have hcommitted := (hinv.sound c).alive halive
    rw [hqueue, List.append_nil] at hcommitted
    exact ⟨hdropped, hcommitted.symm⟩
  | _ => cases hc

/-- A channel that a running node sees disconnected is one of its own, and finished. -/
lemma finished_of_closes (hm : m.Prompt senders) (hinv : Inv capacity s)
    (h : Follows senders i Good closed s) (hgone : s.gone i = false) {op : PortOp}
    {answer : op.Answer} {channels : ℕ → m.State} (howns : (nodes i).Owns op)
    (hperforms : System.Performs m op answer s.channels channels) {c : ℕ}
    (hc : c ∈ Tally.closes op answer) :
    c ∈ (nodes i).receivers ∧ s.senderDropped c = true ∧ s.received c = s.committed c := by
  have hmem : c ∈ (nodes i).receivers := by
    rw [Tally.eq_of_closes hc] at howns
    exact howns
  -- a running node still has its receivers
  have hreceiver : s.receiverDropped c = false := by
    by_contra hdropped
    have hleft := h.receiverDropped hmem (by simpa using hdropped)
    rw [hgone] at hleft
    cases hleft
  exact ⟨hmem, drained_of_closes hm hinv h.senders hperforms hc hreceiver⟩

lemma finished_kept (hinv : Inv capacity s') {c : ℕ} (hfinished : s.received c = s.committed c)
    (hcommitted : s'.committed c = s.committed c) (hreceived : s.received c <+: s'.received c) :
    s'.received c = s'.committed c := by
  refine (hinv.sound c).received_isPrefix.eq_of_length_le ?_
  rw [hcommitted, ← hfinished]
  exact hreceived.length_le

variable [DecidableEq ι]

/-- **One step** leaves what is finished as it is, and a node that is followed can still be. -/
theorem follows_step {good : (j : ι) → (nodes j).future.Stage → Prop} (hm : m.Prompt senders)
    (hwires : Wires nodes) (hquiet : ¬ regime.cancels)
    (hgood : ∀ stage g, Good stage g → Prog.Wp tallied ((nodes i).future.step stage) Good g)
    (hinv : Inv capacity s) (hinv' : Inv capacity s')
    (hkept : Kept (fun j => (nodes j).Owns) good s) (h : Follows senders i Good closed s)
    (hstep : Step regime s s') :
    ∃ closed', closed ⊆ closed' ∧ Follows senders i Good closed' s' ∧
      ∀ c ∈ closed, s'.committed c = s.committed c := by
  cases hstep with
  | @call j op k answer channels hgone hprog hperforms htells =>
    have howns : (nodes j).Owns op := by
      have hcalls := hkept.calls j
      rw [hprog] at hcalls
      exact hcalls.1
    have hcommitted (c : ℕ) (hdropped : s.senderDropped c = true) :
        System.append s.committed (System.commits op) c = s.committed c :=
      committed_of_dropped h hgone howns hdropped
    have hfinished (c : ℕ) (hc : c ∈ (nodes i).receivers ∧ s.senderDropped c = true ∧
          s.received c = s.committed c) :
        c ∈ (nodes i).receivers ∧ s.senderDropped c = true ∧
          System.append s.received (System.receives op answer) c =
            System.append s.committed (System.commits op) c := by
      obtain ⟨hmem, hdropped, heq⟩ := hc
      have hreceived : s.received c <+:
          System.append s.received (System.receives op answer) c := by
        rw [append_eq_withKey]
        exact List.prefix_append _ _
      exact ⟨hmem, hdropped, finished_kept hinv' heq (hcommitted c hdropped) hreceived⟩
    have hsenders (c : ℕ) : senders (channels c) = if s.senderDropped c then 0 else 1 := by
      rw [senders_performs hm hperforms, h.senders]
    rcases eq_or_ne j i with rfl | hne
    · have hrunning := h.running
      rw [hprog] at hrunning
      have hnext := hrunning.2 answer (tallied_of_performs hm h _ hperforms htells)
      refine ⟨closed ++ Tally.closes op answer, List.subset_append_left _ _, ?_,
        fun c hc => hcommitted c (h.finished c hc).2.1⟩
      have haccount : ((s.accounts j).after op answer).received =
          (s.accounts j).received ++ (System.receives op answer).toList :=
        Traced.received_after _ op answer
      refine ⟨?_, fun c hc => ?_, fun c hc => ?_, hsenders, h.senderDropped, h.receiverDropped,
        h.quiet⟩
      · simp only [Function.update_self, haccount]
        exact hnext
      · rcases List.mem_append.mp hc with hc | hc
        · exact hfinished c (h.finished c hc)
        · exact hfinished c (finished_of_closes hm hinv h hgone howns hperforms hc)
      · simp only [Function.update_self, haccount]
        rw [append_eq_withKey, h.received c hc, withKey_append]
    · have hreceived (c : ℕ) (hc : c ∈ (nodes i).receivers) :
          System.append s.received (System.receives op answer) c = s.received c :=
        received_of_other hwires hne answer howns hc
      refine ⟨closed, List.Subset.refl _, ?_, fun c hc => hcommitted c (h.finished c hc).2.1⟩
      refine ⟨?_, fun c hc => hfinished c (h.finished c hc), fun c hc => ?_, hsenders,
        h.senderDropped, h.receiverDropped, h.quiet⟩
      · simp only [Function.update_of_ne hne.symm]
        exact h.running
      · simp only [Function.update_of_ne hne.symm]
        rw [hreceived c hc, h.received c hc]
  | @resume j stage hgone hprog hresult =>
    refine ⟨closed, List.Subset.refl _, { h with running := ?_ }, fun _ _ => rfl⟩
    rcases eq_or_ne j i with rfl | hne
    · have hrunning := h.running
      rw [hprog] at hrunning
      simp only [Function.update_self]
      exact hgood stage _ hrunning
    · simp only [Function.update_of_ne hne.symm]
      exact h.running
  | cancel hcancels => exact absurd hcancels hquiet
  | @leave j stage hgone hprog hleaves =>
    have hleft {k : ι} (hk : s.gone k = true) : Function.update s.gone j true k = true := by
      rcases eq_or_ne k j with rfl | hne
      · exact Function.update_self ..
      · rwa [Function.update_of_ne hne]
    refine ⟨closed, List.Subset.refl _, { h with
      senderDropped := fun hc hdropped => hleft (h.senderDropped hc hdropped)
      receiverDropped := fun hc hdropped => hleft (h.receiverDropped hc hdropped) },
      fun _ _ => rfl⟩
  | @release j d st hgone hheld hst =>
    have haccount (k : ι) : (Function.update s.accounts j ((s.accounts j).after (.permitAbort d) ())
        k).received = (s.accounts k).received := by
      rcases eq_or_ne k j with rfl | hne
      · rw [Function.update_self]
        rfl
      · rw [Function.update_of_ne hne]
    refine ⟨closed, List.Subset.refl _, { h with running := ?_, received := ?_, senders := ?_ },
      fun _ _ => rfl⟩
    · simp only [haccount]
      exact h.running
    · simp only [haccount]
      exact h.received
    · intro c
      rw [← h.senders c]
      exact senders_performs hm (.permitAbort hst) c
  | @dropSender j d st hgone hmem hdropped hst =>
    have hkeep {c : ℕ} (hc : s.senderDropped c = true) :
        Function.update s.senderDropped d true c = true := by
      rcases eq_or_ne c d with rfl | hne
      · exact Function.update_self ..
      · rwa [Function.update_of_ne hne]
    refine ⟨closed, List.Subset.refl _, { h with
      finished := fun c hc => ?_, senders := fun c => ?_, senderDropped := fun {k c} hc hd => ?_ },
      fun _ _ => rfl⟩
    · obtain ⟨hc, hgone, heq⟩ := h.finished c hc
      exact ⟨hc, hkeep hgone, heq⟩
    · rcases eq_or_ne c d with rfl | hne
      · simp only [Function.update_self, if_true]
        rw [hm.senders_dropSender hst, h.senders c, hdropped]
        rfl
      · simp only [Function.update_of_ne hne]
        exact h.senders c
    · rcases eq_or_ne c d with rfl | hne
      · rwa [hwires.sender_unique hc hmem]
      · simp only [Function.update_of_ne hne] at hd
        exact h.senderDropped hc hd
  | @dropReceiver j d st hgone hmem hdropped hst =>
    refine ⟨closed, List.Subset.refl _, { h with
      senders := fun c => ?_, receiverDropped := fun {c} hc hd => ?_ }, fun _ _ => rfl⟩
    · rcases eq_or_ne c d with rfl | hne
      · simp only [Function.update_self]
        rw [hm.senders_dropReceiver hst, h.senders c]
      · simp only [Function.update_of_ne hne]
        exact h.senders c
    · rcases eq_or_ne c d with rfl | hne
      · rwa [hwires.receiver_unique hc hmem]
      · simp only [Function.update_of_ne hne] at hd
        exact h.receiverDropped hc hd

/-- **Runs**: a node is followed through every run, and what it has seen closed stays as it is. -/
theorem followed_of_reachable {good : (j : ι) → (nodes j).future.Stage → Prop}
    (hm : m.Prompt senders) (hwires : Wires nodes)
    (hkeeps : ∀ j, (nodes j).future.Keeps (nodes j).Owns (good j)) (hquiet : ¬ regime.cancels)
    (hgood : ∀ stage g, Good stage g → Prog.Wp tallied ((nodes i).future.step stage) Good g)
    (hs : Reachable regime capacity s) (h : Follows senders i Good closed s)
    (hsteps : Relation.ReflTransGen (Step regime) s s') :
    ∃ closed', closed ⊆ closed' ∧ Follows senders i Good closed' s' ∧
      ∀ c ∈ closed, s'.committed c = s.committed c := by
  induction hsteps with
  | refl => exact ⟨closed, List.Subset.refl _, h, fun _ _ => rfl⟩
  | tail hbefore hstep ih =>
    obtain ⟨closed₁, hsub₁, hfollows, hcommitted₁⟩ := ih
    have hreachable := hs.trans hbefore
    obtain ⟨closed₂, hsub₂, hnext, hcommitted₂⟩ := follows_step hm hwires hquiet hgood
      (inv_of_reachable hm.toLawful hreachable)
      (inv_of_reachable hm.toLawful (hreachable.tail hstep))
      (kept_of_reachable hkeeps hreachable) hfollows hstep
    refine ⟨closed₂, List.Subset.trans hsub₁ hsub₂, hnext, fun c hc => ?_⟩
    rw [hcommitted₂ c (hsub₁ hc), hcommitted₁ c hc]

/-- **What a node has seen closed is final.** At the end of a turn, where a node that is followed
has a tally that its stage is good for, every packet that is ever committed to a channel it has
seen closed is in the tally, in order. -/
theorem closed_final (hm : m.Prompt senders) (hwires : Wires nodes) (hquiet : ¬ regime.cancels)
    (hstart : Good (nodes i).future.start .fresh)
    (hgood : ∀ stage g, Good stage g → Prog.Wp tallied ((nodes i).future.step stage) Good g)
    (hs : Reachable regime capacity s) {stage : (nodes i).future.Stage}
    (hprog : s.progs i = .ret stage) :
    ∃ g : Tally, Good stage g ∧ ∀ c ∈ g.closed, ∀ s' : Network m nodes,
      Relation.ReflTransGen (Step regime) s s' → s'.committed c = withKey c g.received := by
  choose good hkeeps using hwires.keeps
  obtain ⟨closed, -, hfollows, -⟩ := followed_of_reachable hm hwires hkeeps hquiet hgood .refl
    (follows_initial hm (hgood _ _ hstart)) hs
  have hrunning := hfollows.running
  rw [hprog] at hrunning
  refine ⟨_, hrunning, fun c hc s' hsteps => ?_⟩
  obtain ⟨-, -, -, hcommitted⟩ := followed_of_reachable hm hwires hkeeps hquiet hgood hs hfollows
    hsteps
  obtain ⟨hmem, -, hall⟩ := hfollows.finished c hc
  rw [hcommitted c hc, ← hall, hfollows.received c hmem]

end Network

end Pureflow.Core
