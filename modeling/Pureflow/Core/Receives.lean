import Pureflow.Core.Network

/-!
The three ways to receive, run alone.

`try_recv`, `recv` and `recv_any` each have their own loop over the edges of a port. Run on the
same channels, while nobody else runs and no cancellation is requested, they return the same
packet, the first one of the first edge that has any, and report the end of the port on the same
condition.
-/

namespace Pureflow.Core

open Pureflow.Types Pureflow.Lib

section Quiet

/-- A call that leaves every channel as it is. -/
def PortOp.Idle : PortOp → Prop
  | .len _ | .isCancelled | .record _ => True
  | _ => False

/-- An environment without requests for cancellation, in which idle calls may be made and change
nothing. -/
structure Quiet {G : Type} (gh : Prog.Ghost PortOp PortOp.Answer G) : Prop where
  pre {op : PortOp} : op.Idle → ∀ g, gh.pre op g
  post {op : PortOp} : op.Idle → ∀ answer g, gh.post op answer g = g
  token {cancelled : Bool} {g : G} : gh.can .isCancelled cancelled g → cancelled = false

variable {G : Type} {gh : Prog.Ghost PortOp PortOp.Answer G} {g : G}

lemma Quiet.wp_of_idle (h : Quiet gh) {α : Type} {p : PortM α} {Q : α → G → Prop}
    (hp : p.Calls PortOp.Idle) (hQ : ∀ a, Q a g) : Prog.Wp gh p Q g := by
  induction p with
  | ret a => exact hQ a
  | call op k ih =>
    refine ⟨h.pre hp.1 g, fun answer _ => ?_⟩
    rw [h.post hp.1]
    exact ih answer (hp.2 answer)

lemma Quiet.wp_isCancelled (h : Quiet gh) {Q : Bool → G → Prop} (hQ : Q false g) :
    Prog.Wp gh PortM.isCancelled Q g := by
  have hidle : PortOp.Idle .isCancelled := trivial
  refine ⟨h.pre hidle g, fun cancelled hcancelled => ?_⟩
  obtain rfl := h.token hcancelled
  have hsame : gh.post .isCancelled false g = g := h.post hidle false g
  show Q false (gh.post .isCancelled false g)
  rwa [hsame]

lemma idle_recordQueuePressure (ports : PortsIn) (port : InputPortHandle)
    (kind : QueuePressureBoundaryKind) :
    (ports.recordQueuePressure port kind).Calls PortOp.Idle := by
  have go (receivers : List Receiver) :
      (InputPortHandle.queuedCount.go receivers).Calls PortOp.Idle := by
    induction receivers with
    | nil => exact trivial
    | cons receiver rest ih =>
      exact Prog.calls_bind (Prog.calls_perform trivial) fun _ =>
        Prog.calls_bind ih fun _ => trivial
  unfold PortsIn.recordQueuePressure
  split
  · exact Prog.calls_bind (go port.ends) fun _ => calls_record (by exact trivial) _
  · exact trivial

lemma idle_recordReceived (ports : PortsIn) (port : InputPortHandle)
    (answer : Except PortRecvError (Option PortPacket)) :
    (ports.recordReceived port answer).Calls PortOp.Idle := by
  rcases answer with err | _ | packet
  · cases err with
    | disconnected portId => exact idle_recordQueuePressure ports port _
    | unknownPort portId | cancelled portId => exact trivial
  · exact idle_recordQueuePressure ports port _
  · exact Prog.calls_bind (idle_recordQueuePressure ports port _) fun _ =>
      calls_record (by exact trivial) _

lemma idle_recordAttempts (ports : PortsIn) (rest : List InputPortHandle) :
    (ports.recordAttempts rest).Calls PortOp.Idle := by
  induction rest with
  | nil => exact trivial
  | cons port rest ih =>
    exact Prog.calls_bind (idle_recordQueuePressure ports port _) fun _ => ih

end Quiet

section Alone

variable {m : Mpsc PortPacket} {α : Type}

/-- The program runs to its end while nobody else runs and no cancellation is requested. -/
def RunsAlone (m : Mpsc PortPacket) (p : PortM α) (before : ℕ → m.State) (a : α)
    (after : ℕ → m.State) : Prop :=
  ∃ events, p.Yields events a ∧ Network.Plays m events before after ∧ ¬ SeesRequest events

/-- The program has such a run, and `Q` holds of what every one of them returns and leaves. -/
def Leads (m : Mpsc PortPacket) (p : PortM α) (before : ℕ → m.State)
    (Q : α → (ℕ → Channel PortPacket) → Prop) : Prop :=
  (∃ a after, RunsAlone m p before a after) ∧
    ∀ a after, RunsAlone m p before a after → Q a fun c => m.view (after c)

/-- Receives on channels with these numbers of senders, of which nobody else makes use. -/
def alone (senders : ℕ → ℕ) : Prog.Ghost PortOp PortOp.Answer (ℕ → Channel PortPacket) where
  pre
    | .tryReserve _, _ | .permitSend _ _, _ | .permitAbort _, _ => False
    | _, _ => True
  can
    | .tryRecv c, answer, view => answer = (view c).tryRecv (senders c)
    | .pollRecv c, answer, view => answer = (view c).pollRecv (senders c)
    | .isCancelled, cancelled, _ => cancelled = false
    | _, _, _ => True
  post
    | .tryRecv c, _, view | .pollRecv c, _, view => Function.update view c (view c).pop
    | _, _, view => view

lemma quiet_alone (senders : ℕ → ℕ) : Quiet (alone senders) where
  pre {op} hop _ := by cases op <;> first | exact trivial | cases hop
  post {op} hop _ _ := by cases op <;> first | rfl | cases hop
  token h := h

lemma not_seesRequest_singleton {op : PortOp} (h : op ≠ .isCancelled) (answer : op.Answer) :
    ¬ SeesRequest [⟨op, answer⟩] := by
  intro hmem
  exact h (congrArg Sigma.fst (List.mem_singleton.mp hmem)).symm

lemma exists_performs {senders : m.State → ℕ} (hm : m.Prompt senders) (op : PortOp)
    (before : ℕ → m.State) : ∃ answer next, System.Performs m op answer before next ∧
      ¬ SeesRequest [⟨op, answer⟩] := by
  cases op with
  | tryReserve c =>
    obtain ⟨answer, st, h⟩ := hm.can_reserve (before c)
    exact ⟨answer, _, .tryReserve h, not_seesRequest_singleton (by simp) _⟩
  | permitSend c packet =>
    obtain ⟨st, h⟩ := hm.can_send (before c) packet
    exact ⟨(), _, .permitSend h, not_seesRequest_singleton (by simp) _⟩
  | permitAbort c =>
    obtain ⟨st, h⟩ := hm.can_abort (before c)
    exact ⟨(), _, .permitAbort h, not_seesRequest_singleton (by simp) _⟩
  | tryRecv c =>
    obtain ⟨answer, st, h⟩ := hm.can_recv (before c)
    exact ⟨answer, _, .tryRecv h, not_seesRequest_singleton (by simp) _⟩
  | pollRecv c =>
    obtain ⟨answer, st, h⟩ := hm.can_poll (before c)
    exact ⟨answer, _, .pollRecv h, not_seesRequest_singleton (by simp) _⟩
  | len c => exact ⟨_, _, .len, not_seesRequest_singleton (by simp) _⟩
  | isCancelled =>
    refine ⟨false, _, .isCancelled false, ?_⟩
    rw [seesRequest_cons]
    simp [SeesRequest]
  | record r => exact ⟨.ok (), _, .record (.ok ()), not_seesRequest_singleton (by simp) _⟩

lemma exists_runsAlone {senders : m.State → ℕ} (hm : m.Prompt senders) (p : PortM α)
    (before : ℕ → m.State) : ∃ a after, RunsAlone m p before a after := by
  induction p generalizing before with
  | ret a => exact ⟨a, before, [], .ret, .nil, by simp [SeesRequest]⟩
  | call op k ih =>
    obtain ⟨answer, next, hperforms, hquiet⟩ := exists_performs hm op before
    obtain ⟨a, after, events, hyields, hplays, hrest⟩ := ih answer next
    refine ⟨a, after, ⟨op, answer⟩ :: events, .call hyields, .cons hperforms hplays, ?_⟩
    rw [← List.singleton_append, seesRequest_append, not_or]
    exact ⟨hquiet, hrest⟩

lemma view_update (channels : ℕ → m.State) (c : ℕ) (st : m.State) :
    (fun d => m.view (Function.update channels c st d)) =
      Function.update (fun d => m.view (channels d)) c (m.view st) := by
  funext d
  rcases eq_or_ne d c with rfl | hne
  · simp
  · simp [hne]

/-- **One call alone**: it is answered as the queues and the senders have it. -/
lemma alone_of_performs {senders : m.State → ℕ} (hm : m.Definite senders) {op : PortOp}
    {answer : op.Answer} {before next : ℕ → m.State}
    (hperforms : System.Performs m op answer before next) (hquiet : ¬ SeesRequest [⟨op, answer⟩])
    (hpre : (alone fun c => senders (before c)).pre op fun c => m.view (before c)) :
    (alone fun c => senders (before c)).can op answer (fun c => m.view (before c)) ∧
    (fun c => m.view (next c)) =
      (alone fun c => senders (before c)).post op answer (fun c => m.view (before c)) ∧
    (fun c => senders (next c)) = fun c => senders (before c) := by
  have hsame {c : ℕ} {st : m.State} (hst : senders st = senders (before c)) :
      (fun d => senders (Function.update before c st d)) = fun d => senders (before d) := by
    funext d
    rcases eq_or_ne d c with rfl | hne
    · simp [hst]
    · simp [hne]
  cases hperforms with
  | tryReserve | permitSend | permitAbort => exact hpre.elim
  | @tryRecv _ c answer st hst =>
    obtain ⟨hanswer, hview⟩ := hm.tryRecv_eq hst
    refine ⟨hanswer, ?_, hsame (hm.senders_recv hst)⟩
    rw [view_update, hview]
    rfl
  | @pollRecv _ c answer st hst =>
    obtain ⟨hanswer, hview⟩ := hm.pollRecv_eq hst
    refine ⟨hanswer, ?_, hsame (hm.senders_poll hst)⟩
    rw [view_update, hview]
    rfl
  | len => exact ⟨trivial, rfl, rfl⟩
  | isCancelled cancelled =>
    have hcancelled : cancelled = false := by
      cases cancelled with
      | false => rfl
      | true => exact absurd (by simp [SeesRequest]) hquiet
    exact ⟨hcancelled, rfl, rfl⟩
  | record => exact ⟨trivial, rfl, rfl⟩

/-- **Running alone**: what holds of a program for the queues holds of its runs. -/
theorem leads_of_wp {senders : m.State → ℕ} (hm : m.Definite senders) {p : PortM α}
    {before : ℕ → m.State} {Q : α → (ℕ → Channel PortPacket) → Prop}
    (hp : Prog.Wp (alone fun c => senders (before c)) p Q fun c => m.view (before c)) :
    Leads m p before Q := by
  refine ⟨exists_runsAlone hm.toPrompt p before, ?_⟩
  rintro a after ⟨events, hyields, hplays, hquiet⟩
  induction hyields generalizing before with
  | ret =>
    cases hplays
    exact hp
  | @call op k answer rest a hyields ih =>
    cases hplays with
    | cons hperforms hrest =>
      rw [← List.singleton_append, seesRequest_append, not_or] at hquiet
      obtain ⟨hpre, hnext⟩ := hp
      obtain ⟨hcan, hview, hsenders⟩ := alone_of_performs hm hperforms hquiet.1 hpre
      have hlater := hnext answer hcan
      rw [← hview, ← hsenders] at hlater
      exact ih hlater hrest hquiet.2

end Alone

section Scans

variable {senders : ℕ → ℕ} {view : ℕ → Channel PortPacket} {receiver : Receiver}
  {rest : List Receiver}

/-- The first packet of the first edge that has any, with its channel. -/
def firstQueued (view : ℕ → Channel PortPacket) (receivers : List Receiver) :
    Option (ℕ × PortPacket) :=
  receivers.findSome? fun r => (view r.channel).queue.head?.map (r.channel, ·)

/-- The channels once this packet is taken. -/
def taking (view : ℕ → Channel PortPacket) : Option (ℕ × PortPacket) → ℕ → Channel PortPacket
  | some (c, _) => Function.update view c (view c).pop
  | none => view

/-- What a scan of these edges finds on a port, where `n` edges before them were disconnected. -/
def scanned (senders : ℕ → ℕ) (view : ℕ → Channel PortPacket) (h : InputPortHandle)
    (receivers : List Receiver) (n : ℕ) : InputPortHandle.InputPollResult :=
  match firstQueued view receivers with
  | some (_, packet) => .packet packet
  | none =>
    if n + receivers.countP (senders ·.channel = 0) = h.ends.length then .closed else .pending

lemma firstQueued_queued {packet : PortPacket} {queue : List PortPacket}
    (h : (view receiver.channel).queue = packet :: queue) :
    firstQueued view (receiver :: rest) = some (receiver.channel, packet) := by
  simp [firstQueued, h]

lemma firstQueued_empty (h : (view receiver.channel).queue = []) :
    firstQueued view (receiver :: rest) = firstQueued view rest := by
  simp [firstQueued, h]

lemma firstQueued_eq_none {receivers : List Receiver} :
    firstQueued view receivers = none ↔ ∀ r ∈ receivers, (view r.channel).queue = [] := by
  simp [firstQueued]

lemma scanned_gone {h : InputPortHandle} (hempty : (view receiver.channel).queue = [])
    (hgone : senders receiver.channel = 0) (n : ℕ) :
    scanned senders view h (receiver :: rest) n = scanned senders view h rest (n + 1) := by
  have hcount : n + (receiver :: rest).countP (senders ·.channel = 0) =
      n + 1 + rest.countP (senders ·.channel = 0) := by
    rw [List.countP_cons_of_pos (by simpa using hgone)]
    omega
  rw [scanned, scanned, firstQueued_empty hempty, hcount]

lemma scanned_open {h : InputPortHandle} (hempty : (view receiver.channel).queue = [])
    (hopen : senders receiver.channel ≠ 0) (n : ℕ) :
    scanned senders view h (receiver :: rest) n = scanned senders view h rest n := by
  rw [scanned, scanned, firstQueued_empty hempty,
    List.countP_cons_of_neg (by simpa using hopen)]

lemma alone_pollRecv {c : ℕ}
    {Q : Poll (Except RecvError PortPacket) → (ℕ → Channel PortPacket) → Prop}
    (h : Q ((view c).pollRecv (senders c)) (Function.update view c (view c).pop)) :
    Prog.Wp (alone senders) (PortM.pollRecv c) Q view := by
  refine ⟨trivial, fun answer hanswer => ?_⟩
  obtain rfl : answer = (view c).pollRecv (senders c) := hanswer
  exact h

lemma alone_tryRecv {c : ℕ} {Q : Except RecvError PortPacket → (ℕ → Channel PortPacket) → Prop}
    (h : Q ((view c).tryRecv (senders c)) (Function.update view c (view c).pop)) :
    Prog.Wp (alone senders) (PortM.tryRecv c) Q view := by
  refine ⟨trivial, fun answer hanswer => ?_⟩
  obtain rfl : answer = (view c).tryRecv (senders c) := hanswer
  exact h

lemma pollAny_go_alone (h : InputPortHandle) (receivers : List Receiver) (n : ℕ) :
    Prog.Wp (alone senders) (InputPortHandle.pollAny.go h receivers n)
      (fun found view' => found = scanned senders view h receivers n ∧
        view' = taking view (firstQueued view receivers)) view := by
  induction receivers generalizing n with
  | nil =>
    rw [InputPortHandle.pollAny.go]
    by_cases hn : n = h.ends.length
    · rw [if_pos (by simpa using hn)]
      exact ⟨by simp [scanned, firstQueued, hn], rfl⟩
    · rw [if_neg (by simpa using hn)]
      exact ⟨by simp [scanned, firstQueued, hn], rfl⟩
  | cons receiver rest ih =>
    rw [InputPortHandle.pollAny.go, Prog.wp_bind]
    refine alone_pollRecv ?_
    unfold Channel.pollRecv
    cases hqueue : (view receiver.channel).queue with
    | cons packet queue =>
      rw [scanned, firstQueued_queued hqueue]
      exact ⟨rfl, rfl⟩
    | nil =>
      rw [Channel.pop_of_empty hqueue, Function.update_eq_self, firstQueued_empty hqueue]
      by_cases hgone : senders receiver.channel = 0
      · rw [scanned_gone hqueue hgone]
        simpa only [hgone, if_true] using ih (n + 1)
      · rw [scanned_open hqueue hgone]
        simpa only [hgone, if_false] using ih n

/-- What `try_recv` makes of a scan. -/
def tryAnswer (h : InputPortHandle) :
    InputPortHandle.InputPollResult → Except PortRecvError (Option PortPacket)
  | .packet packet => .ok (some packet)
  | .pending => .ok none
  | .closed => if h.ends = [] then .ok none else .error (.disconnected h.portId)
  | .cancelled => .error (.cancelled h.portId)

lemma tryRecv_go_alone (h : InputPortHandle) (receivers : List Receiver) (n : ℕ) :
    Prog.Wp (alone senders) (InputPortHandle.tryRecv.go h receivers n)
      (fun answer view' => answer = tryAnswer h (scanned senders view h receivers n) ∧
        view' = taking view (firstQueued view receivers)) view := by
  induction receivers generalizing n with
  | nil =>
    rw [InputPortHandle.tryRecv.go]
    have hscanned : scanned senders view h [] n =
        if n = h.ends.length then .closed else .pending := by simp [scanned, firstQueued]
    rw [hscanned]
    by_cases hn : n = h.ends.length
    · by_cases hends : h.ends = []
      · rw [if_neg (by simp [hends]), if_pos hn]
        exact ⟨by simp [tryAnswer, hends], rfl⟩
      · rw [if_pos (by simp [hends, hn]), if_pos hn]
        exact ⟨by simp [tryAnswer, hends], rfl⟩
    · rw [if_neg (by simp [hn]), if_neg hn]
      exact ⟨rfl, rfl⟩
  | cons receiver rest ih =>
    rw [InputPortHandle.tryRecv.go, Prog.wp_bind]
    refine alone_tryRecv ?_
    unfold Channel.tryRecv
    cases hqueue : (view receiver.channel).queue with
    | cons packet queue =>
      rw [scanned, firstQueued_queued hqueue]
      exact ⟨rfl, rfl⟩
    | nil =>
      rw [Channel.pop_of_empty hqueue, Function.update_eq_self, firstQueued_empty hqueue]
      by_cases hgone : senders receiver.channel = 0
      · rw [scanned_gone hqueue hgone]
        simpa only [hgone, if_true] using ih (n + 1)
      · rw [scanned_open hqueue hgone]
        simpa only [hgone, if_false] using ih n

end Scans

section Agreement

variable {senders : ℕ → ℕ} {view : ℕ → Channel PortPacket} {port : InputPortHandle}

/-- What a scan of all edges of a port finds. -/
abbrev found (senders : ℕ → ℕ) (view : ℕ → Channel PortPacket) (port : InputPortHandle) :
    InputPortHandle.InputPollResult :=
  scanned senders view port port.ends 0

/-- All edges of a port are empty. -/
abbrev Drained (view : ℕ → Channel PortPacket) (port : InputPortHandle) : Prop :=
  ∀ r ∈ port.ends, (view r.channel).queue = []

lemma found_of_drained (h : Drained view port) :
    found senders view port =
      if ∀ r ∈ port.ends, senders r.channel = 0 then .closed else .pending := by
  unfold found scanned
  rw [firstQueued_eq_none.mpr h]
  simp only [zero_add, List.countP_eq_length, decide_eq_true_eq]

lemma found_of_queued {c : ℕ} {packet : PortPacket}
    (h : firstQueued view port.ends = some (c, packet)) :
    found senders view port = .packet packet := by
  unfold found scanned
  rw [h]

lemma found_eq_packet {packet : PortPacket} :
    found senders view port = .packet packet ↔
      ∃ c, firstQueued view port.ends = some (c, packet) := by
  constructor
  · intro h
    cases hfirst : firstQueued view port.ends with
    | some taken =>
      rw [found_of_queued hfirst] at h
      cases h
      exact ⟨taken.1, rfl⟩
    | none =>
      rw [found_of_drained (firstQueued_eq_none.mp hfirst)] at h
      split at h <;> cases h
  · rintro ⟨c, hfirst⟩
    exact found_of_queued hfirst

lemma drained_of_found (h : ∀ packet, found senders view port ≠ .packet packet) :
    Drained view port := by
  refine firstQueued_eq_none.mp ?_
  cases hfirst : firstQueued view port.ends with
  | none => rfl
  | some taken => exact absurd (found_of_queued hfirst) (h taken.2)

lemma found_eq_closed : found senders view port = .closed ↔
    ∀ r ∈ port.ends, (view r.channel).queue = [] ∧ senders r.channel = 0 := by
  constructor
  · intro h
    have hdrained : Drained view port := drained_of_found fun packet => by rw [h]; simp
    rw [found_of_drained hdrained] at h
    have hgone : ∀ r ∈ port.ends, senders r.channel = 0 := by
      by_contra hopen
      rw [if_neg hopen] at h
      cases h
    exact fun r hr => ⟨hdrained r hr, hgone r hr⟩
  · intro h
    rw [found_of_drained fun r hr => (h r hr).1, if_pos fun r hr => (h r hr).2]

lemma found_eq_pending : found senders view port = .pending ↔
    Drained view port ∧ ∃ r ∈ port.ends, senders r.channel ≠ 0 := by
  constructor
  · intro h
    have hdrained : Drained view port := drained_of_found fun packet => by rw [h]; simp
    rw [found_of_drained hdrained] at h
    refine ⟨hdrained, ?_⟩
    by_contra hgone
    push Not at hgone
    rw [if_pos hgone] at h
    cases h
  · rintro ⟨hdrained, r, hr, hopen⟩
    rw [found_of_drained hdrained, if_neg fun hgone => hopen (hgone r hr)]

/-- What a receive does to its port: it returns a packet if there is one, the first one of the
first edge with any, and takes it; it reports the end of a connected port when all edges are empty
and have lost their senders; and it waits, or has nothing, when a sender is left. -/
structure Delivers (senders : ℕ → ℕ) (view : ℕ → Channel PortPacket) (port : InputPortHandle)
    (view' : ℕ → Channel PortPacket) (returns : PortPacket → Prop) (ended waits : Prop) :
    Prop where
  packet (packet : PortPacket) : returns packet ↔
    ∃ c, firstQueued view port.ends = some (c, packet)
  taken : view' = taking view (firstQueued view port.ends)
  ended : port.ends ≠ [] →
    (ended ↔ ∀ r ∈ port.ends, (view r.channel).queue = [] ∧ senders r.channel = 0)
  waits : port.ends ≠ [] →
    (waits ↔ Drained view port ∧ ∃ r ∈ port.ends, senders r.channel ≠ 0)

lemma delivers_of_found {returns : PortPacket → Prop} {ended waits : Prop}
    (hreturns : ∀ packet, returns packet ↔ found senders view port = .packet packet)
    (hended : port.ends ≠ [] → (ended ↔ found senders view port = .closed))
    (hwaits : port.ends ≠ [] → (waits ↔ found senders view port = .pending)) :
    Delivers senders view port (taking view (firstQueued view port.ends)) returns ended waits where
  packet packet := (hreturns packet).trans found_eq_packet
  taken := rfl
  ended hends := (hended hends).trans found_eq_closed
  waits hends := (hwaits hends).trans found_eq_pending

/-- What `recv` makes of a scan. -/
def recvAnswer (port : InputPortHandle) :
    InputPortHandle.InputPollResult → Poll (Except PortRecvError (Option PortPacket))
  | .pending => .pending
  | result => .ready (tryAnswer port result)

/-- What `recv_any` makes of a scan of its only port. -/
def anyAnswer (port : InputPortHandle) :
    InputPortHandle.InputPollResult → Poll (Except PortRecvError (Option (PortId × PortPacket)))
  | .packet packet => .ready (.ok (some (port.portId, packet)))
  | .pending => .pending
  | .closed => .ready (.ok none)
  | .cancelled => .ready (.error (.cancelled port.portId))

lemma tryRecv_alone (ports : PortsIn) {portId : PortId}
    (hport : PortHandle.find ports.ports portId = some port) :
    Prog.Wp (alone senders) (ports.tryRecv portId) (fun answer view' =>
      answer = tryAnswer port (found senders view port) ∧
        view' = taking view (firstQueued view port.ends)) view := by
  have hquiet := quiet_alone senders
  simp only [PortsIn.tryRecv, hport]
  rw [Prog.wp_bind]
  refine hquiet.wp_of_idle (idle_recordQueuePressure ports port _) fun _ => ?_
  rw [Prog.wp_bind]
  refine (tryRecv_go_alone port port.ends 0).mono fun answer view' h => ?_
  rw [Prog.wp_bind]
  exact hquiet.wp_of_idle (idle_recordReceived ports port answer) fun _ => h

lemma recv_alone (h : InputPortHandle) :
    Prog.Wp (alone senders) (InputPortHandle.recv h) (fun answer view' =>
      answer = recvAnswer h (found senders view h) ∧
        view' = taking view (firstQueued view h.ends)) view := by
  unfold InputPortHandle.recv
  split
  · next hempty =>
    have hends : h.ends = [] := List.isEmpty_iff.mp hempty
    have hfound : found senders view h = .closed := by
      rw [found_eq_closed, hends]
      exact List.forall_mem_nil _
    rw [hfound, hends]
    exact ⟨by simp [recvAnswer, tryAnswer, hends], rfl⟩
  · next hconnected =>
    have hends : h.ends ≠ [] := fun hends => hconnected (by simp [hends])
    rw [Prog.wp_bind]
    refine (quiet_alone senders).wp_isCancelled ?_
    simp only [Bool.false_eq_true, if_false, Prog.wp_bind]
    refine (pollAny_go_alone h h.ends 0).mono fun result view' hr => ?_
    obtain ⟨hresult, hview⟩ := hr
    have hfound : found senders view h = result := hresult.symm
    rw [hfound]
    cases result with
    | packet packet | pending | cancelled => exact ⟨rfl, hview⟩
    | closed => exact ⟨by simp [recvAnswer, tryAnswer, hends], hview⟩

lemma recvPoll_alone (ports : PortsIn) (port : InputPortHandle) :
    Prog.Wp (alone senders) (ports.recvPoll port) (fun answer view' =>
      answer = recvAnswer port (found senders view port) ∧
        view' = taking view (firstQueued view port.ends)) view := by
  rw [PortsIn.recvPoll, Prog.wp_bind]
  refine (recv_alone port).mono fun poll view' h => ?_
  rcases poll with answer | _
  · rw [Prog.wp_bind]
    exact (quiet_alone senders).wp_of_idle (idle_recordReceived ports port answer) fun _ => h
  · exact h

lemma portsIn_recv_alone (ports : PortsIn) {portId : PortId}
    (hport : PortHandle.find ports.ports portId = some port) :
    Prog.Wp (alone senders) (ports.recv portId) (fun answer view' =>
      answer = recvAnswer port (found senders view port) ∧
        view' = taking view (firstQueued view port.ends)) view := by
  simp only [PortsIn.recv, hport]
  rw [Prog.wp_bind]
  exact (quiet_alone senders).wp_of_idle (idle_recordQueuePressure ports port _) fun _ =>
    recvPoll_alone ports port

lemma pollAny_alone (h : InputPortHandle) :
    Prog.Wp (alone senders) (InputPortHandle.pollAny h) (fun result view' =>
      result = found senders view h ∧ view' = taking view (firstQueued view h.ends)) view := by
  unfold InputPortHandle.pollAny
  split
  · next hempty =>
    have hends : h.ends = [] := List.isEmpty_iff.mp hempty
    have hfound : found senders view h = .closed := by
      rw [found_eq_closed, hends]
      exact List.forall_mem_nil _
    rw [hfound, hends]
    exact ⟨rfl, rfl⟩
  · exact pollAny_go_alone h h.ends 0

/-- Inputs restricted to one port. -/
def PortsIn.only (ports : PortsIn) (port : InputPortHandle) : PortsIn :=
  { ports with portIds := [port.portId], ports := [port] }

lemma recvAnyPoll_alone (ports : PortsIn) (port : InputPortHandle) :
    Prog.Wp (alone senders) (ports.only port).recvAnyPoll (fun answer view' =>
      answer = anyAnswer port (found senders view port) ∧
        view' = taking view (firstQueued view port.ends)) view := by
  have hquiet := quiet_alone senders
  rw [PortsIn.recvAnyPoll, Prog.wp_bind]
  refine hquiet.wp_isCancelled ?_
  simp only [Bool.false_eq_true, if_false, PortsIn.only, PortsIn.recvAnyPoll.go, Prog.wp_bind]
  refine (pollAny_alone port).mono fun result view' h => ?_
  obtain ⟨hresult, hview⟩ := h
  rw [← hresult]
  cases result with
  | packet packet =>
    simp only [Prog.wp_bind]
    refine hquiet.wp_of_idle (idle_recordQueuePressure _ port _) fun _ => ?_
    exact hquiet.wp_of_idle (calls_record (by exact trivial) _) fun _ => ⟨rfl, hview⟩
  | closed =>
    simp only [Prog.wp_bind]
    exact hquiet.wp_of_idle (idle_recordQueuePressure _ port _) fun _ => ⟨rfl, hview⟩
  | pending | cancelled => exact ⟨rfl, hview⟩

lemma recvAny_alone (ports : PortsIn) (port : InputPortHandle) :
    Prog.Wp (alone senders) (ports.only port).recvAny (fun answer view' =>
      answer = anyAnswer port (found senders view port) ∧
        view' = taking view (firstQueued view port.ends)) view := by
  unfold PortsIn.recvAny
  rw [if_neg (by simp [PortsIn.only]), Prog.wp_bind]
  exact (quiet_alone senders).wp_of_idle (idle_recordAttempts _ _) fun _ =>
    recvAnyPoll_alone ports port

lemma delivers_tryAnswer {answer : Except PortRecvError (Option PortPacket)}
    {view' : ℕ → Channel PortPacket}
    (h : answer = tryAnswer port (found senders view port) ∧
      view' = taking view (firstQueued view port.ends)) :
    Delivers senders view port view'
      (fun packet => answer = .ok (some packet)) (answer = .error (.disconnected port.portId))
      (answer = .ok none) := by
  obtain ⟨rfl, rfl⟩ := h
  refine delivers_of_found (fun packet => ?_) (fun hends => ?_) fun hends => ?_
  all_goals
    cases hfound : found senders view port with
    | packet packet | pending | cancelled => simp [tryAnswer]
    | closed => by_cases hempty : port.ends = [] <;> simp_all [tryAnswer]

lemma delivers_recvAnswer {answer : Poll (Except PortRecvError (Option PortPacket))}
    {view' : ℕ → Channel PortPacket}
    (h : answer = recvAnswer port (found senders view port) ∧
      view' = taking view (firstQueued view port.ends)) :
    Delivers senders view port view'
      (fun packet => answer = .ready (.ok (some packet)))
      (answer = .ready (.error (.disconnected port.portId))) (answer = .pending) := by
  obtain ⟨rfl, rfl⟩ := h
  refine delivers_of_found (fun packet => ?_) (fun hends => ?_) fun hends => ?_
  all_goals
    cases hfound : found senders view port with
    | packet packet | pending | cancelled => simp [recvAnswer, tryAnswer]
    | closed => by_cases hempty : port.ends = [] <;> simp_all [recvAnswer, tryAnswer]

lemma delivers_anyAnswer
    {answer : Poll (Except PortRecvError (Option (PortId × PortPacket)))}
    {view' : ℕ → Channel PortPacket}
    (h : answer = anyAnswer port (found senders view port) ∧
      view' = taking view (firstQueued view port.ends)) :
    Delivers senders view port view'
      (fun packet => answer = .ready (.ok (some (port.portId, packet))))
      (answer = .ready (.ok none)) (answer = .pending) := by
  obtain ⟨rfl, rfl⟩ := h
  refine delivers_of_found (fun packet => ?_) (fun hends => ?_) fun hends => ?_
  all_goals cases found senders view port <;> simp [anyAnswer]

/-- The ways to receive on a port agree on the channels as they are: the synchronous one, and a
first or a later poll of the two that wait, of which one waits on this port only. -/
structure ReceivesAgree (m : Mpsc PortPacket) (senders : m.State → ℕ) (ports : PortsIn)
    (port : InputPortHandle) (before : ℕ → m.State) : Prop where
  tryRecv : Leads m (ports.tryRecv port.portId) before fun answer view' =>
    Delivers (fun c => senders (before c)) (fun c => m.view (before c)) port view'
      (fun packet => answer = .ok (some packet)) (answer = .error (.disconnected port.portId))
      (answer = .ok none)
  recv : ∀ poll ∈ [ports.recv port.portId, ports.recvPoll port], Leads m poll before
    fun answer view' =>
      Delivers (fun c => senders (before c)) (fun c => m.view (before c)) port view'
        (fun packet => answer = .ready (.ok (some packet)))
        (answer = .ready (.error (.disconnected port.portId))) (answer = .pending)
  recvAny : ∀ poll ∈ [(ports.only port).recvAny, (ports.only port).recvAnyPoll], Leads m poll before
    fun answer view' =>
      Delivers (fun c => senders (before c)) (fun c => m.view (before c)) port view'
        (fun packet => answer = .ready (.ok (some (port.portId, packet))))
        (answer = .ready (.ok none)) (answer = .pending)

/-- **The receive paths agree.** -/
theorem receivesAgree {m : Mpsc PortPacket} {senders : m.State → ℕ} (hm : m.Definite senders)
    (ports : PortsIn) (hport : PortHandle.find ports.ports port.portId = some port)
    (before : ℕ → m.State) : ReceivesAgree m senders ports port before := by
  constructor
  · exact leads_of_wp hm ((tryRecv_alone ports hport).mono fun _ _ => delivers_tryAnswer)
  · refine List.forall_mem_cons.mpr ⟨?_, List.forall_mem_singleton.mpr ?_⟩
    · exact leads_of_wp hm
        ((portsIn_recv_alone ports hport).mono fun _ _ => delivers_recvAnswer)
    · exact leads_of_wp hm ((recvPoll_alone ports port).mono fun _ _ => delivers_recvAnswer)
  · refine List.forall_mem_cons.mpr ⟨?_, List.forall_mem_singleton.mpr ?_⟩
    · exact leads_of_wp hm ((recvAny_alone ports port).mono fun _ _ => delivers_anyAnswer)
    · exact leads_of_wp hm ((recvAnyPoll_alone ports port).mono fun _ _ => delivers_anyAnswer)

end Agreement

end Pureflow.Core
