import Pureflow.Core.OneShot
import Pureflow.Lib.Digraph

/-!
Networks whose nodes receive from their channels to the end, send into each of their channels
once, and return.

In such a network no node finds its ports in its way, in no reachable state: a channel has room for
the one packet that is sent into it, its receiver does not go before its sender, and no
cancellation is requested. This holds for all nodes at once, as each relies on what the others have
done so far.
-/

namespace Pureflow.Core

open Pureflow.Types Pureflow.Lib

/-- How a node leaves: it holds no reservation, has sent into all its channels, and has seen those
it receives from closed. -/
structure Standing.Finished (node : NetworkNode) (g : Standing) : Prop where
  held : g.account.held = 0
  sent : node.senders ⊆ g.sent
  closed : node.receivers ⊆ g.closed

/-- A node that leaves in this way, and without an error: what is known of it at each stage, and
how much it has left to do, which is less after every turn in which it does not wait. -/
structure SendsOnce (node : NetworkNode) where
  Good : node.future.Stage → Standing → Prop
  left : node.future.Stage → Standing → ℕ
  start : Good node.future.start .fresh
  turn (awake : Bool) {stage : node.future.Stage} {g : Standing} : Good stage g →
    Prog.Wp (oneShot awake node.receivers node.senders) (node.future.step stage)
      (fun stage' g' => Good stage' g' ∧
        (awake = true → node.future.result stage = none → left stage' g' < left stage g)) g
  returns {stage : node.future.Stage} {g : Standing} {result : Except PureflowError Unit} :
    Good stage g → node.future.result stage = some result → result = .ok () ∧ g.Finished node

/-- Every channel has one sender, and at most one receiver, and no node is behind itself. -/
structure Pipes {ι : Type} (nodes : ι → NetworkNode) : Prop where
  sender_unique {i j : ι} {c : ℕ} : c ∈ (nodes i).senders → c ∈ (nodes j).senders → i = j
  receiver_unique {i j : ι} {c : ℕ} : c ∈ (nodes i).receivers → c ∈ (nodes j).receivers → i = j
  sourced {j : ι} {c : ℕ} : c ∈ (nodes j).receivers → ∃ i, c ∈ (nodes i).senders
  acyclic : Digraph.Acyclic fun i j => ∃ c, c ∈ (nodes i).senders ∧ c ∈ (nodes j).receivers

namespace Network

variable {m : Mpsc PortPacket} {senders : m.State → ℕ} {ι : Type} {nodes : ι → NetworkNode}
  {conduct : (i : ι) → SendsOnce (nodes i)} {regime : Regime} {capacity : ℕ → ℕ}
  {closed : ι → List ℕ} {s s' : Network m nodes}

/-- The account of a node, with the channels it has seen closed. -/
def standing (s : Network m nodes) (closed : ι → List ℕ) (i : ι) : Standing :=
  ⟨s.accounts i, closed i⟩

/-- What holds of every reachable state. -/
structure Flows (senders : m.State → ℕ) (conduct : (i : ι) → SendsOnce (nodes i))
    (closed : ι → List ℕ) (s : Network m nodes) : Prop where
  running (i : ι) : s.gone i = false →
    Prog.Wp (oneShot false (nodes i).receivers (nodes i).senders) (s.progs i) (conduct i).Good
      (s.standing closed i)
  finished (i : ι) : s.gone i = true → (s.standing closed i).Finished (nodes i)
  returned (i : ι) : s.gone i = true → s.Returned i (.ok ())
  held (i : ι) : ∀ c ∈ (s.accounts i).held, c ∈ (nodes i).senders
  once (i : ι) (c : ℕ) :
    (s.accounts i).held.count c + (s.standing closed i).sent.count c ≤ 1
  closed (i : ι) : ∀ c ∈ closed i, s.senderDropped c = true ∧ s.received c = s.committed c
  committed {i : ι} {c : ℕ} : c ∈ (nodes i).senders →
    s.committed c = withKey c (s.accounts i).committed
  received {i : ι} {c : ℕ} : c ∈ (nodes i).receivers →
    s.received c = withKey c (s.accounts i).received
  senders (c : ℕ) : senders (s.channels c) = if s.senderDropped c then 0 else 1
  senderDropped {i : ι} {c : ℕ} : c ∈ (nodes i).senders → s.senderDropped c = true →
    s.gone i = true
  receiverDropped {c : ℕ} : s.receiverDropped c = true →
    ∃ i, c ∈ (nodes i).receivers ∧ s.gone i = true
  quiet : s.cancelled = false

lemma flows_initial (hm : m.Prompt senders) :
    Flows senders conduct (fun _ => []) (initial m nodes capacity) where
  running i _ := ((conduct i).turn false (conduct i).start).mono fun _ _ h => h.1
  finished i h := by cases h
  returned i h := by cases h
  held i c h := by cases h
  once i c := by simp [initial, standing, Standing.sent, Account.holding]
  closed i c h := by cases h
  committed _ := rfl
  received _ := rfl
  senders c := hm.senders_channel _
  senderDropped _ h := by cases h
  receiverDropped h := by cases h
  quiet := rfl

lemma length_committed (h : Flows senders conduct closed s) {i : ι} {c : ℕ}
    (hc : c ∈ (nodes i).senders) :
    (s.committed c).length = (s.standing closed i).sent.count c := by
  rw [h.committed hc, withKey, List.length_map, ← List.countP_eq_length_filter, Standing.sent,
    List.count, List.countP_map]
  exact List.countP_congr fun sent _ => by simp

section Answers

variable [Fintype ι]

lemma outstanding_count (hpipes : Pipes nodes) (h : Flows senders conduct closed s) {i : ι} {c : ℕ}
    (hc : c ∈ (nodes i).senders) :
    (outstanding s.accounts).count c = (s.accounts i).held.count c := by
  classical
  rw [outstanding_split _ i, Multiset.count_add, Nat.add_eq_right, Multiset.count_eq_zero]
  intro hmem
  obtain ⟨j, hj, hheld⟩ := Multiset.mem_sum.mp hmem
  exact Finset.ne_of_mem_erase hj (hpipes.sender_unique (h.held j c hheld) hc)

lemma fresh_channel (hpipes : Pipes nodes)
    (hcapacity : ∀ c, 0 < capacity c) (hinv : Inv capacity s)
    (h : Flows senders conduct closed s) {i : ι} (hgone : s.gone i = false) {c : ℕ}
    (hc : c ∈ (nodes i).senders) (hheld : c ∉ (s.accounts i).held)
    (hsent : c ∉ (s.standing closed i).sent) :
    (s.view c).receiverAlive = true ∧ (s.view c).used < (s.view c).capacity := by
  have halive : (s.view c).receiverAlive = true := by
    rw [hinv.alive c, Bool.not_eq_true']
    by_contra hdropped
    -- a receiver that is gone has seen the channel closed, and so its sender is gone
    obtain ⟨j, hj, hleft⟩ := h.receiverDropped (by simpa using hdropped)
    have hclosed := (h.closed j c ((h.finished j hleft).closed hj)).1
    rw [h.senderDropped hc hclosed] at hgone
    cases hgone
  have hcommitted : s.committed c = [] := by
    rw [h.committed hc, withKey, List.map_eq_nil_iff, List.filter_eq_nil_iff]
    intro sent hmem hsame
    exact hsent (List.mem_map.mpr ⟨sent, hmem, of_decide_eq_true hsame⟩)
  have hqueue : (s.view c).queue = [] := by
    have hall := (hinv.sound c).alive halive
    rw [hcommitted] at hall
    exact (List.append_eq_nil_iff.mp hall.symm).2
  have hreserved : (s.view c).reserved = 0 := by
    rw [(hinv.sound c).reserved, outstanding_count hpipes h hc, Multiset.count_eq_zero]
    exact hheld
  refine ⟨halive, ?_⟩
  rw [Channel.used, hqueue, hreserved, (hinv.sound c).capacity]
  exact hcapacity c

lemma fresh_packet (hpipes : Pipes nodes) (hinv : Inv capacity s)
    (h : Flows senders conduct closed s) {i : ι} {c : ℕ} (hc : c ∈ (nodes i).receivers)
    (hqueue : (s.view c).queue ≠ []) : c ∉ (s.standing closed i).taken := by
  obtain ⟨j, hj⟩ := hpipes.sourced hc
  have hlength : (s.committed c).length ≤ 1 := by
    have honce := h.once j c
    rw [length_committed h hj]
    omega
  have halive : (s.view c).receiverAlive = true := by
    by_contra hdead
    exact hqueue ((hinv.sound c).dead (by simpa using hdead))
  have hall := (hinv.sound c).alive halive
  have hreceived : s.received c = [] := by
    have hpositive := List.length_pos_iff.mpr hqueue
    rw [hall, List.length_append] at hlength
    exact List.length_eq_zero_iff.mp (by omega)
  rw [h.received hc, withKey, List.map_eq_nil_iff, List.filter_eq_nil_iff] at hreceived
  intro hmem
  obtain ⟨taken, htaken, hsame⟩ := List.mem_map.mp hmem
  exact hreceived taken htaken (decide_eq_true hsame)

/-- **The network stands in no node's way.** -/
lemma oneShot_of_performs (hm : m.Prompt senders) (hpipes : Pipes nodes)
    (hcapacity : ∀ c, 0 < capacity c) (hinv : Inv capacity s)
    (h : Flows senders conduct closed s) {i : ι} (hgone : s.gone i = false) {awake : Bool}
    (hawake : awake = true → ∀ c ∈ (nodes i).receivers, s.senderDropped c = true)
    {op : PortOp} {answer : op.Answer} {channels : ℕ → m.State}
    (hpre : (oneShot awake (nodes i).receivers (nodes i).senders).pre op (s.standing closed i))
    (hperforms : System.Performs m op answer s.channels channels) (htells : s.Tells op answer) :
    (oneShot awake (nodes i).receivers (nodes i).senders).can op answer (s.standing closed i) := by
  cases hperforms with
  | @tryReserve _ c answer st hst =>
    obtain ⟨hc, hheld, hsent⟩ := hpre
    obtain ⟨halive, hroom⟩ := fresh_channel hpipes hcapacity hinv h hgone hc hheld hsent
    exact hm.reserve_room hst halive hroom
  | @pollRecv _ c answer st hst =>
    obtain ⟨rfl, -⟩ := hm.pollRecv_eq hst
    have hc : c ∈ (nodes i).receivers := hpre
    unfold Channel.pollRecv
    cases hqueue : (m.view (s.channels c)).queue with
    | cons packet rest =>
      have hnonempty : (s.view c).queue ≠ [] := by
        rw [view, hqueue]
        simp
      exact fresh_packet hpipes hinv h hc hnonempty
    | nil =>
      by_cases hsenders : senders (s.channels c) = 0
      · simp only [hsenders, if_true]
        exact rfl
      · simp only [hsenders, if_false]
        show awake = false
        by_contra hwakes
        have hdropped := hawake (by simpa using hwakes) c hc
        rw [h.senders c, if_pos hdropped] at hsenders
        exact hsenders rfl
  | isCancelled b =>
    have hb : b = s.cancelled := htells
    exact hb.trans h.quiet
  | permitSend | permitAbort | tryRecv | len | record => exact trivial

end Answers

section Calls

variable {i : ι} {op : PortOp} {answer : op.Answer}

lemma sender_of_commits (h : Flows senders conduct closed s) {awake : Bool}
    (hpre : (oneShot awake (nodes i).receivers (nodes i).senders).pre op (s.standing closed i))
    {sent : ℕ × PortPacket} (hsent : sent ∈ (System.commits op).toList) :
    sent.1 ∈ (nodes i).senders := by
  cases op with
  | permitSend c packet =>
    obtain rfl : sent = (c, packet) := by simpa [System.commits] using hsent
    exact h.held i c hpre
  | _ => cases hsent

lemma receiver_of_receives {awake : Bool}
    (hpre : (oneShot awake (nodes i).receivers (nodes i).senders).pre op (s.standing closed i))
    {taken : ℕ × PortPacket} (htaken : taken ∈ (System.receives op answer).toList) :
    taken.1 ∈ (nodes i).receivers := by
  cases op with
  | pollRecv c =>
    rcases answer with (err | packet) | _
    · cases htaken
    · obtain rfl : taken = (c, packet) := by simpa [System.receives] using htaken
      exact hpre
    · cases htaken
  | tryRecv c => exact hpre.elim
  | _ => cases htaken

lemma withKey_of_other {added : List (ℕ × PortPacket)} {own : List ℕ}
    (hown : ∀ e ∈ added, e.1 ∈ own) {c : ℕ} (hc : c ∉ own) : withKey c added = [] := by
  rw [withKey, List.map_eq_nil_iff, List.filter_eq_nil_iff]
  intro e he hsame
  obtain rfl : e.1 = c := of_decide_eq_true hsame
  exact hc (hown e he)

lemma held_of_call (h : Flows senders conduct closed s) {awake : Bool}
    (hpre : (oneShot awake (nodes i).receivers (nodes i).senders).pre op (s.standing closed i)) :
    ∀ c ∈ ((s.accounts i).after op answer).held, c ∈ (nodes i).senders := by
  cases op with
  | tryReserve d =>
    rcases answer with err | ⟨⟩
    · exact h.held i
    · intro c hc
      rcases Multiset.mem_cons.mp hc with rfl | hc
      · exact hpre.1
      · exact h.held i c hc
  | permitSend d packet | permitAbort d =>
    exact fun c hc => h.held i c (Multiset.mem_of_mem_erase hc)
  | pollRecv d => rcases answer with (err | packet) | _ <;> exact h.held i
  | tryRecv d => exact hpre.elim
  | len d | isCancelled | record r => exact h.held i

/-- It reserves each at most once, and never after it has sent into it. -/
lemma once_of_call (h : Flows senders conduct closed s) {awake : Bool}
    (hpre : (oneShot awake (nodes i).receivers (nodes i).senders).pre op (s.standing closed i))
    (c : ℕ) : ((s.accounts i).after op answer).held.count c +
      (((s.accounts i).after op answer).committed.map Prod.fst).count c ≤ 1 := by
  have honce : (s.accounts i).held.count c + ((s.accounts i).committed.map Prod.fst).count c ≤ 1 :=
    h.once i c
  cases op with
  | tryReserve d =>
    rcases answer with err | ⟨⟩
    · exact honce
    · simp only [Account.after, Multiset.count_cons]
      split_ifs with hsame
      · obtain ⟨-, hheld, hsent⟩ := hpre
        have hheld : (s.accounts i).held.count c = 0 := by
          rw [hsame]
          exact Multiset.count_eq_zero.mpr hheld
        have hsent : ((s.accounts i).committed.map Prod.fst).count c = 0 := by
          rw [hsame]
          exact List.count_eq_zero.mpr hsent
        omega
      · exact honce
  | permitSend d packet =>
    simp only [Account.after, List.map_append, List.map_cons, List.map_nil, List.count_append]
    rcases eq_or_ne c d with rfl | hne
    · have hheld : 0 < (s.accounts i).held.count c := Multiset.count_pos.mpr hpre
      rw [Multiset.count_erase_self, List.count_singleton_self]
      omega
    · rw [Multiset.count_erase_of_ne hne, List.count_singleton, if_neg (by simpa using hne.symm)]
      exact honce
  | permitAbort d =>
    have hle : ((s.accounts i).held.erase d).count c ≤ (s.accounts i).held.count c :=
      Multiset.count_le_of_le c (Multiset.erase_le _ _)
    simp only [Account.after]
    omega
  | pollRecv d => rcases answer with (err | packet) | _ <;> exact honce
  | tryRecv d => exact hpre.elim
  | len d | isCancelled | record r => exact honce

/-- Nothing is committed to a channel that has lost its sender. -/
lemma append_of_dropped (h : Flows senders conduct closed s) (hgone : s.gone i = false)
    {awake : Bool}
    (hpre : (oneShot awake (nodes i).receivers (nodes i).senders).pre op (s.standing closed i))
    {c : ℕ} (hdropped : s.senderDropped c = true) :
    System.append s.committed (System.commits op) c = s.committed c := by
  rw [append_eq_withKey, withKey_of_other (fun e he => sender_of_commits h hpre he),
    List.append_nil]
  intro hown
  rw [h.senderDropped hown hdropped] at hgone
  cases hgone

lemma receiver_kept (hpipes : Pipes nodes) (h : Flows senders conduct closed s)
    (hgone : s.gone i = false) {c : ℕ} (hc : c ∈ (nodes i).receivers) :
    s.receiverDropped c = false := by
  by_contra hdropped
  obtain ⟨j, hj, hleft⟩ := h.receiverDropped (by simpa using hdropped)
  rw [hpipes.receiver_unique hj hc, hgone] at hleft
  cases hleft

variable [DecidableEq ι]

/-- The state after a call of a node. -/
def called (s : Network m nodes) (i : ι) (op : PortOp) (answer : op.Answer)
    (rest : PortM (nodes i).future.Stage) (channels : ℕ → m.State) : Network m nodes :=
  { s with
    channels := channels
    committed := System.append s.committed (System.commits op)
    received := System.append s.received (System.receives op answer)
    progs := Function.update s.progs i rest
    accounts := Function.update s.accounts i ((s.accounts i).after op answer) }

/-- What the nodes have seen closed after it. -/
def closing (closed : ι → List ℕ) (i : ι) (op : PortOp) (answer : op.Answer) : ι → List ℕ :=
  Function.update closed i (closed i ++ Tally.closes op answer)

variable {rest : PortM (nodes i).future.Stage} {channels : ℕ → m.State}

lemma progs_called_self : (s.called i op answer rest channels).progs i = rest :=
  Function.update_self ..

lemma progs_called_of_ne {j : ι} (h : j ≠ i) :
    (s.called i op answer rest channels).progs j = s.progs j := Function.update_of_ne h _ _

lemma accounts_called_self :
    (s.called i op answer rest channels).accounts i = (s.accounts i).after op answer :=
  Function.update_self ..

lemma accounts_called_of_ne {j : ι} (h : j ≠ i) :
    (s.called i op answer rest channels).accounts j = s.accounts j := Function.update_of_ne h _ _

lemma standing_called_self :
    (s.called i op answer rest channels).standing (closing closed i op answer) i =
      (s.standing closed i).after op answer := by
  simp [standing, called, closing, Standing.after]

lemma standing_called_of_ne {j : ι} (h : j ≠ i) :
    (s.called i op answer rest channels).standing (closing closed i op answer) j =
      s.standing closed j := by
  simp [standing, called, closing, h]

lemma committed_of_call (hpipes : Pipes nodes) (h : Flows senders conduct closed s) {awake : Bool}
    (hpre : (oneShot awake (nodes i).receivers (nodes i).senders).pre op (s.standing closed i))
    {j : ι} {c : ℕ} (hc : c ∈ (nodes j).senders) :
    System.append s.committed (System.commits op) c =
      withKey c (Function.update s.accounts i ((s.accounts i).after op answer) j).committed := by
  rw [append_eq_withKey, h.committed hc]
  rcases eq_or_ne j i with rfl | hne
  · rw [Function.update_self, Traced.committed_after, withKey_append]
  · have hother : c ∉ (nodes i).senders := fun hown => hne (hpipes.sender_unique hc hown)
    rw [Function.update_of_ne hne, withKey_of_other (fun e he => sender_of_commits h hpre he) hother,
      List.append_nil]

lemma received_of_call (hpipes : Pipes nodes) (h : Flows senders conduct closed s) {awake : Bool}
    (hpre : (oneShot awake (nodes i).receivers (nodes i).senders).pre op (s.standing closed i))
    {j : ι} {c : ℕ} (hc : c ∈ (nodes j).receivers) :
    System.append s.received (System.receives op answer) c =
      withKey c (Function.update s.accounts i ((s.accounts i).after op answer) j).received := by
  rw [append_eq_withKey, h.received hc]
  rcases eq_or_ne j i with rfl | hne
  · rw [Function.update_self, Traced.received_after, withKey_append]
  · have hother : c ∉ (nodes i).receivers := fun hown => hne (hpipes.receiver_unique hc hown)
    rw [Function.update_of_ne hne, withKey_of_other (fun e he => receiver_of_receives hpre he) hother,
      List.append_nil]

end Calls

section Steps

variable {i : ι}

lemma flows_dropSender (hm : m.Prompt senders) (hpipes : Pipes nodes)
    (h : Flows senders conduct closed s) {c : ℕ} {st : m.State} (hgone : s.gone i = true)
    (hc : c ∈ (nodes i).senders) (hkept : s.senderDropped c = false)
    (hst : m.dropSender (s.channels c) st) :
    Flows senders conduct closed { s with
      channels := Function.update s.channels c st
      senderDropped := Function.update s.senderDropped c true } := by
  refine { h with
    closed := fun j d hd => ?_, senders := fun d => ?_, senderDropped := fun {j d} hd hdropped => ?_ }
  · obtain ⟨hdropped, heq⟩ := h.closed j d hd
    refine ⟨?_, heq⟩
    rcases eq_or_ne d c with rfl | hne
    · exact Function.update_self ..
    · simpa only [Function.update_of_ne hne] using hdropped
  · rcases eq_or_ne d c with rfl | hne
    · simp only [Function.update_self, if_true]
      rw [hm.senders_dropSender hst, h.senders d, hkept]
      rfl
    · simp only [Function.update_of_ne hne]
      exact h.senders d
  · rcases eq_or_ne d c with rfl | hne
    · rwa [hpipes.sender_unique hd hc]
    · simp only [Function.update_of_ne hne] at hdropped
      exact h.senderDropped hd hdropped

lemma flows_dropReceiver (hm : m.Prompt senders) (h : Flows senders conduct closed s) {c : ℕ}
    {st : m.State} (hgone : s.gone i = true) (hc : c ∈ (nodes i).receivers)
    (hst : m.dropReceiver (s.channels c) st) :
    Flows senders conduct closed { s with
      channels := Function.update s.channels c st
      receiverDropped := Function.update s.receiverDropped c true } := by
  refine { h with senders := fun d => ?_, receiverDropped := fun {d} hdropped => ?_ }
  · rcases eq_or_ne d c with rfl | hne
    · simp only [Function.update_self]
      rw [hm.senders_dropReceiver hst, h.senders d]
    · simp only [Function.update_of_ne hne]
      exact h.senders d
  · rcases eq_or_ne d c with rfl | hne
    · exact ⟨i, hc, hgone⟩
    · simp only [Function.update_of_ne hne] at hdropped
      exact h.receiverDropped hdropped

variable [DecidableEq ι]

lemma flows_resume (h : Flows senders conduct closed s) {stage : (nodes i).future.Stage}
    (hgone : s.gone i = false) (hprog : s.progs i = .ret stage) :
    Flows senders conduct closed { s with
      progs := Function.update s.progs i ((nodes i).future.step stage) } := by
  refine { h with running := fun j hj => ?_, returned := fun j hj => ?_ }
  · rcases eq_or_ne j i with rfl | hne
    · have hgood := h.running j hgone
      rw [hprog] at hgood
      simp only [Function.update_self]
      exact ((conduct j).turn false hgood).mono fun _ _ hnext => hnext.1
    · simp only [Function.update_of_ne hne]
      exact h.running j hj
  · have hne : j ≠ i := by
      rintro rfl
      exact absurd (hgone.symm.trans hj) (by simp)
    simp only [Returned, Function.update_of_ne hne]
    exact h.returned j hj

lemma flows_leave (h : Flows senders conduct closed s) {stage : (nodes i).future.Stage}
    {result : Except PureflowError Unit} (hgone : s.gone i = false)
    (hprog : s.progs i = .ret stage) (hresult : (nodes i).future.result stage = some result) :
    Flows senders conduct closed { s with gone := Function.update s.gone i true } := by
  have hleft {j : ι} (hj : s.gone j = true) : Function.update s.gone i true j = true := by
    rcases eq_or_ne j i with rfl | hne
    · exact Function.update_self ..
    · rwa [Function.update_of_ne hne]
  have hreturns : result = .ok () ∧ (s.standing closed i).Finished (nodes i) := by
    have hgood := h.running i hgone
    rw [hprog] at hgood
    exact (conduct i).returns hgood hresult
  refine { h with
    running := fun j hj => ?_, finished := fun j hj => ?_, returned := fun j hj => ?_
    receiverDropped := fun hdropped => ?_
    senderDropped := fun hc hdropped => hleft (h.senderDropped hc hdropped) }
  · rcases eq_or_ne j i with rfl | hne
    · simp only [Function.update_self] at hj
      cases hj
    · simp only [Function.update_of_ne hne] at hj
      exact h.running j hj
  · rcases eq_or_ne j i with rfl | hne
    · exact hreturns.2
    · simp only [Function.update_of_ne hne] at hj
      exact h.finished j hj
  · rcases eq_or_ne j i with rfl | hne
    · exact ⟨stage, hprog, hreturns.1 ▸ hresult⟩
    · simp only [Function.update_of_ne hne] at hj
      exact h.returned j hj
  · obtain ⟨j, hj, hgone⟩ := h.receiverDropped hdropped
    exact ⟨j, hj, hleft hgone⟩

variable [Fintype ι]

/-- **A call** of a node is answered as `oneShot` has it, and keeps the invariant. -/
lemma flows_call (hm : m.Prompt senders) (hpipes : Pipes nodes) (hcapacity : ∀ c, 0 < capacity c)
    (hinv : Inv capacity s) (h : Flows senders conduct closed s) {op : PortOp}
    {answer : op.Answer} {k : op.Answer → PortM (nodes i).future.Stage} {channels : ℕ → m.State}
    (hgone : s.gone i = false) (hprog : s.progs i = .call op k)
    (hperforms : System.Performs m op answer s.channels channels) (htells : s.Tells op answer)
    (hinv' : Inv capacity (s.called i op answer (k answer) channels)) :
    Flows senders conduct (closing closed i op answer)
      (s.called i op answer (k answer) channels) := by
  have hrunning := h.running i hgone
  rw [hprog] at hrunning
  obtain ⟨hpre, hnext⟩ := hrunning
  have hcan := oneShot_of_performs hm hpipes hcapacity hinv h hgone
    (fun hawake => absurd hawake (by simp)) hpre hperforms htells
  have hdrained {c : ℕ} (hc : s.senderDropped c = true ∧ s.received c = s.committed c) :
      s.senderDropped c = true ∧ System.append s.received (System.receives op answer) c =
        System.append s.committed (System.commits op) c := by
    have hlonger : s.received c <+: System.append s.received (System.receives op answer) c := by
      rw [append_eq_withKey]
      exact List.prefix_append _ _
    exact ⟨hc.1, finished_kept hinv' hc.2 (append_of_dropped h hgone hpre hc.1) hlonger⟩
  constructor
  case running =>
    intro j hj
    rcases eq_or_ne j i with rfl | hne
    · rw [standing_called_self, progs_called_self]
      exact hnext answer hcan
    · rw [standing_called_of_ne hne, progs_called_of_ne hne]
      exact h.running j hj
  case finished =>
    intro j hj
    have hne : j ≠ i := by
      rintro rfl
      exact absurd (hgone.symm.trans hj) (by simp)
    rw [standing_called_of_ne hne]
    exact h.finished j hj
  case returned =>
    intro j hj
    have hne : j ≠ i := by
      rintro rfl
      exact absurd (hgone.symm.trans hj) (by simp)
    rw [Returned, progs_called_of_ne hne]
    exact h.returned j hj
  case held =>
    intro j c hc
    rcases eq_or_ne j i with rfl | hne
    · rw [accounts_called_self] at hc
      exact held_of_call h hpre c hc
    · rw [accounts_called_of_ne hne] at hc
      exact h.held j c hc
  case once =>
    intro j c
    rcases eq_or_ne j i with rfl | hne
    · rw [standing_called_self, accounts_called_self]
      exact once_of_call h hpre c
    · rw [standing_called_of_ne hne, accounts_called_of_ne hne]
      exact h.once j c
  case closed =>
    intro j c hc
    rcases eq_or_ne j i with rfl | hne
    · rw [closing, Function.update_self] at hc
      rcases List.mem_append.mp hc with hc | hc
      · exact hdrained (h.closed j c hc)
      · have hown : c ∈ (nodes j).receivers := by
          rw [Tally.eq_of_closes hc] at hpre
          exact hpre
        exact hdrained (drained_of_closes hm hinv h.senders hperforms hc
          (receiver_kept hpipes h hgone hown))
    · rw [closing, Function.update_of_ne hne] at hc
      exact hdrained (h.closed j c hc)
  case committed => exact fun hc => committed_of_call hpipes h hpre hc
  case received => exact fun hc => received_of_call hpipes h hpre hc
  case senders =>
    intro c
    rw [called, senders_performs hm hperforms, h.senders c]
  case senderDropped => exact h.senderDropped
  case receiverDropped => exact h.receiverDropped
  case quiet => exact h.quiet

/-- **One step** keeps the invariant. -/
theorem flows_step (hm : m.Prompt senders) (hpipes : Pipes nodes) (hcapacity : ∀ c, 0 < capacity c)
    (hcancels : ¬ regime.cancels) (habandons : ¬ regime.abandons) (hinv : Inv capacity s)
    (h : Flows senders conduct closed s) (hstep : Step regime s s') :
    ∃ closed', Flows senders conduct closed' s' := by
  have hinv' := inv_step hm.toLawful hinv hstep
  cases hstep with
  | @call j op k answer channels hgone hprog hperforms htells =>
    exact ⟨_, flows_call hm hpipes hcapacity hinv h hgone hprog hperforms htells hinv'⟩
  | @resume j stage hgone hprog hresult => exact ⟨closed, flows_resume h hgone hprog⟩
  | cancel hcancel => exact absurd hcancel hcancels
  | @leave j stage hgone hprog hleaves =>
    obtain ⟨result, hresult⟩ := Option.isSome_iff_exists.mp (hleaves.resolve_right habandons)
    exact ⟨closed, flows_leave h hgone hprog hresult⟩
  | @release j c st hgone hheld hst =>
    have hnone : (s.accounts j).held = 0 := (h.finished j hgone).held
    rw [hnone] at hheld
    exact absurd hheld (Multiset.notMem_zero c)
  | @dropSender j c st hgone hc hkept hst =>
    exact ⟨closed, flows_dropSender hm hpipes h hgone hc hkept hst⟩
  | @dropReceiver j c st hgone hc hkept hst =>
    exact ⟨closed, flows_dropReceiver hm h hgone hc hst⟩

/-- **Every reachable state satisfies the invariant.** -/
theorem flows_of_reachable (hm : m.Prompt senders) (hpipes : Pipes nodes)
    (hcapacity : ∀ c, 0 < capacity c) (hcancels : ¬ regime.cancels)
    (habandons : ¬ regime.abandons) (conduct : (i : ι) → SendsOnce (nodes i))
    (hs : Reachable regime capacity s) : ∃ closed, Flows senders conduct closed s := by
  induction hs with
  | refl => exact ⟨_, flows_initial hm⟩
  | tail hbefore hstep ih =>
    obtain ⟨closed, h⟩ := ih
    exact flows_step hm hpipes hcapacity hcancels habandons (inv_of_reachable hm.toLawful hbefore) h
      hstep

end Steps

end Network

end Pureflow.Core
