import Pureflow.Core.Completion
import Pureflow.Core.Streaming

/-!
Networks that never get stuck.

The nodes of such a network wait for all their inputs at once, and in every turn in which they do
not wait they have less left to take or to do. On an acyclic graph some node can then always go on:
of those that find an edge full, the last one along the graph waits for a node that has packets
queued; and if there are none, the first one along the graph waits for nobody. Packets move along
the graph only, and so this comes to an end.
-/

namespace Pureflow.Core

open Pureflow.Types Pureflow.Lib

/-- A node that waits for all its inputs at once and holds no reservation between two turns: a turn
in which it is not starved takes a packet, or brings it nearer to its end. -/
structure Streams (node : NetworkNode) where
  rank : node.future.Stage → ℕ ×ₗ ℕ
  holds (stage : node.future.Stage) : node.future.holds stage = 0
  turn (live : ℕ → Prop) {stage : node.future.Stage} {g : Load} :
    node.future.result stage = none → g.reserved = [] → ¬ g.Starved live node.receivers →
    Prog.Wp (streaming live node.receivers node.senders) (node.future.step stage)
      (fun stage' g' => toLex (g'.total node.receivers, rank stage') <
        toLex (g.total node.receivers, rank stage)) g

/-- Every channel has a receiver, as it has a sender. -/
structure Network.Joined {ι : Type} (nodes : ι → NetworkNode) : Prop
    extends Pipes nodes, Wires nodes where
  received {i : ι} {c : ℕ} : c ∈ (nodes i).senders → ∃ j, c ∈ (nodes j).receivers

namespace Network

variable {m : Mpsc PortPacket} {senders : m.State → ℕ} {ι : Type} {nodes : ι → NetworkNode}
  {regime : Regime} {capacity : ℕ → ℕ} {s s' s'' : Network m nodes} {i j : ι} {g : Load} {c : ℕ}

variable [Fintype ι] [DecidableEq ι]

section Orderly

/-- What holds of every state that is reached without cancellation, where no node holds a
reservation between two turns. -/
structure Orderly (senders : m.State → ℕ) (capacity : ℕ → ℕ) (s : Network m nodes) : Prop where
  inv : Inv capacity s
  senders (c : ℕ) : senders (s.channels c) = if s.senderDropped c then 0 else 1
  released (i : ι) : s.gone i = true → (s.accounts i).held = 0
  quiet : s.cancelled = false

lemma orderly_step (hm : m.Prompt senders) (hquiet : ¬ regime.cancels)
    (holds : ∀ i stage, (nodes i).future.holds stage = 0) (h : Orderly senders capacity s)
    (hstep : Step regime s s') : Orderly senders capacity s' := by
  have hinv := inv_step hm.toLawful h.inv hstep
  cases hstep with
  | @call i op k answer channels hgone hprog hperforms htells =>
    refine ⟨hinv, fun c => (senders_performs hm hperforms c).trans (h.senders c), fun j hj => ?_,
      h.quiet⟩
    have hne : j ≠ i := by
      rintro rfl
      cases hgone.symm.trans hj
    simp only [Function.update_of_ne hne]
    exact h.released j hj
  | resume hgone hprog hresult => exact ⟨hinv, h.senders, h.released, h.quiet⟩
  | cancel hcancels => exact absurd hcancels hquiet
  | @leave i stage hgone hprog hleaves =>
    refine ⟨hinv, h.senders, fun j hj => ?_, h.quiet⟩
    rcases eq_or_ne j i with rfl | hne
    · have hheld := h.inv.running j hgone
      rw [hprog] at hheld
      exact hheld.trans (holds j stage)
    · exact h.released j (by simpa [hne] using hj)
  | @release i c st hgone hheld hst =>
    rw [h.released i hgone] at hheld
    exact absurd hheld (Multiset.notMem_zero c)
  | @dropSender i c st hgone hmem hkept hst =>
    refine ⟨hinv, fun d => ?_, h.released, h.quiet⟩
    rcases eq_or_ne d c with rfl | hne
    · simp only [Function.update_self, if_true]
      rw [hm.senders_dropSender hst, h.senders d, hkept]
      rfl
    · simp only [Function.update_of_ne hne]
      exact h.senders d
  | @dropReceiver i c st hgone hmem hkept hst =>
    refine ⟨hinv, fun d => ?_, h.released, h.quiet⟩
    rcases eq_or_ne d c with rfl | hne
    · simp only [Function.update_self]
      exact (hm.senders_dropReceiver hst).trans (h.senders d)
    · simp only [Function.update_of_ne hne]
      exact h.senders d

theorem orderly_of_reachable (hm : m.Prompt senders) (hquiet : ¬ regime.cancels)
    (holds : ∀ i stage, (nodes i).future.holds stage = 0) (hs : Reachable regime capacity s) :
    Orderly senders capacity s := by
  induction hs with
  | refl =>
    exact ⟨inv_initial hm.toLawful, fun c => hm.senders_channel _, fun i h => (by cases h), rfl⟩
  | tail _ hstep ih => exact orderly_step hm hquiet holds ih hstep

end Orderly

section Turns

/-- What a node can still take or send in its turn: the load is that of all channels but those it
sends into. -/
structure Carries (s : Network m nodes) (i : ι) (g : Load) : Prop where
  queued : ∀ c ∉ (nodes i).senders, g.queued c = (s.view c).queue.length
  held : ∀ c ∈ (s.accounts i).held, c ∈ g.reserved
  room : ∀ c ∈ (nodes i).senders, c ∉ g.reserved → (s.view c).receiverAlive = true →
    (s.view c).used < (s.view c).capacity

/-- The sender of a channel is there. -/
def Live (s : Network m nodes) (c : ℕ) : Prop := s.senderDropped c = false

omit [DecidableEq ι] in
/-- **The network answers a node as its load has it.** -/
lemma streaming_of_performs (hm : m.Candid senders) (h : Orderly senders capacity s)
    (hloop : ∀ c ∈ (nodes i).receivers, c ∉ (nodes i).senders) (hcarries : s.Carries i g) {op : PortOp} {answer : op.Answer} {channels : ℕ → m.State}
    (hpre : (streaming s.Live (nodes i).receivers (nodes i).senders).pre op g)
    (hperforms : System.Performs m op answer s.channels channels) (htells : s.Tells op answer) :
    (streaming s.Live (nodes i).receivers (nodes i).senders).can op answer g := by
  cases hperforms with
  | @tryReserve _ c answer st hst =>
    rintro rfl
    have halive := hm.reserve_full hst
    have hok := hm.reserve_room hst halive (hcarries.room c hpre.1 hpre.2 halive)
    cases hok
  | @pollRecv _ c answer st hst =>
    obtain ⟨rfl, -⟩ := hm.pollRecv_eq hst
    have hqueued := hcarries.queued c (hloop c hpre)
    unfold Channel.pollRecv
    cases hqueue : (m.view (s.channels c)).queue with
    | cons packet rest =>
      show 0 < g.queued c
      rw [hqueued, view, hqueue]
      exact Nat.succ_pos _
    | nil =>
      have hempty : g.queued c = 0 := by rw [hqueued, view, hqueue, List.length_nil]
      by_cases hsenders : senders (s.channels c) = 0
      · simp only [hsenders, if_true]
        exact ⟨rfl, hempty⟩
      · simp only [hsenders, if_false]
        refine ⟨hempty, ?_⟩
        by_contra hdropped
        rw [h.senders c, if_pos (by simpa [Live] using hdropped)] at hsenders
        exact hsenders rfl
  | isCancelled b =>
    have hb : b = s.cancelled := htells
    exact hb.trans h.quiet
  | permitSend | permitAbort | tryRecv | len | record => exact trivial

omit [Fintype ι] [DecidableEq ι] in
lemma view_set (s : Network m nodes) (c d : ℕ) (st : m.State) :
    m.view (Function.update s.channels c st d) = if d = c then m.view st else s.view d := by
  by_cases h : d = c
  · subst h
    rw [Function.update_self, if_pos rfl]
  · rw [Function.update_of_ne h, if_neg h, view]

omit [DecidableEq ι] in
lemma reserved_pos (hinv : Inv capacity s) (hc : c ∈ (s.accounts i).held) :
    0 < (s.view c).reserved := by
  rw [(hinv.sound c).reserved]
  exact Multiset.count_pos.mpr (Multiset.mem_sum.mpr ⟨i, Finset.mem_univ i, hc⟩)

omit [Fintype ι] in
lemma carries_same (hcarries : s.Carries i g) {op : PortOp} {answer : op.Answer}
    {channels : ℕ → m.State} {rest : PortM (nodes i).future.Stage}
    (hheld : ((s.accounts i).after op answer).held = (s.accounts i).held)
    (hview : ∀ d, m.view (channels d) = s.view d) :
    (s.called i op answer rest channels).Carries i g := by
  refine ⟨fun d hd => ?_, fun d hd => ?_, fun d hd hfresh halive => ?_⟩
  · rw [view, called, hview]
    exact hcarries.queued d hd
  · rw [accounts_called_self, hheld] at hd
    exact hcarries.held d hd
  · rw [view, called, hview] at halive ⊢
    exact hcarries.room d hd hfresh halive

omit [Fintype ι] in
lemma carries_set (hcarries : s.Carries i g) {op : PortOp} {answer : op.Answer} {st : m.State}
    {rest : PortM (nodes i).future.Stage} {g' : Load}
    (hheld : ∀ d ∈ ((s.accounts i).after op answer).held, d ∈ g'.reserved)
    (hreserved : g.reserved ⊆ g'.reserved) (hroom : c ∈ (nodes i).senders → c ∈ g'.reserved)
    (hother : ∀ d, d ≠ c → g'.queued d = g.queued d)
    (hqueued : c ∉ (nodes i).senders → g'.queued c = (m.view st).queue.length) :
    (s.called i op answer rest (Function.update s.channels c st)).Carries i g' := by
  refine ⟨fun d hd => ?_, fun d hd => ?_, fun d hd hfresh halive => ?_⟩
  · rw [view, called, view_set]
    split
    · next heq =>
      subst heq
      exact hqueued hd
    · next hne => rw [hother d hne, hcarries.queued d hd]
  · rw [accounts_called_self] at hd
    exact hheld d hd
  · have hne : d ≠ c := by
      rintro rfl
      exact hfresh (hroom hd)
    rw [view, called, view_set, if_neg hne] at halive ⊢
    exact hcarries.room d hd (fun hold => hfresh (hreserved hold)) halive

/-- **A call of the node** changes the channels as it changes the load. -/
lemma carries_called (hm : m.Prompt senders) (hinv : Inv capacity s)
    (hloop : ∀ c ∈ (nodes i).receivers, c ∉ (nodes i).senders) (hcarries : s.Carries i g)
    {op : PortOp} {answer : op.Answer} {channels : ℕ → m.State}
    (hallow : (s.accounts i).allows op) (howns : (nodes i).Owns op)
    (hpre : (streaming s.Live (nodes i).receivers (nodes i).senders).pre op g)
    (hperforms : System.Performs m op answer s.channels channels)
    (rest : PortM (nodes i).future.Stage) :
    (s.called i op answer rest channels).Carries i (g.after op answer) := by
  have herase {c : ℕ} : ∀ d ∈ (s.accounts i).held.erase c, d ∈ g.reserved :=
    fun d hd => hcarries.held d (Multiset.mem_of_mem_erase hd)
  cases hperforms with
  | @tryReserve _ c answer st hst =>
    rcases answer with err | ⟨⟩
    · refine carries_same hcarries rfl fun d => ?_
      rw [view_set, hm.reserve_error hst]
      split
      · next heq => rw [heq, view]
      · rfl
    · obtain ⟨-, hview⟩ := hm.reserve_ok hst
      refine carries_set hcarries (fun d hd => ?_) (List.subset_cons_self _ _)
        (fun _ => List.mem_cons_self) (fun _ _ => rfl) fun hc => absurd hpre.1 hc
      rcases Multiset.mem_cons.mp hd with rfl | hd
      · exact List.mem_cons_self
      · exact List.mem_cons_of_mem _ (hcarries.held d hd)
  | @permitSend _ c packet st hst =>
    exact carries_set hcarries herase (List.Subset.refl _) (fun _ => hcarries.held c hallow)
      (fun _ _ => rfl) fun hc => absurd howns hc
  | @permitAbort _ c st hst =>
    refine carries_set hcarries herase (List.Subset.refl _) (fun _ => hcarries.held c hallow)
      (fun _ _ => rfl) fun hc => ?_
    rw [hm.abort hst (reserved_pos hinv hallow)]
    exact hcarries.queued c hc
  | tryRecv => exact hpre.elim
  | @pollRecv _ c answer st hst =>
    have hc : c ∉ (nodes i).senders := hloop c hpre
    rcases answer with (err | packet) | _
    · refine carries_same hcarries rfl fun d => ?_
      rw [view_set, hm.poll_error hst]
      split
      · next heq => rw [heq, view]
      · rfl
    · obtain ⟨hhead, hview⟩ := hm.poll_ok hst
      refine carries_set hcarries hcarries.held (List.Subset.refl _) (fun hsender => absurd hsender hc)
        (fun d hd => Load.taking_of_ne g hd) fun _ => ?_
      rw [hview]
      show (g.taking c).queued c = (m.view (s.channels c)).queue.tail.length
      rw [Load.taking_self, hcarries.queued c hc, List.length_tail, view]
    · refine carries_same hcarries rfl fun d => ?_
      rw [view_set, hm.poll_pending hst]
      split
      · next heq => rw [heq, view]
      · rfl
  | len | isCancelled | record => exact carries_same hcarries rfl fun _ => rfl

omit [Fintype ι] in
lemma reachable_of_steps (hs : Reachable regime capacity s)
    (hsteps : Relation.ReflTransGen (Step .undisturbed) s s') : Reachable regime capacity s' :=
  hs.trans (Relation.ReflTransGen.mono (fun _ _ hstep => hstep.mono False.elim False.elim) _ _ hsteps)

/-- Only the channels of the node have changed, and no end of a channel was dropped. -/
structure Turned (i : ι) (s s' : Network m nodes) (g g' : Load) : Prop
    extends Drives .undisturbed i s s' where
  running : s'.gone i = false
  carries : s'.Carries i g'
  queued : ∀ d ∉ (nodes i).receivers, g'.queued d = g.queued d
  senderDropped : s'.senderDropped = s.senderDropped
  receiverDropped : s'.receiverDropped = s.receiverDropped

/-- **A turn can be run through** where the edges of the node have room. -/
theorem exists_turned (hm : m.Candid senders) (hjoined : Joined nodes) (hquiet : ¬ regime.cancels)
    (holds : ∀ i stage, (nodes i).future.holds stage = 0) (hs : Reachable regime capacity s)
    (hgone : s.gone i = false) {p : PortM (nodes i).future.Stage} (hprog : s.progs i = p)
    (hcarries : s.Carries i g) {Q : (nodes i).future.Stage → Load → Prop}
    (hp : Prog.Wp (streaming s.Live (nodes i).receivers (nodes i).senders) p Q g) :
    ∃ s' stage g', Turned i s s' g g' ∧ s'.progs i = .ret stage ∧ Q stage g' := by
  choose good hkeeps using hjoined.keeps
  have hloop : ∀ c ∈ (nodes i).receivers, c ∉ (nodes i).senders :=
    fun c hin hout => hjoined.acyclic i (.single ⟨c, hout, hin⟩)
  induction p generalizing s g with
  | ret stage =>
    exact ⟨s, stage, g, ⟨.refl s, hgone, hcarries, fun _ _ => rfl, rfl, rfl⟩, hprog, hp⟩
  | call op k ih =>
    obtain ⟨hpre, hnext⟩ := hp
    have h := orderly_of_reachable hm.toPrompt hquiet holds hs
    have hcalls := (kept_of_reachable hkeeps hs).calls i
    have hallow := h.inv.running i hgone
    rw [hprog] at hcalls hallow
    obtain ⟨answer, channels, hperforms, hunseen⟩ := exists_performs hm.toPrompt op s.channels
    have htells : s.Tells op answer :=
      tells_of_unrequested h.quiet hunseen _ (List.mem_singleton.mpr rfl)
    have hcan := streaming_of_performs hm h hloop hcarries hpre hperforms htells
    have hcarries' := carries_called hm.toPrompt h.inv hloop hcarries hallow.1 hcalls.1 hpre hperforms
      (k answer)
    have hstep : Step .undisturbed s (s.called i op answer (k answer) channels) :=
      .call hgone hprog hperforms htells
    obtain ⟨s', stage, g', hturned, hprog', hQ⟩ := ih answer
      (reachable_of_steps hs (.single hstep)) hgone progs_called_self hcarries' (hnext answer hcan)
    refine ⟨s', stage, g', ⟨(Drives.of_step hstep rfl rfl).trans hturned.toDrives, hturned.running,
      hturned.carries, fun d hd => (hturned.queued d hd).trans ?_, hturned.senderDropped,
      hturned.receiverDropped⟩, hprog', hQ⟩
    -- a packet is taken from a channel of the node
    cases op with
    | pollRecv c =>
      rcases answer with (err | packet) | _
      · rfl
      · exact Load.taking_of_ne g fun heq => hd (heq ▸ hpre)
      · rfl
    | tryReserve c => rcases answer with err | ⟨⟩ <;> rfl
    | _ => rfl

end Turns

section Settling

/-- Ends of channels were dropped, and no running node has lost a packet. -/
structure Tidied (s s' : Network m nodes) : Prop where
  steps : Relation.ReflTransGen (Step .undisturbed) s s'
  progs : s'.progs = s.progs
  gone : s'.gone = s.gone
  senderDropped : ∀ c, s.senderDropped c = true → s'.senderDropped c = true
  receiverDropped : ∀ c, s.receiverDropped c = true → s'.receiverDropped c = true
  queue : ∀ j, s.gone j = false → ∀ c ∈ (nodes j).receivers, (s'.view c).queue = (s.view c).queue

omit [Fintype ι] in
lemma Tidied.refl (s : Network m nodes) : Tidied s s :=
  ⟨.refl, rfl, rfl, fun _ => id, fun _ => id, fun _ _ _ _ => rfl⟩

omit [Fintype ι] in
lemma Tidied.trans (h : Tidied s s') (h' : Tidied s' s'') : Tidied s s'' where
  steps := h.steps.trans h'.steps
  progs := h'.progs.trans h.progs
  gone := h'.gone.trans h.gone
  senderDropped c hc := h'.senderDropped c (h.senderDropped c hc)
  receiverDropped c hc := h'.receiverDropped c (h.receiverDropped c hc)
  queue j hj c hc := (h'.queue j (by rw [h.gone, hj]) c hc).trans (h.queue j hj c hc)

omit [Fintype ι] in
lemma Tidied.completed (h : Tidied s s') (hi : s.Completed i) : s'.Completed i :=
  ⟨by rw [h.gone, hi.gone], fun c hc => h.senderDropped c (hi.senders c hc),
    fun c hc => h.receiverDropped c (hi.receivers c hc)⟩

omit [Fintype ι] in
lemma update_true_of_true {flags : ℕ → Bool} {c d : ℕ} (h : flags d = true) :
    Function.update flags c true d = true := by
  rcases eq_or_ne d c with rfl | hne
  · exact Function.update_self ..
  · rwa [Function.update_of_ne hne]

omit [Fintype ι] in
lemma exists_dropSender (hm : m.Prompt senders) (hgone : s.gone i = true)
    (hc : c ∈ (nodes i).senders) : ∃ s', Tidied s s' ∧ s'.senderDropped c = true := by
  cases hkept : s.senderDropped c with
  | true => exact ⟨s, .refl s, hkept⟩
  | false =>
    obtain ⟨st, hst⟩ := hm.can_dropSender (s.channels c)
    refine ⟨_, ⟨.single (.dropSender hgone hc hkept hst), rfl, rfl, fun d => update_true_of_true,
      fun d => id, fun j hj d hd => ?_⟩, Function.update_self ..⟩
    rw [view, view_set]
    split
    · next heq => rw [hm.dropSender hst, heq, view]
    · rfl

omit [Fintype ι] in
lemma exists_dropReceiver (hm : m.Prompt senders) (hpipes : Pipes nodes) (hgone : s.gone i = true)
    (hc : c ∈ (nodes i).receivers) : ∃ s', Tidied s s' ∧ s'.receiverDropped c = true := by
  cases hkept : s.receiverDropped c with
  | true => exact ⟨s, .refl s, hkept⟩
  | false =>
    obtain ⟨st, hst⟩ := hm.can_dropReceiver (s.channels c)
    refine ⟨_, ⟨.single (.dropReceiver hgone hc hkept hst), rfl, rfl, fun d => id,
      fun d => update_true_of_true, fun j hj d hd => ?_⟩, Function.update_self ..⟩
    have hne : d ≠ c := by
      rintro rfl
      rw [hpipes.receiver_unique hd hc, hgone] at hj
      cases hj
    rw [view, view_set, if_neg hne]

omit [Fintype ι] in
lemma exists_completed (hm : m.Prompt senders) (hpipes : Pipes nodes) (hgone : s.gone i = true) :
    ∃ s', Tidied s s' ∧ s'.Completed i := by
  have hsenders (l : List ℕ) (hl : l ⊆ (nodes i).senders) :
      ∃ s', Tidied s s' ∧ ∀ c ∈ l, s'.senderDropped c = true := by
    induction l with
    | nil => exact ⟨s, .refl s, List.forall_mem_nil _⟩
    | cons c rest ih =>
      obtain ⟨hc, hrest⟩ := List.cons_subset.mp hl
      obtain ⟨s₁, htidied, hdropped⟩ := ih hrest
      obtain ⟨s₂, htidied', hdropped'⟩ :=
        exists_dropSender (s := s₁) hm (by rw [htidied.gone, hgone]) hc
      exact ⟨s₂, htidied.trans htidied', List.forall_mem_cons.mpr ⟨hdropped',
        fun d hd => htidied'.senderDropped d (hdropped d hd)⟩⟩
  have hreceivers {s₁ : Network m nodes} (hgone : s₁.gone i = true) (l : List ℕ)
      (hl : l ⊆ (nodes i).receivers) :
      ∃ s', Tidied s₁ s' ∧ ∀ c ∈ l, s'.receiverDropped c = true := by
    induction l with
    | nil => exact ⟨s₁, .refl s₁, List.forall_mem_nil _⟩
    | cons c rest ih =>
      obtain ⟨hc, hrest⟩ := List.cons_subset.mp hl
      obtain ⟨s₂, htidied, hdropped⟩ := ih hrest
      obtain ⟨s₃, htidied', hdropped'⟩ :=
        exists_dropReceiver (s := s₂) hm hpipes (by rw [htidied.gone, hgone]) hc
      exact ⟨s₃, htidied.trans htidied', List.forall_mem_cons.mpr ⟨hdropped',
        fun d hd => htidied'.receiverDropped d (hdropped d hd)⟩⟩
  obtain ⟨s₁, htidied, hsender⟩ := hsenders _ (List.Subset.refl _)
  have hgone₁ : s₁.gone i = true := by rw [htidied.gone, hgone]
  obtain ⟨s₂, htidied', hreceiver⟩ := hreceivers hgone₁ _ (List.Subset.refl _)
  exact ⟨s₂, htidied.trans htidied', by rw [htidied'.gone, hgone₁],
    fun c hc => htidied'.senderDropped c (hsender c hc), hreceiver⟩

/-- **All that are gone complete.** -/
lemma exists_tidied (hm : m.Prompt senders) (hpipes : Pipes nodes) (s : Network m nodes) :
    ∃ s', Tidied s s' ∧ ∀ i, s'.gone i = true → s'.Completed i := by
  suffices hsome : ∀ t : Finset ι, ∃ s', Tidied s s' ∧ ∀ i ∈ t, s.gone i = true → s'.Completed i by
    obtain ⟨s', htidied, hall⟩ := hsome Finset.univ
    refine ⟨s', htidied, fun i hi => hall i (Finset.mem_univ i) ?_⟩
    rwa [htidied.gone] at hi
  intro t
  induction t using Finset.induction_on with
  | empty => exact ⟨s, .refl s, fun i hi => absurd hi (Finset.notMem_empty i)⟩
  | insert j t _ ih =>
    obtain ⟨s₁, htidied, hall⟩ := ih
    have hkept {s₂ : Network m nodes} (htidied' : Tidied s₁ s₂)
        (hj : s.gone j = true → s₂.Completed j) :
        ∀ i ∈ insert j t, s.gone i = true → s₂.Completed i := by
      intro i hi hgone
      rcases Finset.mem_insert.mp hi with rfl | hi
      · exact hj hgone
      · exact htidied'.completed (hall i hi hgone)
    cases hgone : s.gone j with
    | false => exact ⟨s₁, htidied, hkept (.refl s₁) fun h => by rw [hgone] at h; cases h⟩
    | true =>
      obtain ⟨s₂, htidied', hcompleted⟩ :=
        exists_completed (s := s₁) hm hpipes (by rw [htidied.gone, hgone])
      exact ⟨s₂, htidied.trans htidied', hkept htidied' fun _ => hcompleted⟩

omit [Fintype ι] in
lemma exists_ended (hm : m.Prompt senders) (hquiet : s.cancelled = false)
    (hgone : s.gone i = false) {p : PortM (nodes i).future.Stage} (hprog : s.progs i = p) :
    ∃ s' stage, Relation.ReflTransGen (Step .undisturbed) s s' ∧ s'.gone = s.gone ∧
      s'.cancelled = false ∧ s'.progs = Function.update s.progs i (.ret stage) := by
  induction p generalizing s with
  | ret stage =>
    exact ⟨s, stage, .refl, rfl, hquiet, by rw [← hprog, Function.update_eq_self]⟩
  | call op k ih =>
    obtain ⟨answer, channels, hperforms, hunseen⟩ := exists_performs hm op s.channels
    have htells : s.Tells op answer :=
      tells_of_unrequested hquiet hunseen _ (List.mem_singleton.mpr rfl)
    have hstep : Step .undisturbed s (s.called i op answer (k answer) channels) :=
      .call hgone hprog hperforms htells
    obtain ⟨s', stage, hsteps, hsame, hquiet', hprogs⟩ :=
      ih answer (s := s.called i op answer (k answer) channels) hquiet hgone progs_called_self
    refine ⟨s', stage, .head hstep hsteps, hsame, hquiet', ?_⟩
    rw [hprogs, called, Function.update_idem]

/-- **All turns come to their ends.** -/
lemma exists_between (hm : m.Prompt senders) (hquiet : s.cancelled = false) :
    ∃ s', Relation.ReflTransGen (Step .undisturbed) s s' ∧
      ∀ i, s'.gone i = false → ∃ stage, s'.progs i = .ret stage := by
  suffices hsome : ∀ t : Finset ι, ∃ s', Relation.ReflTransGen (Step .undisturbed) s s' ∧
      s'.gone = s.gone ∧ s'.cancelled = false ∧
      ∀ i ∈ t, s.gone i = false → ∃ stage, s'.progs i = .ret stage by
    obtain ⟨s', hsteps, hsame, -, hall⟩ := hsome Finset.univ
    exact ⟨s', hsteps, fun i hi => hall i (Finset.mem_univ i) (by rwa [← hsame])⟩
  intro t
  induction t using Finset.induction_on with
  | empty => exact ⟨s, .refl, rfl, hquiet, fun i hi => absurd hi (Finset.notMem_empty i)⟩
  | insert j t _ ih =>
    obtain ⟨s₁, hsteps, hsame, hquiet₁, hall⟩ := ih
    cases hgone : s.gone j with
    | true =>
      refine ⟨s₁, hsteps, hsame, hquiet₁, fun i hi hrunning => ?_⟩
      rcases Finset.mem_insert.mp hi with rfl | hi
      · cases hgone.symm.trans hrunning
      · exact hall i hi hrunning
    | false =>
      obtain ⟨s₂, stage, hsteps', hsame', hquiet₂, hprogs⟩ :=
        exists_ended (s := s₁) (i := j) hm hquiet₁ (by rw [hsame, hgone]) rfl
      refine ⟨s₂, hsteps.trans hsteps', hsame'.trans hsame, hquiet₂, fun i hi hrunning => ?_⟩
      rw [hprogs]
      rcases eq_or_ne i j with rfl | hne
      · exact ⟨stage, Function.update_self ..⟩
      · rw [Function.update_of_ne hne]
        exact hall i ((Finset.mem_insert.mp hi).resolve_left hne) hrunning

end Settling

section Rounds

/-- Every node is between two turns, or complete. -/
structure Settled (s : Network m nodes) : Prop where
  between : ∀ i, s.gone i = false → ∃ stage, s.progs i = .ret stage
  completed : ∀ i, s.gone i = true → s.Completed i

/-- All that is queued, before a turn. -/
def load (s : Network m nodes) : Load := ⟨fun c => (s.view c).queue.length, []⟩

/-- No edge of the node is full. -/
def Roomy (s : Network m nodes) (i : ι) : Prop :=
  ∀ c ∈ (nodes i).senders, (s.view c).receiverAlive = true →
    (s.view c).used < (s.view c).capacity

omit [DecidableEq ι] in
lemma held_of_settled (holds : ∀ i stage, (nodes i).future.holds stage = 0)
    (h : Orderly senders capacity s) (hsettled : s.Settled) (i : ι) : (s.accounts i).held = 0 := by
  cases hgone : s.gone i with
  | true => exact h.released i hgone
  | false =>
    obtain ⟨stage, hprog⟩ := hsettled.between i hgone
    have hheld := h.inv.running i hgone
    rw [hprog] at hheld
    exact hheld.trans (holds i stage)

omit [DecidableEq ι] in
/-- A channel that is full has packets queued. -/
lemma queued_of_full (hcapacity : ∀ c, 0 < capacity c)
    (holds : ∀ i stage, (nodes i).future.holds stage = 0) (h : Orderly senders capacity s)
    (hsettled : s.Settled) (hfull : ¬ (s.view c).used < (s.view c).capacity) :
    0 < (s.view c).queue.length := by
  have hnone : outstanding s.accounts = 0 :=
    Finset.sum_eq_zero fun i _ => held_of_settled holds h hsettled i
  have hreserved := (h.inv.sound c).reserved
  have hpositive := hcapacity c
  rw [hnone, Multiset.count_zero] at hreserved
  rw [Channel.used, hreserved, (h.inv.sound c).capacity] at hfull
  omega

omit [DecidableEq ι] in
/-- **Some node can go on**: the last one along the graph that finds an edge full waits for a node
that can, and otherwise the first one along the graph can. -/
theorem exists_free (hjoined : Joined nodes) (hcapacity : ∀ c, 0 < capacity c)
    (holds : ∀ i stage, (nodes i).future.holds stage = 0) (h : Orderly senders capacity s)
    (hsettled : s.Settled) (hsome : ∃ i, s.gone i = false) :
    ∃ i, s.gone i = false ∧ s.Roomy i ∧ ¬ s.load.Starved s.Live (nodes i).receivers := by
  by_cases hfull : ∃ i, s.gone i = false ∧ ¬ s.Roomy i
  · obtain ⟨i, ⟨hgone, hcrowded⟩, hlast⟩ := hjoined.acyclic.exists_sink
      (Set.toFinite {i | s.gone i = false ∧ ¬ s.Roomy i}) hfull
    simp only [Roomy, not_forall] at hcrowded
    obtain ⟨c, hc, halive, hcrowded⟩ := hcrowded
    obtain ⟨j, hj⟩ := hjoined.received hc
    have hrunning : s.gone j = false := by
      by_contra hleft
      have hdropped := (hsettled.completed j (by simpa using hleft)).receivers c hj
      rw [h.inv.alive c, hdropped] at halive
      cases halive
    refine ⟨j, hrunning, ?_, fun hstarved => ?_⟩
    · by_contra hcrowded
      exact hlast j ⟨hrunning, hcrowded⟩ ⟨c, hc, hj⟩
    · have hqueued := queued_of_full hcapacity holds h hsettled hcrowded
      rw [show (s.view c).queue.length = 0 from hstarved.empty c hj] at hqueued
      cases hqueued
  · obtain ⟨i, hgone, hfirst⟩ := hjoined.acyclic.exists_source
      (Set.toFinite {i | s.gone i = false}) hsome
    refine ⟨i, hgone, by_contra fun hcrowded => hfull ⟨i, hgone, hcrowded⟩, fun hstarved => ?_⟩
    obtain ⟨c, hc, hlive⟩ := hstarved.live
    obtain ⟨k, hk⟩ := hjoined.sourced hc
    have hleft : s.gone k = true := by
      by_contra hrunning
      exact hfirst k (by simpa using hrunning) ⟨c, hk, hc⟩
    rw [Live, (hsettled.completed k hleft).senders c hk] at hlive
    cases hlive

/-- What a node has left: the packets queued for it, and then its stage. -/
def weight (streams : (i : ι) → Streams (nodes i)) (s : Network m nodes) (i : ι) :
    WithBot (ℕ ×ₗ (ℕ ×ₗ ℕ)) :=
  match s.gone i, s.progs i with
  | false, .ret stage =>
    ((toLex (s.load.total (nodes i).receivers, (streams i).rank stage) : ℕ ×ₗ (ℕ ×ₗ ℕ)) :
      WithBot (ℕ ×ₗ (ℕ ×ₗ ℕ)))
  | _, _ => ⊥

variable {streams : (i : ι) → Streams (nodes i)}

omit [Fintype ι] [DecidableEq ι] in
lemma weight_of_gone (h : s.gone i = true) : s.weight streams i = ⊥ := by
  unfold weight
  rw [h]

omit [Fintype ι] [DecidableEq ι] in
lemma weight_of_ret {stage : (nodes i).future.Stage} (hgone : s.gone i = false)
    (hprog : s.progs i = .ret stage) : s.weight streams i =
      ((toLex (s.load.total (nodes i).receivers, (streams i).rank stage) : ℕ ×ₗ (ℕ ×ₗ ℕ)) :
        WithBot (ℕ ×ₗ (ℕ ×ₗ ℕ))) := by
  unfold weight
  rw [hgone, hprog]

omit [Fintype ι] [DecidableEq ι] in
/-- The weight of a node rests on its stage and on what is queued for it. -/
lemma weight_congr (hgone : s'.gone i = s.gone i) (hprog : s'.progs i = s.progs i)
    (hqueue : s.gone i = false → ∀ c ∈ (nodes i).receivers, s'.load.queued c = s.load.queued c) :
    s'.weight streams i = s.weight streams i := by
  cases hleft : s.gone i with
  | true => rw [weight_of_gone hleft, weight_of_gone (hgone.trans hleft)]
  | false =>
    have htotal : s'.load.total (nodes i).receivers = s.load.total (nodes i).receivers :=
      Finset.sum_congr rfl fun c hc => hqueue hleft c (List.mem_toFinset.mp hc)
    unfold weight
    rw [hgone, hprog, htotal]

omit [Fintype ι] in
lemma weight_of_tidied (h : Tidied s s') : s'.weight streams = s.weight streams := by
  funext i
  refine weight_congr (by rw [h.gone]) (by rw [h.progs]) fun hgone c hc => ?_
  exact congrArg List.length (h.queue i hgone c hc)

variable (streams) in
lemma exists_left (hm : m.Prompt senders) (hpipes : Pipes nodes) (hsettled : s.Settled)
    (hgone : s.gone i = false) {stage : (nodes i).future.Stage} (hprog : s.progs i = .ret stage)
    (hresult : ((nodes i).future.result stage).isSome) :
    ∃ s', Relation.ReflTransGen (Step .undisturbed) s s' ∧ s'.Settled ∧
      s'.weight streams i < s.weight streams i ∧
      ∀ u, u ≠ i → s'.weight streams u = s.weight streams u := by
  let s₁ : Network m nodes := { s with gone := Function.update s.gone i true }
  have hstep : Step .undisturbed s s₁ := .leave hgone hprog (.inl hresult)
  have hself : s₁.gone i = true := Function.update_self i true s.gone
  have hother {u : ι} (hu : u ≠ i) : s₁.gone u = s.gone u := Function.update_of_ne hu true s.gone
  obtain ⟨s₂, htidied, hcompleted⟩ := exists_tidied hm hpipes s₁
  have hweight : s₂.weight streams = s₁.weight streams := weight_of_tidied htidied
  refine ⟨s₂, .head hstep htidied.steps, ⟨fun j hj => ?_, hcompleted⟩, ?_, fun u hu => ?_⟩
  · rw [htidied.gone] at hj
    have hne : j ≠ i := by
      rintro rfl
      cases hself.symm.trans hj
    rw [htidied.progs]
    exact hsettled.between j (by rwa [← hother hne])
  · rw [hweight, weight_of_gone hself, weight_of_ret hgone hprog]
    exact WithBot.bot_lt_coe _
  · rw [hweight]
    exact weight_congr (hother hu) rfl fun _ _ _ => rfl

lemma exists_gone_on (hm : m.Candid senders) (hjoined : Joined nodes) (hquiet : ¬ regime.cancels)
    (hs : Reachable regime capacity s) (hsettled : s.Settled) (hgone : s.gone i = false)
    {stage : (nodes i).future.Stage} (hprog : s.progs i = .ret stage)
    (hresult : (nodes i).future.result stage = none) (hroomy : s.Roomy i)
    (hstarved : ¬ s.load.Starved s.Live (nodes i).receivers) :
    ∃ s', Relation.ReflTransGen (Step .undisturbed) s s' ∧ s'.Settled ∧
      s'.weight streams i < s.weight streams i ∧
      ∀ u, u ≠ i → (¬ ∃ c, c ∈ (nodes i).senders ∧ c ∈ (nodes u).receivers) →
        s'.weight streams u = s.weight streams u := by
  have holds (i : ι) (stage : (nodes i).future.Stage) : (nodes i).future.holds stage = 0 :=
    (streams i).holds stage
  have hheld := held_of_settled holds (orderly_of_reachable hm.toPrompt hquiet holds hs) hsettled i
  let s₁ : Network m nodes :=
    { s with progs := Function.update s.progs i ((nodes i).future.step stage) }
  have hstep : Step .undisturbed s s₁ := .resume hgone hprog hresult
  have hcarries : s₁.Carries i s.load := by
    refine ⟨fun _ _ => rfl, fun c hc => ?_, fun c hc _ halive => hroomy c hc halive⟩
    rw [show (s₁.accounts i).held = 0 from hheld] at hc
    exact absurd hc (Multiset.notMem_zero c)
  obtain ⟨s₂, stage', g', hturned, hprog', hless⟩ := exists_turned hm hjoined hquiet holds
    (reachable_of_steps hs (.single hstep)) hgone (Function.update_self i _ s.progs) hcarries
    ((streams i).turn s₁.Live hresult rfl hstarved)
  have hprogs {u : ι} (hu : u ≠ i) : s₂.progs u = s.progs u :=
    (hturned.progs u hu).trans (Function.update_of_ne hu _ s.progs)
  have hsame {u : ι} (hu : u ≠ i) : s₂.gone u = s.gone u := hturned.gone u hu
  refine ⟨s₂, .head hstep hturned.steps, ⟨fun j hj => ?_, fun j hj => ?_⟩, ?_,
    fun u hu hbehind => ?_⟩
  · rcases eq_or_ne j i with rfl | hne
    · exact ⟨stage', hprog'⟩
    · rw [hprogs hne]
      exact hsettled.between j (by rwa [← hsame hne])
  · have hne : j ≠ i := by
      rintro rfl
      cases hturned.running.symm.trans hj
    have hcompleted := hsettled.completed j (by rwa [← hsame hne])
    exact ⟨hj, fun c hc => by rw [hturned.senderDropped]; exact hcompleted.senders c hc,
      fun c hc => by rw [hturned.receiverDropped]; exact hcompleted.receivers c hc⟩
  · have htotal : s₂.load.total (nodes i).receivers = g'.total (nodes i).receivers := by
      refine Finset.sum_congr rfl fun c hc => (hturned.carries.queued c fun hout => ?_).symm
      exact hjoined.acyclic i (.single ⟨c, hout, List.mem_toFinset.mp hc⟩)
    rw [weight_of_ret hturned.running hprog', weight_of_ret hgone hprog, htotal]
    exact WithBot.coe_lt_coe.mpr hless
  · refine weight_congr (hsame hu) (hprogs hu) fun _ c hc => ?_
    have hqueued := hturned.carries.queued c fun hout => hbehind ⟨c, hout, hc⟩
    have hkept := hturned.queued c fun hin => hu (hjoined.toPipes.receiver_unique hc hin)
    exact hqueued.symm.trans hkept

/-- **No deadlock.** Whatever a run without cancellation has come to, it can be continued until all
nodes are complete, and no node need be abandoned for it. -/
theorem can_finish (hm : m.Candid senders) (hjoined : Joined nodes) (hcapacity : ∀ c, 0 < capacity c)
    (hquiet : ¬ regime.cancels) (streams : (i : ι) → Streams (nodes i))
    (hs : Reachable regime capacity s) :
    ∃ s', Relation.ReflTransGen (Step .undisturbed) s s' ∧ ∀ i, s'.Completed i := by
  have holds (i : ι) (stage : (nodes i).future.Stage) : (nodes i).future.holds stage = 0 :=
    (streams i).holds stage
  have hshrinks := hjoined.acyclic.wellFounded_shrinks
    (wellFounded_lt : WellFounded fun a b : WithBot (ℕ ×ₗ (ℕ ×ₗ ℕ)) => a < b)
  have hsettled (f : ι → WithBot (ℕ ×ₗ (ℕ ×ₗ ℕ))) : ∀ s : Network m nodes,
      Reachable regime capacity s → s.Settled → s.weight streams = f →
        ∃ s', Relation.ReflTransGen (Step .undisturbed) s s' ∧ ∀ i, s'.Completed i := by
    induction f using hshrinks.induction with
    | _ f ih =>
      rintro s hs hsettled rfl
      by_cases hsome : ∃ i, s.gone i = false
      · obtain ⟨i, hgone, hroomy, hstarved⟩ := exists_free hjoined hcapacity holds
          (orderly_of_reachable hm.toPrompt hquiet holds hs) hsettled hsome
        obtain ⟨stage, hprog⟩ := hsettled.between i hgone
        obtain ⟨s₁, hsteps, hsettled₁, hless, hsame⟩ : ∃ s₁,
            Relation.ReflTransGen (Step .undisturbed) s s₁ ∧ s₁.Settled ∧
            s₁.weight streams i < s.weight streams i ∧
            ∀ u, u ≠ i → (¬ ∃ c, c ∈ (nodes i).senders ∧ c ∈ (nodes u).receivers) →
              s₁.weight streams u = s.weight streams u := by
          cases hresult : (nodes i).future.result stage with
          | none =>
            exact exists_gone_on hm hjoined hquiet hs hsettled hgone hprog hresult hroomy hstarved
          | some result =>
            obtain ⟨s₁, hsteps, hsettled₁, hless, hsame⟩ := exists_left streams
              hm.toPrompt hjoined.toPipes hsettled hgone hprog (by rw [hresult]; rfl)
            exact ⟨s₁, hsteps, hsettled₁, hless, fun u hu _ => hsame u hu⟩
        obtain ⟨s₂, hsteps', hall⟩ := ih _ ⟨i, hless, hsame⟩ s₁ (reachable_of_steps hs hsteps)
          hsettled₁ rfl
        exact ⟨s₂, hsteps.trans hsteps', hall⟩
      · exact ⟨s, .refl, fun i => hsettled.completed i (by simpa using mt (Exists.intro i) hsome)⟩
  obtain ⟨s₁, hsteps, hbetween⟩ :=
    exists_between hm.toPrompt (orderly_of_reachable hm.toPrompt hquiet holds hs).quiet
  obtain ⟨s₂, htidied, hcompleted⟩ := exists_tidied hm.toPrompt hjoined.toPipes s₁
  have hreached := hsteps.trans htidied.steps
  obtain ⟨s₃, hsteps', hall⟩ := hsettled _ s₂ (reachable_of_steps hs hreached)
    ⟨fun i hi => by rw [htidied.progs]; exact hbetween i (by rwa [← htidied.gone]), hcompleted⟩ rfl
  exact ⟨s₃, hreached.trans hsteps', hall⟩

end Rounds

end Network

end Pureflow.Core
