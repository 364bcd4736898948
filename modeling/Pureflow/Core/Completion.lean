import Pureflow.Core.Flows

/-!
Networks that run to completion.

On an acyclic graph, a network whose nodes send into each of their channels once does not get
stuck, whatever its nodes have done so far: a node all of whose sources are done can run to its end
on its own. At the end every channel has carried one packet, and its receiver has it.
-/

namespace Pureflow.Core

open Pureflow.Types Pureflow.Lib

namespace Network

variable {m : Mpsc PortPacket} {senders : m.State → ℕ} {ι : Type} {nodes : ι → NetworkNode}
  {conduct : (i : ι) → SendsOnce (nodes i)} {regime : Regime} {capacity : ℕ → ℕ}
  {closed : ι → List ℕ} {s s' s'' : Network m nodes} {i : ι}

/-- The node is gone, and so are the ends of channels it was given. -/
structure Completed (s : Network m nodes) (i : ι) : Prop where
  gone : s.gone i = true
  senders : ∀ c ∈ (nodes i).senders, s.senderDropped c = true
  receivers : ∀ c ∈ (nodes i).receivers, s.receiverDropped c = true

variable [DecidableEq ι]

/-- Steps in which the other nodes stand still. -/
structure Drives (regime : Regime) (i : ι) (s s' : Network m nodes) : Prop where
  steps : Relation.ReflTransGen (Step regime) s s'
  progs : ∀ j, j ≠ i → s'.progs j = s.progs j
  gone : ∀ j, j ≠ i → s'.gone j = s.gone j

namespace Drives

lemma refl (s : Network m nodes) : Drives regime i s s := ⟨.refl, fun _ _ => rfl, fun _ _ => rfl⟩

lemma trans (h : Drives regime i s s') (h' : Drives regime i s' s'') : Drives regime i s s'' :=
  ⟨h.steps.trans h'.steps, fun j hj => (h'.progs j hj).trans (h.progs j hj),
    fun j hj => (h'.gone j hj).trans (h.gone j hj)⟩

lemma of_step {p : PortM (nodes i).future.Stage} (hstep : Step regime s s')
    (hprogs : s'.progs = Function.update s.progs i p) (hgone : s'.gone = s.gone) :
    Drives regime i s s' := by
  refine ⟨.single hstep, fun j hj => ?_, fun j _ => by rw [hgone]⟩
  rw [hprogs, Function.update_of_ne hj]

end Drives

section Dropping

lemma exists_dropSenders (hm : m.Prompt senders) (hpipes : Pipes nodes)
    (h : Flows senders conduct closed s) (hgone : s.gone i = true) {channels : List ℕ}
    (hsub : channels ⊆ (nodes i).senders) :
    ∃ s', Drives regime i s s' ∧ Flows senders conduct closed s' ∧ s'.gone i = true ∧
      ∀ c, c ∈ channels ∨ s.senderDropped c = true → s'.senderDropped c = true := by
  induction channels generalizing s with
  | nil => exact ⟨s, .refl s, h, hgone, fun c hc => hc.resolve_left List.not_mem_nil⟩
  | cons c rest ih =>
    obtain ⟨hc, hrest⟩ := List.cons_subset.mp hsub
    cases hkept : s.senderDropped c with
    | true =>
      obtain ⟨s', hdrives, hflows, hgone', hdropped⟩ := ih h hgone hrest
      refine ⟨s', hdrives, hflows, hgone', fun d hd => hdropped d ?_⟩
      rcases hd with hd | hd
      · rcases List.mem_cons.mp hd with rfl | hd
        · exact .inr hkept
        · exact .inl hd
      · exact .inr hd
    | false =>
      obtain ⟨st, hst⟩ := hm.can_dropSender (s.channels c)
      have hstep : Step regime s { s with
          channels := Function.update s.channels c st
          senderDropped := Function.update s.senderDropped c true } :=
        .dropSender hgone hc hkept hst
      obtain ⟨s', hdrives, hflows, hgone', hdropped⟩ :=
        ih (flows_dropSender hm hpipes h hgone hc hkept hst) hgone hrest
      have hfirst : Drives regime i s _ := ⟨.single hstep, fun _ _ => rfl, fun _ _ => rfl⟩
      refine ⟨s', hfirst.trans hdrives, hflows, hgone', fun d hd => hdropped d ?_⟩
      rcases eq_or_ne d c with rfl | hne
      · exact .inr (Function.update_self ..)
      · simp only [Function.update_of_ne hne]
        exact hd.imp_left fun hd => (List.mem_cons.mp hd).resolve_left hne

lemma exists_dropReceivers (hm : m.Prompt senders) (h : Flows senders conduct closed s)
    (hgone : s.gone i = true) {channels : List ℕ} (hsub : channels ⊆ (nodes i).receivers) :
    ∃ s', Drives regime i s s' ∧ s'.gone i = true ∧ s'.senderDropped = s.senderDropped ∧
      ∀ c, c ∈ channels ∨ s.receiverDropped c = true → s'.receiverDropped c = true := by
  induction channels generalizing s with
  | nil => exact ⟨s, .refl s, hgone, rfl, fun c hc => hc.resolve_left List.not_mem_nil⟩
  | cons c rest ih =>
    obtain ⟨hc, hrest⟩ := List.cons_subset.mp hsub
    cases hkept : s.receiverDropped c with
    | true =>
      obtain ⟨s', hdrives, hgone', hsame, hdropped⟩ := ih h hgone hrest
      refine ⟨s', hdrives, hgone', hsame, fun d hd => hdropped d ?_⟩
      rcases hd with hd | hd
      · rcases List.mem_cons.mp hd with rfl | hd
        · exact .inr hkept
        · exact .inl hd
      · exact .inr hd
    | false =>
      obtain ⟨st, hst⟩ := hm.can_dropReceiver (s.channels c)
      have hstep : Step regime s { s with
          channels := Function.update s.channels c st
          receiverDropped := Function.update s.receiverDropped c true } :=
        .dropReceiver hgone hc hkept hst
      obtain ⟨s', hdrives, hgone', hsame, hdropped⟩ :=
        ih (flows_dropReceiver hm h hgone hc hst) hgone hrest
      have hfirst : Drives regime i s _ := ⟨.single hstep, fun _ _ => rfl, fun _ _ => rfl⟩
      refine ⟨s', hfirst.trans hdrives, hgone', hsame, fun d hd => hdropped d ?_⟩
      rcases eq_or_ne d c with rfl | hne
      · exact .inr (Function.update_self ..)
      · simp only [Function.update_of_ne hne]
        exact hd.imp_left fun hd => (List.mem_cons.mp hd).resolve_left hne

/-- **A node that is gone completes.** -/
lemma completes_of_gone (hm : m.Prompt senders) (hpipes : Pipes nodes)
    (h : Flows senders conduct closed s) (hgone : s.gone i = true) :
    ∃ s', Drives regime i s s' ∧ s'.Completed i := by
  obtain ⟨s₁, hdrives₁, hflows₁, hgone₁, hsenders⟩ :=
    exists_dropSenders hm hpipes h hgone (List.Subset.refl (nodes i).senders)
  obtain ⟨s₂, hdrives₂, hgone₂, hsame, hreceivers⟩ :=
    exists_dropReceivers hm hflows₁ hgone₁ (List.Subset.refl (nodes i).receivers)
  refine ⟨s₂, hdrives₁.trans hdrives₂, hgone₂, fun c hc => ?_, fun c hc => hreceivers c (.inl hc)⟩
  rw [hsame]
  exact hsenders c (.inl hc)

end Dropping

section Running

variable [Fintype ι]

/-- The nodes that send to this one are gone. -/
def SourcesGone (s : Network m nodes) (i : ι) : Prop :=
  ∀ c ∈ (nodes i).receivers, s.senderDropped c = true

/-- **A turn of a node whose sources are gone** can be run through, and it does not wait. -/
lemma exists_turn (hm : m.Prompt senders) (hpipes : Pipes nodes) (hcapacity : ∀ c, 0 < capacity c)
    (hinv : Inv capacity s) (h : Flows senders conduct closed s) (hgone : s.gone i = false)
    (hsources : s.SourcesGone i) {p : PortM (nodes i).future.Stage} (hprog : s.progs i = p)
    {Q : (nodes i).future.Stage → Standing → Prop}
    (hp : Prog.Wp (oneShot true (nodes i).receivers (nodes i).senders) p Q (s.standing closed i)) :
    ∃ s' closed' stage, Drives regime i s s' ∧ Inv capacity s' ∧ Flows senders conduct closed' s' ∧
      s'.gone i = false ∧ s'.SourcesGone i ∧ s'.progs i = .ret stage ∧
      Q stage (s'.standing closed' i) := by
  induction p generalizing s closed with
  | ret stage => exact ⟨s, closed, stage, .refl s, hinv, h, hgone, hsources, hprog, hp⟩
  | call op k ih =>
    obtain ⟨hpre, hnext⟩ := hp
    obtain ⟨answer, channels, hperforms, hunseen⟩ := exists_performs hm op s.channels
    have htells : s.Tells op answer :=
      tells_of_unrequested h.quiet hunseen _ (List.mem_singleton.mpr rfl)
    have hcan := oneShot_of_performs hm hpipes hcapacity hinv h hgone (fun _ => hsources) hpre
      hperforms htells
    have hstep : Step regime s (s.called i op answer (k answer) channels) :=
      .call hgone hprog hperforms htells
    have hinv' := inv_step hm.toLawful hinv hstep
    have hlater := hnext answer hcan
    have hstanding : (oneShot true (nodes i).receivers (nodes i).senders).post op answer
        (s.standing closed i) = (s.called i op answer (k answer) channels).standing
          (closing closed i op answer) i := standing_called_self.symm
    rw [hstanding] at hlater
    obtain ⟨s', closed', stage, hdrives, hrest⟩ := ih answer hinv'
      (flows_call hm hpipes hcapacity hinv h hgone hprog hperforms htells hinv') hgone hsources
      progs_called_self hlater
    exact ⟨s', closed', stage, (Drives.of_step hstep rfl rfl).trans hdrives, hrest⟩

/-- **Turn after turn** it comes to its end. -/
lemma exists_leaves (hm : m.Prompt senders) (hpipes : Pipes nodes)
    (hcapacity : ∀ c, 0 < capacity c) {n : ℕ} (hinv : Inv capacity s)
    (h : Flows senders conduct closed s) (hgone : s.gone i = false) (hsources : s.SourcesGone i)
    {stage : (nodes i).future.Stage} (hprog : s.progs i = .ret stage)
    (hleft : (conduct i).left stage (s.standing closed i) ≤ n) :
    ∃ s' closed', Drives regime i s s' ∧ Flows senders conduct closed' s' ∧ s'.gone i = true := by
  induction n using Nat.strong_induction_on generalizing s closed stage with
  | _ n ih =>
    cases hresult : (nodes i).future.result stage with
    | some result =>
      have hstep : Step regime s { s with gone := Function.update s.gone i true } :=
        .leave hgone hprog (.inl (by rw [hresult]; rfl))
      refine ⟨_, closed, ⟨.single hstep, fun _ _ => rfl, fun j hj => ?_⟩,
        flows_leave h hgone hprog hresult, Function.update_self i true s.gone⟩
      exact Function.update_of_ne hj _ _
    | none =>
      have hgood : (conduct i).Good stage (s.standing closed i) := by
        have hrunning := h.running i hgone
        rwa [hprog] at hrunning
      have hstep : Step regime s { s with
          progs := Function.update s.progs i ((nodes i).future.step stage) } :=
        .resume hgone hprog hresult
      have hinv' := inv_step hm.toLawful hinv hstep
      obtain ⟨s₁, closed₁, stage₁, hdrives₁, hinv₁, hflows₁, hgone₁, hsources₁, hprog₁, -, hless⟩ :=
        exists_turn hm hpipes hcapacity hinv' (flows_resume h hgone hprog) hgone hsources
          (Function.update_self i _ s.progs) ((conduct i).turn true hgood)
      have hless := hless rfl hresult
      obtain ⟨s₂, closed₂, hdrives₂, hend⟩ :=
        ih _ (hless.trans_le hleft) hinv₁ hflows₁ hgone₁ hsources₁ hprog₁ le_rfl
      have hfirst : Drives regime i s _ := .of_step hstep rfl rfl
      exact ⟨s₂, closed₂, (hfirst.trans hdrives₁).trans hdrives₂, hend⟩

/-- **A node whose sources are gone** runs to its end on its own. -/
theorem completes_of_sourcesGone (hm : m.Prompt senders) (hpipes : Pipes nodes)
    (hcapacity : ∀ c, 0 < capacity c) (hinv : Inv capacity s)
    (h : Flows senders conduct closed s) (hsources : s.SourcesGone i) :
    ∃ s', Drives regime i s s' ∧ s'.Completed i := by
  cases hgone : s.gone i with
  | true => exact completes_of_gone hm hpipes h hgone
  | false =>
    obtain ⟨s₁, closed₁, stage, hdrives₁, hinv₁, hflows₁, hgone₁, hsources₁, hprog₁, hgood⟩ :=
      exists_turn hm hpipes hcapacity hinv h hgone hsources rfl (wp_awake (h.running i hgone))
    obtain ⟨s₂, closed₂, hdrives₂, hflows₂, hgone₂⟩ :=
      exists_leaves hm hpipes hcapacity hinv₁ hflows₁ hgone₁ hsources₁ hprog₁ le_rfl
    obtain ⟨s₃, hdrives₃, hcompleted⟩ := completes_of_gone hm hpipes hflows₂ hgone₂
    exact ⟨s₃, (hdrives₁.trans hdrives₂).trans hdrives₃, hcompleted⟩

end Running

section Runs

lemma completed_step (h : s.Completed i) (hstep : Step regime s s') : s'.Completed i := by
  have hkeep {ι' : Type} [DecidableEq ι'] {flags : ι' → Bool} {a b : ι'} (ha : flags a = true) :
      Function.update flags b true a = true := by
    rcases eq_or_ne a b with rfl | hne
    · exact Function.update_self ..
    · rwa [Function.update_of_ne hne]
  cases hstep with
  | call | resume | cancel | release => exact ⟨h.gone, h.senders, h.receivers⟩
  | leave => exact ⟨hkeep h.gone, h.senders, h.receivers⟩
  | dropSender => exact ⟨h.gone, fun c hc => hkeep (h.senders c hc), h.receivers⟩
  | dropReceiver => exact ⟨h.gone, h.senders, fun c hc => hkeep (h.receivers c hc)⟩

variable [Fintype ι]

/-- **No deadlock.** In a reachable state where not all nodes are complete, one of those that are
not can run to its end while all others stand still. -/
theorem not_stuck (hm : m.Prompt senders) (hpipes : Pipes nodes) (hcapacity : ∀ c, 0 < capacity c)
    (hcancels : ¬ regime.cancels) (habandons : ¬ regime.abandons)
    (conduct : (i : ι) → SendsOnce (nodes i)) (hs : Reachable regime capacity s) :
    (∀ i, s.Completed i) ∨
      ∃ i, ¬ s.Completed i ∧ ∃ s', Drives regime i s s' ∧ s'.Completed i := by
  by_cases hall : ∀ i, s.Completed i
  · exact .inl hall
  right
  -- the first one along the graph has no source that is not complete
  obtain ⟨i, hi, hfirst⟩ := hpipes.acyclic.exists_source
    (Set.toFinite {i | ¬ s.Completed i}) (not_forall.mp hall)
  obtain ⟨closed, h⟩ := flows_of_reachable hm hpipes hcapacity hcancels habandons conduct hs
  refine ⟨i, hi, completes_of_sourcesGone hm hpipes hcapacity (inv_of_reachable hm.toLawful hs) h ?_⟩
  intro c hc
  obtain ⟨j, hj⟩ := hpipes.sourced hc
  by_contra hkept
  exact hfirst j (fun hcompleted => hkept (hcompleted.senders c hj)) ⟨c, hj, hc⟩

/-- **Completion**: every run can be continued until all nodes are complete. -/
theorem can_complete (hm : m.Prompt senders) (hpipes : Pipes nodes)
    (hcapacity : ∀ c, 0 < capacity c) (hcancels : ¬ regime.cancels)
    (habandons : ¬ regime.abandons) (conduct : (i : ι) → SendsOnce (nodes i))
    (hs : Reachable regime capacity s) :
    ∃ s', Relation.ReflTransGen (Step regime) s s' ∧ ∀ i, s'.Completed i := by
  classical
  induction hn : (Finset.univ.filter fun i => ¬ s.Completed i).card using Nat.strong_induction_on
    generalizing s with
  | _ n ih =>
    rcases not_stuck hm hpipes hcapacity hcancels habandons conduct hs with hall | hnext
    · exact ⟨s, .refl, hall⟩
    obtain ⟨i, hi, s₁, hdrives, hcompleted⟩ := hnext
    have hkept : ∀ j, s.Completed j → s₁.Completed j := by
      intro j hj
      have hsteps := hdrives.steps
      clear hdrives hcompleted
      induction hsteps with
      | refl => exact hj
      | tail _ hstep hbefore => exact completed_step hbefore hstep
    -- one node more is complete
    have hless : (Finset.univ.filter fun j => ¬ s₁.Completed j).card < n := by
      rw [← hn]
      apply Finset.card_lt_card
      refine ⟨fun j hj => ?_, fun hsub => ?_⟩
      · simp only [Finset.mem_filter, Finset.mem_univ, true_and] at hj ⊢
        exact mt (hkept j) hj
      · have hmem := hsub (Finset.mem_filter.mpr ⟨Finset.mem_univ i, hi⟩)
        exact (Finset.mem_filter.mp hmem).2 hcompleted
    obtain ⟨s₂, hsteps, hall⟩ := ih _ hless (hs.trans hdrives.steps) rfl
    exact ⟨s₂, hdrives.steps.trans hsteps, hall⟩

/-- **No errors.** -/
theorem returns_ok (hm : m.Prompt senders) (hpipes : Pipes nodes) (hcapacity : ∀ c, 0 < capacity c)
    (hcancels : ¬ regime.cancels) (habandons : ¬ regime.abandons)
    (conduct : (i : ι) → SendsOnce (nodes i)) (hs : Reachable regime capacity s)
    {result : Except PureflowError Unit} (h : s.Returned i result) : result = .ok () := by
  obtain ⟨closed, hflows⟩ := flows_of_reachable hm hpipes hcapacity hcancels habandons conduct hs
  obtain ⟨stage, hprog, hresult⟩ := h
  cases hgone : s.gone i with
  | true =>
    obtain ⟨last, hlast, hok⟩ := hflows.returned i hgone
    cases hprog.symm.trans hlast
    exact Option.some.inj (hresult.symm.trans hok)
  | false =>
    have hgood := hflows.running i hgone
    rw [hprog] at hgood
    exact ((conduct i).returns hgood hresult).1

/-- **One packet for every channel**, which its receiver has, at the end of a run. -/
theorem carried_once (hm : m.Prompt senders) (hpipes : Pipes nodes)
    (hcapacity : ∀ c, 0 < capacity c) (hcancels : ¬ regime.cancels)
    (habandons : ¬ regime.abandons) (conduct : (i : ι) → SendsOnce (nodes i))
    (hs : Reachable regime capacity s) (hall : ∀ i, s.gone i = true) {i j : ι} {c : ℕ}
    (hi : c ∈ (nodes i).senders) (hj : c ∈ (nodes j).receivers) :
    ∃ packet, s.committed c = [packet] ∧ s.received c = [packet] ∧
      withKey c (s.accounts j).received = [packet] := by
  obtain ⟨closed, h⟩ := flows_of_reachable hm hpipes hcapacity hcancels habandons conduct hs
  have hcount := length_committed h hi
  have hsent : 0 < (s.standing closed i).sent.count c :=
    List.count_pos_iff.mpr ((h.finished i (hall i)).sent hi)
  have honce := h.once i c
  obtain ⟨packet, hpacket⟩ := List.length_eq_one_iff.mp (show (s.committed c).length = 1 by omega)
  have hreceived : s.received c = s.committed c :=
    (h.closed j c ((h.finished j (hall j)).closed hj)).2
  refine ⟨packet, hpacket, hreceived.trans hpacket, ?_⟩
  rw [← h.received hj, hreceived, hpacket]

/-- A node has returned an error. -/
def Failed (s : Network m nodes) : Prop := ∃ i err, s.Returned i (.error err)

/-- One step of a run that is undisturbed until a node fails: only then may cancellation be
requested and futures be abandoned. -/
def RunStep (s s' : Network m nodes) : Prop := Step ⟨s.Failed, s.Failed⟩ s s'

/-- **A run is undisturbed**, since no node fails. -/
theorem reachable_of_run (hm : m.Prompt senders) (hpipes : Pipes nodes)
    (hcapacity : ∀ c, 0 < capacity c) (conduct : (i : ι) → SendsOnce (nodes i))
    (hs : Relation.ReflTransGen RunStep (initial m nodes capacity) s) :
    Reachable .undisturbed capacity s := by
  induction hs with
  | refl => exact .refl
  | @tail before after _ hstep ih =>
    have hsound : ¬ before.Failed := by
      rintro ⟨i, err, herr⟩
      cases returns_ok hm hpipes hcapacity id id conduct ih herr
    exact ih.tail (hstep.mono hsound hsound)

end Runs

end Network

end Pureflow.Core
