import Pureflow.Core.Completion

/-!
Networks whose nodes compute what they commit from the packets they take.

A node of this kind has, once it returns without an error, taken all that the channels it reads
have carried, and what it has committed is related to these packets. A run that ends well solves
the equations of all nodes. Where what a node commits is determined by what it takes, an acyclic
graph has one solution at most: all runs that end well carry the same packets over every channel,
whatever the schedule, the capacities and the channels.
-/

namespace Pureflow.Core

open Pureflow.Types Pureflow.Lib

/-- A node whose commits are computed from what the channels it reads have carried: what is known
of it at each stage, by its tally and by its account. -/
structure Computes (node : NetworkNode) where
  reads : List ℕ
  Emits : (ℕ → List PortPacket) → List (ℕ × PortPacket) → Prop
  Seen : node.future.Stage → Tally → Prop
  Deals : node.future.Stage → Account → Prop
  reads_given : reads ⊆ node.receivers
  emits_congr {carried carried' : ℕ → List PortPacket} {commits : List (ℕ × PortPacket)} :
    (∀ c ∈ reads, carried c = carried' c) → Emits carried commits → Emits carried' commits
  seen_start : Seen node.future.start .fresh
  seen_step (stage : node.future.Stage) (g : Tally) : Seen stage g →
    Prog.Wp tallied (node.future.step stage) Seen g
  deals_start : Deals node.future.start (.holding 0)
  deals_step (stage : node.future.Stage) (g : Account) : Deals stage g →
    Prog.Wp ledger (node.future.step stage) Deals g
  returns {stage : node.future.Stage} {g : Tally} {account : Account} :
    node.future.result stage = some (.ok ()) → Seen stage g → Deals stage account →
    g.received = account.received →
    reads ⊆ g.closed ∧ Emits (fun c => withKey c account.received) account.committed

/-- A node whose commits are determined by what it takes. -/
structure Determined (node : NetworkNode) extends Computes node where
  emits_unique {carried : ℕ → List PortPacket} {commits commits' : List (ℕ × PortPacket)} :
    Emits carried commits → Emits carried commits' → commits = commits'

/-- Two accounts of the same packets, whatever is held. -/
structure Account.SamePackets (g g' : Account) : Prop where
  committed : g.committed = g'.committed
  received : g.received = g'.received

lemma Account.SamePackets.after {g g' : Account} (h : g.SamePackets g') (op : PortOp)
    (answer : op.Answer) : (g.after op answer).SamePackets (g'.after op answer) := by
  obtain ⟨hcommitted, hreceived⟩ := h
  cases op with
  | tryReserve c => rcases answer with err | ⟨⟩ <;> exact ⟨hcommitted, hreceived⟩
  | permitSend c packet => exact ⟨congrArg (· ++ [(c, packet)]) hcommitted, hreceived⟩
  | tryRecv c =>
    rcases answer with err | packet
    · exact ⟨hcommitted, hreceived⟩
    · exact ⟨hcommitted, congrArg (· ++ [(c, packet)]) hreceived⟩
  | pollRecv c =>
    rcases answer with (err | packet) | _
    · exact ⟨hcommitted, hreceived⟩
    · exact ⟨hcommitted, congrArg (· ++ [(c, packet)]) hreceived⟩
    · exact ⟨hcommitted, hreceived⟩
  | permitAbort c | len c | isCancelled | record r => exact ⟨hcommitted, hreceived⟩

namespace Network

variable {m : Mpsc PortPacket} {senders : m.State → ℕ} {ι : Type} {nodes : ι → NetworkNode}
  {computes : (i : ι) → Computes (nodes i)} {regime : Regime} {capacity : ℕ → ℕ}
  {s s' : Network m nodes}

/-- What holds of every reachable state: the nodes deal with their packets as they are known to,
and a channel carries what the node that sends into it has committed to it. -/
structure Dealt (computes : (i : ι) → Computes (nodes i)) (s : Network m nodes) : Prop where
  deals (i : ι) : ∃ g : Account, g.SamePackets (s.accounts i) ∧
    Prog.Wp ledger (s.progs i) (computes i).Deals g
  committed {i : ι} {c : ℕ} : c ∈ (nodes i).senders →
    s.committed c = withKey c (s.accounts i).committed

lemma dealt_initial : Dealt computes (initial m nodes capacity) where
  deals i := ⟨.holding 0, ⟨rfl, rfl⟩, (computes i).deals_step _ _ (computes i).deals_start⟩
  committed _ := rfl

variable [DecidableEq ι]

lemma dealt_step (hwires : Wires nodes) {good : (j : ι) → (nodes j).future.Stage → Prop}
    (hkept : Kept (fun i => (nodes i).Owns) good s) (h : Dealt computes s)
    (hstep : Step regime s s') : Dealt computes s' := by
  cases hstep with
  | @call i op k answer channels hgone hprog hperforms htells =>
    have howns : (nodes i).Owns op := by
      have hcalls := hkept.calls i
      rw [hprog] at hcalls
      exact hcalls.1
    refine ⟨fun j => ?_, fun {j c} hc => ?_⟩
    · rcases eq_or_ne j i with rfl | hne
      · obtain ⟨g, hsame, hdeals⟩ := h.deals j
        rw [hprog] at hdeals
        refine ⟨g.after op answer, ?_, ?_⟩
        · simp only [Function.update_self]
          exact hsame.after op answer
        · simp only [Function.update_self]
          exact hdeals.2 answer trivial
      · simp only [Function.update_of_ne hne]
        exact h.deals j
    · show System.append s.committed (System.commits op) c =
        withKey c (Function.update s.accounts i ((s.accounts i).after op answer) j).committed
      rw [append_eq_withKey, h.committed hc]
      rcases eq_or_ne j i with rfl | hne
      · rw [Function.update_self, System.after_committed, withKey_append]
      · rw [Function.update_of_ne hne]
        -- another node commits to channels of its own
        cases op with
        | permitSend d packet =>
          have hother : d ≠ c := by
            rintro rfl
            exact hne (hwires.sender_unique hc howns)
          rw [System.commits, Option.toList_some, withKey_cons_of_ne hother, withKey_nil,
            List.append_nil]
        | _ => exact List.append_nil _
  | @resume i stage hgone hprog hresult =>
    refine ⟨fun j => ?_, h.committed⟩
    rcases eq_or_ne j i with rfl | hne
    · obtain ⟨g, hsame, hdeals⟩ := h.deals j
      rw [hprog] at hdeals
      refine ⟨g, hsame, ?_⟩
      simp only [Function.update_self]
      exact (computes j).deals_step stage g hdeals
    · simp only [Function.update_of_ne hne]
      exact h.deals j
  | @release i d st hgone hheld hst =>
    have hsame (j : ι) : (s.accounts j).SamePackets
        (Function.update s.accounts i ((s.accounts i).after (.permitAbort d) ()) j) := by
      rcases eq_or_ne j i with rfl | hne
      · rw [Function.update_self]
        exact ⟨rfl, rfl⟩
      · rw [Function.update_of_ne hne]
        exact ⟨rfl, rfl⟩
    refine ⟨fun j => ?_, fun {j c} hc => ?_⟩
    · obtain ⟨g, hg, hdeals⟩ := h.deals j
      exact ⟨g, ⟨hg.committed.trans (hsame j).committed, hg.received.trans (hsame j).received⟩,
        hdeals⟩
    · rw [h.committed hc, (hsame j).committed]
  | cancel | leave | dropSender | dropReceiver => exact ⟨h.deals, h.committed⟩

variable (computes) in
theorem dealt_of_reachable (hwires : Wires nodes) (hs : Reachable regime capacity s) :
    Dealt computes s := by
  choose good hkeeps using hwires.keeps
  induction hs with
  | refl => exact dealt_initial
  | tail hbefore hstep ih => exact dealt_step hwires (kept_of_reachable hkeeps hbefore) ih hstep

section EndsWell

lemma returned_step {i : ι} {result : Except PureflowError Unit} (h : s.Returned i result)
    (hstep : Step regime s s') : s'.Returned i result := by
  obtain ⟨stage, hprog, hresult⟩ := h
  have hother {j : ι} {p : PortM (nodes j).future.Stage} (hne : i ≠ j) :
      Function.update s.progs j p i = .ret stage := by
    rwa [Function.update_of_ne hne]
  cases hstep with
  | @call j op k answer channels hgone hcall hperforms htells =>
    refine ⟨stage, hother ?_, hresult⟩
    rintro rfl
    cases hprog.symm.trans hcall
  | @resume j last hgone hlast hnone =>
    refine ⟨stage, hother ?_, hresult⟩
    rintro rfl
    cases hprog.symm.trans hlast
    cases hnone.symm.trans hresult
  | cancel | leave | release | dropSender | dropReceiver => exact ⟨stage, hprog, hresult⟩

/-- **A run that no node has failed in is undisturbed.** -/
theorem reachable_of_sound (hs : Relation.ReflTransGen RunStep (initial m nodes capacity) s)
    (hsound : ¬ s.Failed) : Reachable .undisturbed capacity s := by
  induction hs with
  | refl => exact .refl
  | @tail before after _ hstep ih =>
    have hbefore : ¬ before.Failed := by
      rintro ⟨i, err, herr⟩
      exact hsound ⟨i, err, returned_step herr hstep⟩
    exact (ih hbefore).tail (hstep.mono hbefore hbefore)

omit [DecidableEq ι] in
lemma returned_unique {i : ι} {result result' : Except PureflowError Unit}
    (h : s.Returned i result) (h' : s.Returned i result') : result = result' := by
  obtain ⟨stage, hprog, hresult⟩ := h
  obtain ⟨stage', hprog', hresult'⟩ := h'
  cases hprog.symm.trans hprog'
  exact Option.some.inj (hresult.symm.trans hresult')

omit [DecidableEq ι] in
lemma sound_of_ok (hok : ∀ i, s.Returned i (.ok ())) : ¬ s.Failed := by
  rintro ⟨i, err, herr⟩
  cases returned_unique (hok i) herr

end EndsWell

section Outcome

variable [Fintype ι]

variable (computes) in
lemma followed_of_ok (hm : m.Prompt senders) (hwires : Wires nodes)
    (hs : Reachable .undisturbed capacity s) {i : ι} (hok : s.Returned i (.ok ())) :
    ∃ closed, Follows senders i (computes i).Seen closed s ∧ (computes i).reads ⊆ closed ∧
      (computes i).Emits (fun c => withKey c (s.accounts i).received)
        (s.accounts i).committed := by
  choose good hkeeps using hwires.keeps
  obtain ⟨stage, hprog, hresult⟩ := hok
  obtain ⟨closed, -, hfollows, -⟩ := followed_of_reachable hm hwires
    hkeeps id (computes i).seen_step .refl
    (follows_initial hm ((computes i).seen_step _ _ (computes i).seen_start)) hs
  obtain ⟨g, hsame, hdeals⟩ := (dealt_of_reachable computes hwires hs).deals i
  have hseen := hfollows.running
  rw [hprog] at hseen hdeals
  obtain ⟨hclosed, hemits⟩ := (computes i).returns hresult hseen hdeals hsame.received.symm
  rw [hsame.committed, hsame.received] at hemits
  exact ⟨closed, hfollows, hclosed, hemits⟩

variable (computes) in
/-- **One node at the end of a run**: it has all that the channels it reads have carried, and it
has committed what it computes from these packets. -/
lemma emitted_of_ok (hm : m.Prompt senders) (hwires : Wires nodes)
    (hs : Reachable .undisturbed capacity s) {i : ι} (hok : s.Returned i (.ok ())) :
    (computes i).Emits s.committed (s.accounts i).committed := by
  obtain ⟨closed, hfollows, hclosed, hemits⟩ := followed_of_ok computes hm hwires hs hok
  refine (computes i).emits_congr (fun c hc => ?_) hemits
  rw [← hfollows.received c ((computes i).reads_given hc)]
  exact (hfollows.finished c (hclosed hc)).2.2

/-- What channels carry and nodes commit, such that every node computes its commits from what the
channels it reads carry, and a channel carries what its node commits to it. -/
structure Solves (computes : (i : ι) → Computes (nodes i)) (carried : ℕ → List PortPacket)
    (commits : ι → List (ℕ × PortPacket)) : Prop where
  emits (i : ι) : (computes i).Emits carried (commits i)
  carries (i : ι) {c : ℕ} : c ∈ (nodes i).senders → carried c = withKey c (commits i)

/-- **A run that ends well solves the equations of its nodes.** -/
theorem solves_of_ok (hm : m.Prompt senders) (hwires : Wires nodes)
    (computes : (i : ι) → Computes (nodes i))
    (hs : Relation.ReflTransGen RunStep (initial m nodes capacity) s)
    (hok : ∀ i, s.Returned i (.ok ())) :
    Solves computes s.committed fun i => (s.accounts i).committed := by
  have hs := reachable_of_sound hs (sound_of_ok hok)
  exact ⟨fun i => emitted_of_ok computes hm hwires hs (hok i), fun i _ hc =>
    (dealt_of_reachable computes hwires hs).committed hc⟩

omit [DecidableEq ι] in
/-- **An acyclic graph of determined nodes has one solution.** -/
theorem solution_unique (hpipes : Pipes nodes) (determined : (i : ι) → Determined (nodes i))
    {carried carried' : ℕ → List PortPacket} {commits commits' : ι → List (ℕ × PortPacket)}
    (h : Solves (fun i => (determined i).toComputes) carried commits)
    (h' : Solves (fun i => (determined i).toComputes) carried' commits') (i : ι) :
    commits i = commits' i := by
  by_contra hdiffer
  -- the first node along the graph that differs reads channels that carry the same
  obtain ⟨j, hj, hfirst⟩ := hpipes.acyclic.exists_source
    (Set.toFinite {j | commits j ≠ commits' j}) ⟨i, hdiffer⟩
  refine hj ((determined j).emits_unique
    ((determined j).emits_congr (fun c hc => ?_) (h.emits j)) (h'.emits j))
  have hreceiver := (determined j).reads_given hc
  obtain ⟨k, hk⟩ := hpipes.sourced hreceiver
  have hsame : commits k = commits' k := not_not.mp fun hne => hfirst k hne ⟨c, hk, hreceiver⟩
  rw [h.carries k hk, h'.carries k hk, hsame]

variable {m' : Mpsc PortPacket} {senders' : m'.State → ℕ} {capacity' : ℕ → ℕ}

/-- **The outcome is determined.** In two runs of the same nodes that end well, every node commits
the same packets in the same order, and every channel carries the same. -/
theorem outcome_determined (hm : m.Prompt senders) (hm' : m'.Prompt senders')
    (hpipes : Pipes nodes) (hwires : Wires nodes) (determined : (i : ι) → Determined (nodes i))
    {s : Network m nodes} {s' : Network m' nodes}
    (hs : Relation.ReflTransGen RunStep (initial m nodes capacity) s)
    (hs' : Relation.ReflTransGen RunStep (initial m' nodes capacity') s')
    (hok : ∀ i, s.Returned i (.ok ())) (hok' : ∀ i, s'.Returned i (.ok ())) (i : ι) :
    (s.accounts i).committed = (s'.accounts i).committed ∧
      ∀ c ∈ (nodes i).senders, s.committed c = s'.committed c := by
  have hsolves := solves_of_ok hm hwires (fun i => (determined i).toComputes) hs hok
  have hsolves' := solves_of_ok hm' hwires (fun i => (determined i).toComputes) hs' hok'
  have hsame := solution_unique hpipes determined hsolves hsolves' i
  refine ⟨hsame, fun c hc => ?_⟩
  rw [hsolves.carries i hc, hsolves'.carries i hc]
  exact congrArg (withKey c) hsame

end Outcome

section Circles

lemma returned_of_left {j : ι} (hstep : Step .undisturbed s s')
    (hbefore : s.gone j = true → ∃ result, s.Returned j result) (h : s'.gone j = true) :
    ∃ result, s.Returned j result := by
  cases hstep with
  | @leave i stage hgone hprog hleaves =>
    rcases eq_or_ne j i with rfl | hne
    · obtain ⟨result, hresult⟩ := Option.isSome_iff_exists.mp (hleaves.resolve_right id)
      exact ⟨result, stage, hprog, hresult⟩
    · exact hbefore (by simpa [hne] using h)
  | cancel hcancels => exact hcancels.elim
  | call | resume | release | dropSender | dropReceiver => exact hbefore h

variable [Fintype ι]

variable (computes) in
/-- It has outlived those that send into these channels. -/
lemma sources_gone_of_ok (hm : m.Prompt senders) (hwires : Wires nodes)
    (hs : Reachable .undisturbed capacity s) {i j : ι} {c : ℕ} (hok : s.Returned i (.ok ()))
    (hreads : c ∈ (computes i).reads) (hsends : c ∈ (nodes j).senders) : s.gone j = true := by
  obtain ⟨closed, hfollows, hclosed, -⟩ := followed_of_ok computes hm hwires hs hok
  exact hfollows.senderDropped hsends (hfollows.finished c (hclosed hreads)).2.1

/-- Each of these nodes reads what one of them sends. -/
def Circular (computes : (i : ι) → Computes (nodes i)) (circle : Set ι) : Prop :=
  ∀ i ∈ circle, ∃ j ∈ circle, ∃ c ∈ (computes i).reads, c ∈ (nodes j).senders

/-- **Nodes that wait for each other never return**, as long as none fails: the first of them to
return would have outlived another one. -/
theorem circle_starves (hm : m.Prompt senders) (hwires : Wires nodes) {circle : Set ι}
    (hcircle : Circular computes circle) (hs : Reachable .undisturbed capacity s)
    (hsound : ¬ s.Failed) {i : ι} (hi : i ∈ circle) (result : Except PureflowError Unit) :
    ¬ s.Returned i result := by
  have hleft {s : Network m nodes} (hs : Reachable .undisturbed capacity s) (hsound : ¬ s.Failed)
      {i : ι} (hi : i ∈ circle) {result : Except PureflowError Unit}
      (hreturned : s.Returned i result) : ∃ j ∈ circle, s.gone j = true := by
    have hok : s.Returned i (.ok ()) := by
      cases result with
      | error err => exact absurd ⟨i, err, hreturned⟩ hsound
      | ok => exact hreturned
    obtain ⟨j, hj, c, hreads, hsends⟩ := hcircle i hi
    exact ⟨j, hj, sources_gone_of_ok computes hm hwires hs hok hreads hsends⟩
  intro hreturned
  induction hs generalizing i result with
  | refl =>
    obtain ⟨j, -, hgone⟩ := hleft .refl hsound hi hreturned
    cases hgone
  | @tail before after hbefore hstep ih =>
    have hsoundBefore : ¬ before.Failed := by
      rintro ⟨j, err, herr⟩
      exact hsound ⟨j, err, returned_step herr hstep⟩
    obtain ⟨j, hj, hgone⟩ := hleft (hbefore.tail hstep) hsound hi hreturned
    obtain ⟨result', hreturned'⟩ := returned_of_left hstep (returned_of_gone id hbefore) hgone
    exact ih hsoundBefore hj result' hreturned'

end Circles

end Network

end Pureflow.Core
