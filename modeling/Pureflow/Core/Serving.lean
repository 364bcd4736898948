import Pureflow.Core.Flows
import Pureflow.Core.Streaming
import Pureflow.Lib.Fair

/-!
Nodes that are served.

A node is served if it takes further steps as long as it has not returned. One that collects its
inputs until it is done then gets there once all its channels have lost their senders: from then on
no more packets come, and it takes one of them in every turn.
-/

namespace Pureflow.Core

open Pureflow.Types Pureflow.Lib

/-- A node that collects its inputs: as long as it is open and not done it does not return, and
where no sender is left a turn takes a packet or is the last one. -/
structure Gathers (node : NetworkNode) (isOpen done : node.future.Stage → Prop) : Prop where
  start : isOpen node.future.start
  begins : ¬ done node.future.start
  result {stage : node.future.Stage} : isOpen stage → node.future.result stage = none
  stays {stage : node.future.Stage} (g : Tally) : isOpen stage → ¬ done stage →
    Prog.Wp tallied (node.future.step stage) (fun next _ => isOpen next) g
  takes {stage : node.future.Stage} (g : Load) : isOpen stage → ¬ done stage →
    Prog.Wp (streaming (fun _ => False) node.receivers []) (node.future.step stage)
      (fun next g' => isOpen next → ¬ done next →
        g'.total node.receivers < g.total node.receivers) g

namespace Network

variable {m : Mpsc PortPacket} {senders : m.State → ℕ} {ι : Type} [DecidableEq ι]
  {nodes : ι → NetworkNode} {regime : Regime} {capacity : ℕ → ℕ} {i : ι} {s s' : Network m nodes}
  {run : ℕ → Network m nodes}

/-- A step of this node: one of its calls is answered, or it goes on to its next turn. -/
inductive Takes (i : ι) : Network m nodes → Network m nodes → Prop
  | call {s : Network m nodes} {op : PortOp} {k : op.Answer → PortM (nodes i).future.Stage}
      {answer : op.Answer} {channels : ℕ → m.State} :
    s.gone i = false → s.progs i = .call op k →
    System.Performs m op answer s.channels channels → s.Tells op answer →
    Takes i s (s.called i op answer (k answer) channels)
  | resume {s : Network m nodes} {stage : (nodes i).future.Stage} :
    s.gone i = false → s.progs i = .ret stage → (nodes i).future.result stage = none →
    Takes i s { s with progs := Function.update s.progs i ((nodes i).future.step stage) }

/-- The node is there and has not returned. -/
def Unfinished (i : ι) (s : Network m nodes) : Prop :=
  s.gone i = false ∧ ∀ result, ¬ s.Returned i result

/-- As long as it is unfinished the node takes further steps. -/
def Serves (run : ℕ → Network m nodes) (i : ι) : Prop := Fair (Unfinished i) (Takes i) run

/-- A run from the start. It may also rest. -/
structure Run (regime : Regime) (capacity : ℕ → ℕ) (run : ℕ → Network m nodes) : Prop where
  start : run 0 = initial m nodes capacity
  step (k : ℕ) : run (k + 1) = run k ∨ Step regime (run k) (run (k + 1))

lemma Run.reachable (h : Run regime capacity run) (k : ℕ) : Reachable regime capacity (run k) := by
  induction k with
  | zero =>
    rw [h.start]
    exact .refl
  | succ k ih =>
    rcases h.step k with hrest | hstep
    · rwa [hrest]
    · exact ih.tail hstep

/-- What a step that is not the node's own leaves to it; it may leave between two turns. -/
structure Spares (i : ι) (s s' : Network m nodes) : Prop where
  progs : s'.progs i = s.progs i
  accounts : s'.accounts i = s.accounts i
  gone : s'.gone i = false ∨ ∃ stage, s.progs i = .ret stage

lemma takes_or_spares (hgone : s.gone i = false) (h : Step regime s s') :
    Takes i s s' ∨ Spares i s s' := by
  cases h with
  | @call j op k answer channels hrunning hprog hperforms htells =>
    rcases eq_or_ne j i with rfl | hne
    · exact .inl (.call hrunning hprog hperforms htells)
    · exact .inr ⟨Function.update_of_ne hne.symm _ _, Function.update_of_ne hne.symm _ _,
        .inl hgone⟩
  | @resume j stage hrunning hprog hresult =>
    rcases eq_or_ne j i with rfl | hne
    · exact .inl (.resume hrunning hprog hresult)
    · exact .inr ⟨Function.update_of_ne hne.symm _ _, rfl, .inl hgone⟩
  | cancel => exact .inr ⟨rfl, rfl, .inl hgone⟩
  | @leave j stage hrunning hprog hleaves =>
    rcases eq_or_ne j i with rfl | hne
    · exact .inr ⟨rfl, rfl, .inr ⟨stage, hprog⟩⟩
    · refine .inr ⟨rfl, rfl, .inl ?_⟩
      simpa [hne.symm] using hgone
  | @release j c st hleft =>
    have hne : i ≠ j := by
      rintro rfl
      cases hgone.symm.trans hleft
    exact .inr ⟨rfl, Function.update_of_ne hne _ _, .inl hgone⟩
  | dropSender => exact .inr ⟨rfl, rfl, .inl hgone⟩
  | dropReceiver => exact .inr ⟨rfl, rfl, .inl hgone⟩

lemma senderDropped_step (h : Step regime s s') {c : ℕ} (hdropped : s.senderDropped c = true) :
    s'.senderDropped c = true := by
  cases h with
  | @dropSender j d st hleft hmem hkept hst =>
    rcases eq_or_ne c d with rfl | hne
    · exact Function.update_self ..
    · simpa [hne] using hdropped
  | _ => exact hdropped

lemma Run.senderDropped (h : Run regime capacity run) {c k l : ℕ} (hle : k ≤ l)
    (hdropped : (run k).senderDropped c = true) : (run l).senderDropped c = true := by
  induction l, hle using Nat.le_induction with
  | base => exact hdropped
  | succ l _ ih =>
    rcases h.step l with hrest | hstep
    · rwa [hrest]
    · exact senderDropped_step hstep ih

lemma Run.exists_dropped (h : Run regime capacity run) {channels : List ℕ}
    (hdropped : ∀ c ∈ channels, ∃ k, (run k).senderDropped c = true) :
    ∃ k, ∀ l, k ≤ l → ∀ c ∈ channels, (run l).senderDropped c = true := by
  induction channels with
  | nil => exact ⟨0, fun _ _ c hc => by cases hc⟩
  | cons d rest ih =>
    obtain ⟨hfirst, hrest⟩ := List.forall_mem_cons.mp hdropped
    obtain ⟨k₁, hk₁⟩ := hfirst
    obtain ⟨k₂, hk₂⟩ := ih hrest
    refine ⟨max k₁ k₂, fun l hle => List.forall_mem_cons.mpr ⟨?_, ?_⟩⟩
    · exact h.senderDropped (le_trans (le_max_left _ _) hle) hk₁
    · exact hk₂ l (le_trans (le_max_right _ _) hle)

lemma exists_run (hs : Reachable regime capacity s) :
    ∃ run, Run regime capacity run ∧ ∃ n, ∀ k, n ≤ k → run k = s := by
  induction hs with
  | refl => exact ⟨fun _ => initial m nodes capacity, ⟨rfl, fun _ => .inl rfl⟩, 0, fun _ _ => rfl⟩
  | @tail s s' _ hstep ih =>
    obtain ⟨run, hrun, n, hlast⟩ := ih
    refine ⟨fun k => if k ≤ n then run k else s', ⟨?_, fun k => ?_⟩, n + 1, fun k hk => ?_⟩
    · rw [if_pos (Nat.zero_le n)]
      exact hrun.start
    · rcases Nat.lt_trichotomy k n with hlt | rfl | hlt
      · rw [if_pos (by omega), if_pos (by omega)]
        exact hrun.step k
      · rw [if_neg (by omega), if_pos le_rfl, hlast k le_rfl]
        exact .inr hstep
      · rw [if_neg (by omega), if_neg (by omega)]
        exact .inl rfl
    · exact if_neg (by omega)

lemma serves_of_returned {n : ℕ} (hlast : ∀ k, n ≤ k → run k = s)
    {result : Except PureflowError Unit} (hreturned : s.Returned i result) : Serves run i := by
  intro k hunfinished
  have hnot := (hunfinished (max k n) (le_max_left _ _)).2 result
  rw [hlast _ (le_max_right _ _)] at hnot
  exact absurd hreturned hnot

lemma ends_of_steps {good : (nodes i).future.Stage → Prop}
    (hstays : ∀ stage, good stage → ((nodes i).future.step stage).Ends good)
    (h : (s.progs i).Ends good) (hsteps : Relation.ReflTransGen (Step regime) s s') :
    (s'.progs i).Ends good := by
  induction hsteps with
  | refl => exact h
  | @tail s s' _ hstep ih =>
    cases hstep with
    | @call j op k answer channels hgone hprog hperforms htells =>
      rcases eq_or_ne i j with rfl | hne
      · rw [hprog] at ih
        simp only [Function.update_self]
        exact ih answer
      · simp only [Function.update_of_ne hne]
        exact ih
    | @resume j stage hgone hprog hresult =>
      rcases eq_or_ne i j with rfl | hne
      · rw [hprog] at ih
        simp only [Function.update_self]
        exact hstays stage ih
      · simp only [Function.update_of_ne hne]
        exact ih
    | _ => exact ih

section Collecting

variable {isOpen done : (nodes i).future.Stage → Prop} {closed : List ℕ}

/-- The node is there, and its turn ends at an open stage. -/
structure Collecting (isOpen : (nodes i).future.Stage → Prop) (s : Network m nodes) : Prop where
  gone : s.gone i = false
  ends : ∃ g, Prog.Wp tallied (s.progs i) (fun next _ => isOpen next) g

lemma exists_follows [Fintype ι] (hm : m.Prompt senders) (hwires : Wires nodes)
    (hquiet : ¬ regime.cancels) (hs : Reachable regime capacity s) (i : ι) :
    ∃ closed, Follows senders i (fun _ _ => True) closed s := by
  choose good hkeeps using hwires.keeps
  have hany (p : PortM (nodes i).future.Stage) (g : Tally) :
      Prog.Wp tallied p (fun _ _ => True) g := by
    show Prog.Wp tallied.free p (fun _ _ => True) g
    exact Prog.wp_free (fun _ _ => trivial) p g
  obtain ⟨closed, -, hfollows, -⟩ := followed_of_reachable hm hwires hkeeps hquiet
    (fun stage g _ => hany _ g) .refl (follows_initial hm (hany _ _)) hs
  exact ⟨closed, hfollows⟩

lemma collecting_step (hm : m.Prompt senders) (hgathers : Gathers (nodes i) isOpen done)
    (hfollows : Follows senders i (fun _ _ => True) closed s)
    (hnot : ∀ stage, s.progs i = .ret stage → isOpen stage → ¬ done stage)
    (hkept : s'.gone i = true → ∃ result, s'.Returned i result) (h : Collecting isOpen s)
    (hstep : Step regime s s') : Collecting isOpen s' := by
  obtain ⟨hgone, g, hends⟩ := h
  rcases takes_or_spares hgone hstep with htakes | ⟨hprogs, -, hleaves⟩
  · cases htakes with
    | @call op k answer channels hrunning hprog hperforms htells =>
      rw [hprog] at hends
      refine ⟨hrunning, g.after op answer, ?_⟩
      rw [progs_called_self]
      exact hends.2 answer (tallied_of_performs hm hfollows g hperforms htells)
    | @resume stage hrunning hprog hresult =>
      rw [hprog] at hends
      refine ⟨hrunning, g, ?_⟩
      simp only [Function.update_self]
      exact hgathers.stays g hends (hnot stage hprog hends)
  · refine ⟨?_, g, by rwa [hprogs]⟩
    rcases hleaves with hgone' | ⟨stage, hprog⟩
    · exact hgone'
    · rw [hprog] at hends
      by_contra hleft
      obtain ⟨result, stage', hprog', hresult⟩ := hkept (by simpa using hleft)
      rw [hprogs, hprog] at hprog'
      cases hprog'
      rw [hgathers.result hends] at hresult
      cases hresult

/-- The load is what is queued for the node. -/
def Queued (s : Network m nodes) (i : ι) (g : Load) : Prop :=
  ∀ c ∈ (nodes i).receivers, g.queued c = (s.view c).queue.length

omit [DecidableEq ι] in
/-- **The network answers a node** whose channels have lost their senders as its load has it. -/
lemma answers_of_dropped (hm : m.Prompt senders)
    (hfollows : Follows senders i (fun _ _ => True) closed s)
    (hdropped : ∀ c ∈ (nodes i).receivers, s.senderDropped c = true) {g : Load}
    (hqueued : s.Queued i g) {op : PortOp} {answer : op.Answer} {channels : ℕ → m.State}
    (hpre : (streaming (fun _ => False) (nodes i).receivers []).pre op g)
    (hperforms : System.Performs m op answer s.channels channels) (htells : s.Tells op answer) :
    (streaming (fun _ => False) (nodes i).receivers []).can op answer g := by
  cases hperforms with
  | @tryReserve _ c answer st hst => exact absurd hpre.1 List.not_mem_nil
  | @pollRecv _ c answer st hst =>
    obtain ⟨rfl, -⟩ := hm.pollRecv_eq hst
    have hlength := hqueued c hpre
    have hnone : senders (s.channels c) = 0 := by
      rw [hfollows.senders c, if_pos (hdropped c hpre)]
    unfold Channel.pollRecv
    cases hqueue : (m.view (s.channels c)).queue with
    | cons packet rest =>
      show 0 < g.queued c
      rw [hlength, view, hqueue]
      exact Nat.succ_pos _
    | nil =>
      simp only [hnone, if_true]
      refine ⟨rfl, ?_⟩
      rw [hlength, view, hqueue, List.length_nil]
  | isCancelled b =>
    have hb : b = s.cancelled := htells
    exact hb.trans hfollows.quiet
  | permitSend | permitAbort | tryRecv | len | record => exact trivial

lemma committed_step (hwires : Wires nodes)
    (hfollows : Follows senders i (fun _ _ => True) closed s)
    (hs : Reachable regime capacity s) (hstep : Step regime s s') {c : ℕ}
    (hdropped : s.senderDropped c = true) : s'.committed c = s.committed c := by
  choose good hkeeps using hwires.keeps
  cases hstep with
  | @call j op k answer channels hgone hprog hperforms htells =>
    have hcalls := (kept_of_reachable hkeeps hs).calls j
    rw [hprog] at hcalls
    exact committed_of_dropped hfollows hgone hcalls.1 hdropped
  | _ => rfl

omit [DecidableEq ι] in
lemma Collecting.unfinished (hgathers : Gathers (nodes i) isOpen done)
    (h : Collecting isOpen s) : Unfinished i s := by
  obtain ⟨hgone, g, hends⟩ := h
  refine ⟨hgone, ?_⟩
  rintro result ⟨stage, hprog, hresult⟩
  rw [hprog] at hends
  rw [hgathers.result hends] at hresult
  cases hresult

variable [Fintype ι]

omit [DecidableEq ι] in
lemma queue_length (hinv : Inv capacity s)
    (hfollows : Follows senders i (fun _ _ => True) closed s) (hgone : s.gone i = false) {c : ℕ}
    (hc : c ∈ (nodes i).receivers) :
    (s.view c).queue.length = (s.committed c).length - (s.received c).length := by
  have hreceiver : s.receiverDropped c = false := by
    by_contra hdropped
    have hleft := hfollows.receiverDropped hc (by simpa using hdropped)
    cases hgone.symm.trans hleft
  have hcommitted := (hinv.sound c).alive (by rw [hinv.alive c, hreceiver, Bool.not_false])
  rw [hcommitted, List.length_append]
  omega

lemma queued_step (hm : m.Prompt senders) (hwires : Wires nodes) (hquiet : ¬ regime.cancels)
    (hs : Reachable regime capacity s) (hstep : Step regime s s') (hgone : s.gone i = false)
    (hgone' : s'.gone i = false)
    (hdropped : ∀ c ∈ (nodes i).receivers, s.senderDropped c = true) {g : Load}
    (hqueued : s.Queued i g) (hspares : Spares i s s') : s'.Queued i g := by
  intro c hc
  obtain ⟨closed, hfollows⟩ := exists_follows hm hwires hquiet hs i
  obtain ⟨closed', hfollows'⟩ := exists_follows hm hwires hquiet (hs.tail hstep) i
  have hreceived : s'.received c = s.received c := by
    rw [hfollows'.received c hc, hspares.accounts, ← hfollows.received c hc]
  rw [queue_length (inv_of_reachable hm.toLawful (hs.tail hstep)) hfollows' hgone' hc, hreceived,
    committed_step hwires hfollows hs hstep (hdropped c hc),
    ← queue_length (inv_of_reachable hm.toLawful hs) hfollows hgone hc]
  exact hqueued c hc

/-- **A call of the node** changes what is queued for it as it changes the load. -/
lemma queued_called (hm : m.Prompt senders) (hwires : Wires nodes) (hquiet : ¬ regime.cancels)
    (hs : Reachable regime capacity s) {op : PortOp} {k : op.Answer → PortM (nodes i).future.Stage}
    {answer : op.Answer} {channels : ℕ → m.State} (hgone : s.gone i = false)
    (hprog : s.progs i = .call op k) (hperforms : System.Performs m op answer s.channels channels)
    (htells : s.Tells op answer)
    (hdropped : ∀ c ∈ (nodes i).receivers, s.senderDropped c = true) {g : Load}
    (hqueued : s.Queued i g)
    (hpre : (streaming (fun _ => False) (nodes i).receivers []).pre op g) :
    (s.called i op answer (k answer) channels).Queued i (g.after op answer) := by
  intro c hc
  have hstep : Step regime s (s.called i op answer (k answer) channels) :=
    .call hgone hprog hperforms htells
  obtain ⟨closed, hfollows⟩ := exists_follows hm hwires hquiet hs i
  obtain ⟨closed', hfollows'⟩ := exists_follows hm hwires hquiet (hs.tail hstep) i
  have hbefore := hqueued c hc
  rw [queue_length (inv_of_reachable hm.toLawful hs) hfollows hgone hc] at hbefore
  rw [queue_length (inv_of_reachable hm.toLawful (hs.tail hstep)) hfollows' hgone hc,
    committed_step hwires hfollows hs hstep (hdropped c hc)]
  have hreceived : (s.called i op answer (k answer) channels).received c =
      System.append s.received (System.receives op answer) c := rfl
  rw [hreceived]
  cases op with
  | tryReserve d => exact absurd hpre.1 List.not_mem_nil
  | tryRecv d => exact hpre.elim
  | pollRecv d =>
    rcases answer with (err | packet) | _
    · exact hbefore
    · show (g.taking d).queued c = _
      rcases eq_or_ne c d with rfl | hne
      · rw [Load.taking_self, hbefore, System.receives, System.append, Function.update_self,
          List.length_append, List.length_singleton, Nat.sub_sub]
      · rw [Load.taking_of_ne g hne, hbefore, System.receives, System.append_some_of_ne hne]
    · exact hbefore
  | permitSend d packet | permitAbort d | len d | isCancelled | record r => exact hbefore

lemma collecting_of_never (hm : m.Prompt senders) (hwires : Wires nodes)
    (hquiet : ¬ regime.cancels) (hgathers : Gathers (nodes i) isOpen done)
    (hrun : Run regime capacity run)
    (hkept : ∀ k, (run k).gone i = true → ∃ result, (run k).Returned i result)
    (hnot : ∀ k stage, (run k).progs i = .ret stage → ¬ done stage) (k : ℕ) :
    Collecting isOpen (run k) := by
  induction k with
  | zero =>
    rw [hrun.start]
    exact ⟨rfl, .fresh, hgathers.stays .fresh hgathers.start hgathers.begins⟩
  | succ k ih =>
    rcases hrun.step k with hrest | hstep
    · rwa [hrest]
    · obtain ⟨closed, hfollows⟩ := exists_follows hm hwires hquiet (hrun.reachable k) i
      exact collecting_step hm hgathers hfollows (fun stage hprog _ => hnot k stage hprog)
        (hkept (k + 1)) ih hstep

omit [Fintype ι] in
lemma progs_of_rest (hrun : Run regime capacity run) {k : ℕ} (hgone : (run k).gone i = false)
    (hrest : ¬ Takes i (run k) (run (k + 1))) : (run (k + 1)).progs i = (run k).progs i := by
  rcases hrun.step k with hsame | hstep
  · rw [hsame]
  · exact ((takes_or_spares hgone hstep).resolve_left hrest).progs

omit [Fintype ι] in
lemma exists_turn_end (hgathers : Gathers (nodes i) isOpen done) (hrun : Run regime capacity run)
    (hserves : Serves run i) (hopen : ∀ k, Collecting isOpen (run k)) (first : ℕ) :
    ∃ k, first ≤ k ∧ ∃ stage, (run k).progs i = .ret stage := by
  by_contra hnone
  refine hserves.not_ranked (P := fun p k => first ≤ k ∧ (run k).progs i = p) Prog.next_wf
    (fun p k h => (hopen k).unfinished hgathers) (fun p k h hrest => ?_) (fun p k h htakes => ?_)
    _ first ⟨le_rfl, rfl⟩
  · exact ⟨h.1.trans (Nat.le_succ k), (progs_of_rest hrun (hopen k).gone hrest).trans h.2⟩
  · obtain ⟨hk, rfl⟩ := h
    generalize run (k + 1) = s' at htakes ⊢
    cases htakes with
    | @call op cont answer channels hrunning hprog hperforms htells =>
      refine ⟨cont answer, ⟨op, cont, answer, hprog, rfl⟩, hk.trans (Nat.le_succ k), ?_⟩
      exact progs_called_self
    | resume hrunning hprog => exact absurd ⟨k, hk, _, hprog⟩ hnone

/-- The rest of the turn leaves less than this queued for the node, or is the last one. -/
structure Draining (isOpen done : (nodes i).future.Stage → Prop)
    (b : ℕ × PortM (nodes i).future.Stage) (s : Network m nodes) : Prop where
  prog : s.progs i = b.2
  rest : ∃ g, s.Queued i g ∧ Prog.Wp (streaming (fun _ => False) (nodes i).receivers []) b.2
    (fun next g' => isOpen next → ¬ done next → g'.total (nodes i).receivers < b.1) g

/-- **A step of the node** brings it further in its turn, or begins one with less queued. -/
lemma draining_takes (hm : m.Prompt senders) (hwires : Wires nodes) (hquiet : ¬ regime.cancels)
    (hgathers : Gathers (nodes i) isOpen done) (hs : Reachable regime capacity s)
    (hopen : Collecting isOpen s) (hnot : ∀ stage, s.progs i = .ret stage → ¬ done stage)
    (hdropped : ∀ c ∈ (nodes i).receivers, s.senderDropped c = true)
    {b : ℕ × PortM (nodes i).future.Stage} (h : Draining isOpen done b s) (htakes : Takes i s s') :
    ∃ b', Prod.Lex (· < ·) Prog.Next b' b ∧ Draining isOpen done b' s' := by
  obtain ⟨n, p⟩ := b
  obtain ⟨hprog, g, hqueued, hwp⟩ := h
  cases htakes with
  | @call op k answer channels hrunning hcall hperforms htells =>
    obtain rfl : p = .call op k := hprog.symm.trans hcall
    obtain ⟨hpre, hafter⟩ := hwp
    obtain ⟨closed, hfollows⟩ := exists_follows hm hwires hquiet hs i
    have hcan := answers_of_dropped hm hfollows hdropped hqueued hpre hperforms htells
    refine ⟨(n, k answer), Prod.Lex.right n ⟨op, k, answer, rfl, rfl⟩, progs_called_self,
      g.after op answer, ?_, hafter answer hcan⟩
    exact queued_called hm hwires hquiet hs hrunning hcall hperforms htells hdropped hqueued hpre
  | @resume stage hrunning hret hresult =>
    obtain rfl : p = .ret stage := hprog.symm.trans hret
    obtain ⟨-, tally, hends⟩ := hopen
    rw [hret] at hends
    exact ⟨(g.total (nodes i).receivers, (nodes i).future.step stage),
      Prod.Lex.left _ _ (hwp hends (hnot stage hret)), Function.update_self .., g, hqueued,
      hgathers.takes g hends (hnot stage hret)⟩

/-- **A node that is served gets done** once its channels have lost their senders, unless it is
abandoned. -/
theorem done_of_served (hm : m.Prompt senders) (hwires : Wires nodes) (hquiet : ¬ regime.cancels)
    (hgathers : Gathers (nodes i) isOpen done) (hrun : Run regime capacity run)
    (hserves : Serves run i)
    (hkept : ∀ k, (run k).gone i = true → ∃ result, (run k).Returned i result)
    (hdropped : ∀ c ∈ (nodes i).receivers, ∃ k, (run k).senderDropped c = true) :
    ∃ k stage, (run k).progs i = .ret stage ∧ done stage := by
  by_contra hnever
  have hnot (k : ℕ) (stage : (nodes i).future.Stage) (hprog : (run k).progs i = .ret stage) :
      ¬ done stage := fun hdone => hnever ⟨k, stage, hprog, hdone⟩
  have hopen := collecting_of_never hm hwires hquiet hgathers hrun hkept hnot
  obtain ⟨first, hfirst⟩ := hrun.exists_dropped hdropped
  obtain ⟨k, hk, stage, hprog⟩ := exists_turn_end hgathers hrun hserves hopen first
  -- from here on every turn takes a packet
  let g : Load := ⟨fun c => ((run k).view c).queue.length, []⟩
  refine hserves.not_ranked (P := fun b k => first ≤ k ∧ Draining isOpen done b (run k))
    (wellFounded_lt.prod_lex Prog.next_wf) (fun b k h => (hopen k).unfinished hgathers)
    (fun b k h hrest => ?_) (fun b k h htakes => ?_) (g.total (nodes i).receivers + 1, .ret stage) k
    ⟨hk, hprog, g, fun c _ => rfl, fun _ _ => Nat.lt_succ_self _⟩
  · obtain ⟨hk, hprog, g, hqueued, hwp⟩ := h
    refine ⟨hk.trans (Nat.le_succ k), (progs_of_rest hrun (hopen k).gone hrest).trans hprog, g, ?_,
      hwp⟩
    rcases hrun.step k with hsame | hstep
    · rwa [hsame]
    · exact queued_step hm hwires hquiet (hrun.reachable k) hstep (hopen k).gone
        (hopen (k + 1)).gone (hfirst k hk) hqueued
        ((takes_or_spares (hopen k).gone hstep).resolve_left hrest)
  · obtain ⟨hk, h⟩ := h
    obtain ⟨b', hless, hdraining⟩ := draining_takes hm hwires hquiet hgathers (hrun.reachable k)
      (hopen k) (hnot k) (hfirst k hk) h htakes
    exact ⟨b', hless, hk.trans (Nat.le_succ k), hdraining⟩

end Collecting

end Network

end Pureflow.Core
