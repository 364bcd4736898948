import Pureflow.Core.Confined

/-!
Networks of nodes over shared channels.

Every node runs the future of its executor, in turns of calls on its ports; calls of different
nodes interleave freely. A node that has returned, or was abandoned between two turns, is gone: its
permits and the ends of its channels are dropped one after the other. What a regime allows beside
is cancellation and abandoning.
-/

namespace Pureflow.Core

open Pureflow.Types Pureflow.Lib

/-- The future of an executor: what it does at a stage up to the next one, its result at a last
stage, and the reservations its permits stand for in between. -/
structure Future where
  Stage : Type
  start : Stage
  step : Stage → PortM Stage
  result : Stage → Option (Except PureflowError Unit)
  holds : Stage → Multiset ℕ
  holds_start : holds start = 0
  disciplined (stage : Stage) (g : Account) : g.held = holds stage →
    Prog.Wp ledger (step stage) (fun next g' => g'.held = holds next) g

lemma Future.holds_nothing : (0 : Multiset ℕ) = 0 := rfl

/-- Every call the future can make is one of `P`, as long as it stays in good stages, and it does. -/
def Future.Keeps (F : Future) (P : PortOp → Prop) (good : F.Stage → Prop) : Prop :=
  good F.start ∧ ∀ stage, good stage → (F.step stage).Calls P ∧ (F.step stage).Ends good

/-- A node with the channels whose ends it is given. -/
structure NetworkNode where
  future : Future
  senders : List ℕ
  receivers : List ℕ

/-- Whether a request for cancellation can come, and whether futures are abandoned. -/
structure Regime where
  cancels : Prop
  abandons : Prop

/-- Neither happens. -/
def Regime.undisturbed : Regime := ⟨False, False⟩

/-- The channels with their histories, the rest of each node's turn, and what was dropped. -/
structure Network (m : Mpsc PortPacket) {ι : Type} (nodes : ι → NetworkNode) where
  channels : ℕ → m.State
  committed : ℕ → List PortPacket
  received : ℕ → List PortPacket
  progs : (i : ι) → PortM (nodes i).future.Stage
  accounts : ι → Account
  gone : ι → Bool
  senderDropped : ℕ → Bool
  receiverDropped : ℕ → Bool
  cancelled : Bool

namespace Network

variable {m : Mpsc PortPacket} {ι : Type} {nodes : ι → NetworkNode} {regime : Regime}
  {capacity : ℕ → ℕ}

def initial (m : Mpsc PortPacket) (nodes : ι → NetworkNode) (capacity : ℕ → ℕ) :
    Network m nodes where
  channels c := m.channel (capacity c)
  committed _ := []
  received _ := []
  progs i := (nodes i).future.step (nodes i).future.start
  accounts _ := .holding 0
  gone _ := false
  senderDropped _ := false
  receiverDropped _ := false
  cancelled := false

/-- What can be observed of a channel now. -/
def view (s : Network m nodes) (c : ℕ) : Channel PortPacket := m.view (s.channels c)

/-- The token tells whether cancellation was requested. -/
def Tells (s : Network m nodes) : (op : PortOp) → op.Answer → Prop
  | .isCancelled, answer => answer = s.cancelled
  | _, _ => True

lemma tells_of_unrequested {s : Network m nodes} {events : List PortEvent}
    (hs : s.cancelled = false) (h : ¬ SeesRequest events) : ∀ e ∈ events, s.Tells e.1 e.2 := by
  rintro ⟨op, answer⟩ hmem
  cases op with
  | isCancelled =>
    cases answer with
    | false => exact hs.symm
    | true => exact absurd hmem h
  | _ => exact trivial

/-- The node has come to the end of its future. -/
def Returned (s : Network m nodes) (i : ι) (result : Except PureflowError Unit) : Prop :=
  ∃ stage, s.progs i = .ret stage ∧ (nodes i).future.result stage = some result

variable [DecidableEq ι]

/-- One step: a node's call is answered, a node goes on to its next turn, cancellation is
requested, a node goes, or something of a node that is gone is dropped. -/
inductive Step (regime : Regime) : Network m nodes → Network m nodes → Prop
  | call {s : Network m nodes} {i : ι} {op : PortOp}
      {k : op.Answer → PortM (nodes i).future.Stage} {answer : op.Answer}
      {channels : ℕ → m.State} :
    s.gone i = false → s.progs i = .call op k →
    System.Performs m op answer s.channels channels → s.Tells op answer →
    Step regime s { s with
      channels := channels
      committed := System.append s.committed (System.commits op)
      received := System.append s.received (System.receives op answer)
      progs := Function.update s.progs i (k answer)
      accounts := Function.update s.accounts i ((s.accounts i).after op answer) }
  | resume {s : Network m nodes} {i : ι} {stage : (nodes i).future.Stage} :
    s.gone i = false → s.progs i = .ret stage → (nodes i).future.result stage = none →
    Step regime s { s with
      progs := Function.update s.progs i ((nodes i).future.step stage) }
  | cancel {s : Network m nodes} : regime.cancels → Step regime s { s with cancelled := true }
  | leave {s : Network m nodes} {i : ι} {stage : (nodes i).future.Stage} :
    s.gone i = false → s.progs i = .ret stage →
    ((nodes i).future.result stage).isSome ∨ regime.abandons →
    Step regime s { s with gone := Function.update s.gone i true }
  | release {s : Network m nodes} {i : ι} {c : ℕ} {st : m.State} :
    s.gone i = true → c ∈ (s.accounts i).held → m.abort (s.channels c) st →
    Step regime s { s with
      channels := Function.update s.channels c st
      accounts := Function.update s.accounts i ((s.accounts i).after (.permitAbort c) ()) }
  | dropSender {s : Network m nodes} {i : ι} {c : ℕ} {st : m.State} :
    s.gone i = true → c ∈ (nodes i).senders → s.senderDropped c = false →
    m.dropSender (s.channels c) st →
    Step regime s { s with
      channels := Function.update s.channels c st
      senderDropped := Function.update s.senderDropped c true }
  | dropReceiver {s : Network m nodes} {i : ι} {c : ℕ} {st : m.State} :
    s.gone i = true → c ∈ (nodes i).receivers → s.receiverDropped c = false →
    m.dropReceiver (s.channels c) st →
    Step regime s { s with
      channels := Function.update s.channels c st
      receiverDropped := Function.update s.receiverDropped c true }

lemma Step.mono {regime' : Regime} (hcancels : regime.cancels → regime'.cancels)
    (habandons : regime.abandons → regime'.abandons) {s s' : Network m nodes} (h : Step regime s s') :
    Step regime' s s' := by
  cases h with
  | call hgone hprog hperforms htells => exact .call hgone hprog hperforms htells
  | resume hgone hprog hresult => exact .resume hgone hprog hresult
  | cancel hcancel => exact .cancel (hcancels hcancel)
  | leave hgone hprog hleaves => exact .leave hgone hprog (hleaves.imp_right habandons)
  | release hgone hheld hst => exact .release hgone hheld hst
  | dropSender hgone hc hkept hst => exact .dropSender hgone hc hkept hst
  | dropReceiver hgone hc hkept hst => exact .dropReceiver hgone hc hkept hst

lemma Step.exists_answered {s : Network m nodes} {i : ι} {op : PortOp}
    {k : op.Answer → PortM (nodes i).future.Stage} {answer : op.Answer} {channels : ℕ → m.State}
    (hgone : s.gone i = false) (hprog : s.progs i = .call op k)
    (hperforms : System.Performs m op answer s.channels channels) (htells : s.Tells op answer) :
    ∃ s', Step regime s s' ∧ s'.progs i = k answer ∧ ∀ j, j ≠ i → s'.progs j = s.progs j :=
  ⟨_, .call hgone hprog hperforms htells, Function.update_self i (k answer) s.progs,
    fun _ hne => Function.update_of_ne hne (k answer) s.progs⟩

/-- The states reached from fresh channels of the given capacities. -/
def Reachable (regime : Regime) (capacity : ℕ → ℕ) (s : Network m nodes) : Prop :=
  Relation.ReflTransGen (Step regime) (initial m nodes capacity) s

lemma returned_of_gone {regime : Regime} {capacity : ℕ → ℕ} {s : Network m nodes} {i : ι}
    (habandons : ¬ regime.abandons) (hs : Reachable regime capacity s) (hgone : s.gone i = true) :
    ∃ result, s.Returned i result := by
  induction hs with
  | refl => cases hgone
  | @tail s s' _ hstep ih =>
    cases hstep with
    | @call j op k answer channels hrunning hprog hperforms htells =>
      obtain ⟨result, stage, hret, hresult⟩ := ih hgone
      have hne : i ≠ j := by
        rintro rfl
        cases hgone.symm.trans hrunning
      exact ⟨result, stage, (Function.update_of_ne hne _ _).trans hret, hresult⟩
    | @resume j stage hrunning hprog hresult =>
      obtain ⟨result, stage, hret, hresult⟩ := ih hgone
      have hne : i ≠ j := by
        rintro rfl
        cases hgone.symm.trans hrunning
      exact ⟨result, stage, (Function.update_of_ne hne _ _).trans hret, hresult⟩
    | @leave j stage hrunning hprog hleaves =>
      rcases eq_or_ne i j with rfl | hne
      · obtain ⟨result, hresult⟩ := Option.isSome_iff_exists.mp (hleaves.resolve_right habandons)
        exact ⟨result, stage, hprog, hresult⟩
      · exact ih (by simpa [hne] using hgone)
    | _ => exact ih hgone

section Playing

/-- Calls answered by the channels one after the other. -/
inductive Plays (m : Mpsc PortPacket) : List PortEvent → (ℕ → m.State) → (ℕ → m.State) → Prop
  | nil {channels : ℕ → m.State} : Plays m [] channels channels
  | cons {op : PortOp} {answer : op.Answer} {rest : List PortEvent}
      {channels next last : ℕ → m.State} :
    System.Performs m op answer channels next → Plays m rest next last →
    Plays m (⟨op, answer⟩ :: rest) channels last

/-- A node after calls that brought it to the end of its turn. -/
def played (s : Network m nodes) (i : ι) (events : List PortEvent) (channels : ℕ → m.State)
    (stage : (nodes i).future.Stage) : Network m nodes :=
  { s with
    channels := channels
    committed := events.foldl (fun h e => System.append h (System.commits e.1)) s.committed
    received := events.foldl (fun h e => System.append h (System.receives e.1 e.2)) s.received
    progs := Function.update s.progs i (.ret stage)
    accounts := Function.update s.accounts i (Prog.Yields.after ledger events (s.accounts i)) }

/-- **A turn** can be run through when the channels can answer its calls. -/
lemma steps_of_yields {s : Network m nodes} {i : ι} {stage : (nodes i).future.Stage}
    {events : List PortEvent} {channels : ℕ → m.State} (hgone : s.gone i = false)
    (hyields : (s.progs i).Yields events stage) (hplays : Plays m events s.channels channels)
    (htells : ∀ e ∈ events, s.Tells e.1 e.2) :
    Relation.ReflTransGen (Step regime) s (s.played i events channels stage) := by
  induction events generalizing s with
  | nil =>
    cases hplays
    generalize hprog : s.progs i = p at hyields
    cases hyields
    have hsame : s.played i [] s.channels stage = s := by
      unfold played
      rw [← hprog]
      simp [Prog.Yields.after]
    rw [hsame]
  | cons e rest ih =>
    obtain ⟨op, answer⟩ := e
    cases hplays with
    | cons hperforms hrest =>
      obtain ⟨htell, htells⟩ := List.forall_mem_cons.mp htells
      generalize hprog : s.progs i = p at hyields
      cases hyields with
      | call hyields =>
        refine .head (.call hgone hprog hperforms htell) ?_
        have hlater := ih (s := { s with
            channels := _
            committed := System.append s.committed (System.commits op)
            received := System.append s.received (System.receives op answer)
            progs := Function.update s.progs i _
            accounts := Function.update s.accounts i ((s.accounts i).after op answer) })
          hgone (by simpa using hyields) hrest
          (fun e he => by simpa [Tells] using htells e he)
        simpa [played, Prog.Yields.after, ledger] using hlater

/-- A node after a turn, at the beginning of the next one. -/
def turned (s : Network m nodes) (i : ι) (events : List PortEvent) (channels : ℕ → m.State)
    (stage : (nodes i).future.Stage) : Network m nodes :=
  { s.played i events channels stage with
    progs := Function.update s.progs i ((nodes i).future.step stage) }

lemma steps_of_turn {s : Network m nodes} {i : ι} {stage : (nodes i).future.Stage}
    {events : List PortEvent} {channels : ℕ → m.State} (hgone : s.gone i = false)
    (hyields : (s.progs i).Yields events stage) (hplays : Plays m events s.channels channels)
    (htells : ∀ e ∈ events, s.Tells e.1 e.2) (hresult : (nodes i).future.result stage = none) :
    Relation.ReflTransGen (Step regime) s (s.turned i events channels stage) := by
  refine (steps_of_yields hgone hyields hplays htells).tail ?_
  have hresume : Step regime (s.played i events channels stage) _ :=
    .resume hgone (Function.update_self i _ s.progs) hresult
  simpa [played, turned] using hresume

end Playing

section Kept

variable {P : ι → PortOp → Prop} {good : (i : ι) → (nodes i).future.Stage → Prop}
  {s s' : Network m nodes}

/-- Every node keeps to its calls, and every packet on a channel was committed, and received, by
one of them. -/
structure Kept (P : ι → PortOp → Prop) (good : (i : ι) → (nodes i).future.Stage → Prop)
    (s : Network m nodes) : Prop where
  calls (i : ι) : (s.progs i).Calls (P i)
  ends (i : ι) : (s.progs i).Ends (good i)
  committed : ∀ c, ∀ packet ∈ s.committed c, ∃ i, P i (.permitSend c packet)
  received : ∀ c, ∀ packet ∈ s.received c, ∃ i, P i (.pollRecv c) ∨ P i (.tryRecv c)

lemma mem_append_history {history : ℕ → List PortPacket} {added : Option (ℕ × PortPacket)} {c : ℕ}
    {packet : PortPacket} (h : packet ∈ System.append history added c) :
    packet ∈ history c ∨ added = some (c, packet) := by
  rcases added with _ | ⟨d, sent⟩
  · exact .inl h
  · rcases eq_or_ne c d with rfl | hne
    · rw [System.append, Function.update_self, List.mem_append, List.mem_singleton] at h
      exact h.imp_right fun h => by rw [h]
    · rw [System.append_some_of_ne hne] at h
      exact .inl h

omit [DecidableEq ι] in
lemma kept_initial (hkeeps : ∀ i, (nodes i).future.Keeps (P i) (good i)) :
    Kept P good (initial m nodes capacity) where
  calls i := ((hkeeps i).2 _ (hkeeps i).1).1
  ends i := ((hkeeps i).2 _ (hkeeps i).1).2
  committed c packet h := by cases h
  received c packet h := by cases h

lemma forall_update {Q : (i : ι) → PortM (nodes i).future.Stage → Prop} {i : ι}
    {p : PortM (nodes i).future.Stage} (h : ∀ j, Q j (s.progs j)) (hp : Q i p) :
    ∀ j, Q j (Function.update s.progs i p j) := by
  intro j
  rcases eq_or_ne j i with rfl | hne
  · rw [Function.update_self]
    exact hp
  · rw [Function.update_of_ne hne]
    exact h j

lemma kept_step (hkeeps : ∀ i, (nodes i).future.Keeps (P i) (good i)) (h : Kept P good s)
    (hstep : Step regime s s') : Kept P good s' := by
  cases hstep with
  | @call i op k answer channels hgone hprog hperforms htells =>
    have hcalls := h.calls i
    have hends := h.ends i
    rw [hprog] at hcalls hends
    refine ⟨forall_update (Q := fun j p => p.Calls (P j)) h.calls (hcalls.2 answer),
      forall_update (Q := fun j p => p.Ends (good j)) h.ends (hends answer), ?_, ?_⟩
    · intro c packet hmem
      rcases mem_append_history hmem with hmem | hsent
      · exact h.committed c packet hmem
      · cases op with
        | permitSend d sent =>
          cases hsent
          exact ⟨i, hcalls.1⟩
        | _ => cases hsent
    · intro c packet hmem
      rcases mem_append_history hmem with hmem | htaken
      · exact h.received c packet hmem
      · cases op with
        | tryRecv d =>
          rcases answer with err | taken
          · cases htaken
          · cases htaken
            exact ⟨i, .inr hcalls.1⟩
        | pollRecv d =>
          rcases answer with (err | taken) | _
          · cases htaken
          · cases htaken
            exact ⟨i, .inl hcalls.1⟩
          · cases htaken
        | _ => cases htaken
  | @resume i stage hgone hprog hresult =>
    have hgood : good i stage := by
      have := h.ends i
      rwa [hprog] at this
    exact ⟨forall_update (Q := fun j p => p.Calls (P j)) h.calls ((hkeeps i).2 stage hgood).1,
      forall_update (Q := fun j p => p.Ends (good j)) h.ends ((hkeeps i).2 stage hgood).2,
      h.committed, h.received⟩
  | cancel => exact ⟨h.calls, h.ends, h.committed, h.received⟩
  | leave => exact ⟨h.calls, h.ends, h.committed, h.received⟩
  | release => exact ⟨h.calls, h.ends, h.committed, h.received⟩
  | dropSender => exact ⟨h.calls, h.ends, h.committed, h.received⟩
  | dropReceiver => exact ⟨h.calls, h.ends, h.committed, h.received⟩

/-- **Nodes keep to their calls**, which alone move packets. -/
theorem kept_of_reachable (hkeeps : ∀ i, (nodes i).future.Keeps (P i) (good i))
    (h : Reachable regime capacity s) : Kept P good s := by
  induction h with
  | refl => exact kept_initial hkeeps
  | tail _ hstep ih => exact kept_step hkeeps ih hstep

end Kept

section Sound

variable [Fintype ι] {s s' : Network m nodes}

/-- The reservations held by the nodes. -/
def outstanding (accounts : ι → Account) : Multiset ℕ := ∑ i, (accounts i).held

/-- What holds of every reachable state. -/
structure Inv (capacity : ℕ → ℕ) (s : Network m nodes) : Prop where
  sound (c : ℕ) :
    (s.view c).Sound (capacity c) ((outstanding s.accounts).count c) (s.committed c)
      (s.received c)
  alive (c : ℕ) : (s.view c).receiverAlive = !s.receiverDropped c
  running (i : ι) : s.gone i = false →
    Prog.Wp ledger (s.progs i) (fun stage g => g.held = (nodes i).future.holds stage)
      (s.accounts i)

lemma outstanding_split (accounts : ι → Account) (i : ι) :
    outstanding accounts = (∑ j ∈ Finset.univ.erase i, (accounts j).held) + (accounts i).held :=
  (Finset.sum_erase_add _ _ (Finset.mem_univ i)).symm

lemma outstanding_update (accounts : ι → Account) (i : ι) (g : Account) :
    outstanding (Function.update accounts i g) =
      (∑ j ∈ Finset.univ.erase i, (accounts j).held) + g.held := by
  rw [outstanding_split _ i, Function.update_self]
  congr 1
  refine Finset.sum_congr rfl fun j hj => ?_
  rw [Function.update_of_ne (Finset.ne_of_mem_erase hj)]

omit [DecidableEq ι] in
lemma inv_initial (hm : m.Lawful) : Inv capacity (initial m nodes capacity) where
  sound c := by
    simpa [view, initial, hm.view_channel, outstanding, Account.holding] using
      Channel.Sound.new (capacity c)
  alive c := by simp [view, initial, hm.view_channel, Channel.new]
  running i _ := (nodes i).future.disciplined _ _ (nodes i).future.holds_start.symm

/-- A call that a node is entitled to keeps every channel in agreement with its history and with
the reservations held. -/
lemma sound_performs (hm : m.Lawful) (h : Inv capacity s) {i : ι} {op : PortOp}
    {answer : op.Answer} {channels : ℕ → m.State} (hallow : (s.accounts i).allows op)
    (hperforms : System.Performs m op answer s.channels channels) (c : ℕ) :
    (m.view (channels c)).Sound (capacity c)
      ((outstanding (Function.update s.accounts i ((s.accounts i).after op answer))).count c)
      (System.append s.committed (System.commits op) c)
      (System.append s.received (System.receives op answer) c) ∧
    (m.view (channels c)).receiverAlive = !s.receiverDropped c := by
  have hsound (c : ℕ) : (m.view (s.channels c)).Sound (capacity c)
      ((∑ j ∈ Finset.univ.erase i, (s.accounts j).held).count c + (s.accounts i).held.count c)
      (s.committed c) (s.received c) := by
    have := h.sound c
    rwa [outstanding_split _ i, Multiset.count_add] at this
  constructor
  · rw [outstanding_update, Multiset.count_add]
    exact System.performs_sound hm hperforms hallow hsound c
  · rw [← h.alive c]
    refine System.performs_alive hm hperforms hallow (fun d hd => ?_) c
    have hcount : 0 < (s.accounts i).held.count d := Multiset.count_pos.mpr hd
    rw [(hsound d).reserved]
    omega

lemma inv_step (hm : m.Lawful) (h : Inv capacity s) (hstep : Step regime s s') :
    Inv capacity s' := by
  cases hstep with
  | @call i op k answer channels hgone hprog hperforms htells =>
    have hrun := h.running i hgone
    rw [hprog] at hrun
    obtain ⟨hallow, hnext⟩ := hrun
    have hkept := sound_performs hm h hallow hperforms
    refine ⟨fun c => (hkept c).1, fun c => (hkept c).2, fun j hj => ?_⟩
    rcases eq_or_ne j i with rfl | hne
    · simp only [Function.update_self]
      exact hnext answer trivial
    · simp only [Function.update_of_ne hne]
      exact h.running j hj
  | @resume i stage hgone hprog hresult =>
    refine ⟨h.sound, h.alive, fun j hj => ?_⟩
    rcases eq_or_ne j i with rfl | hne
    · simp only [Function.update_self]
      have hheld := h.running j hj
      rw [hprog] at hheld
      exact (nodes j).future.disciplined stage _ hheld
    · simp only [Function.update_of_ne hne]
      exact h.running j hj
  | cancel hcancels => exact ⟨h.sound, h.alive, h.running⟩
  | @leave i stage hgone hprog hleaves =>
    refine ⟨h.sound, h.alive, fun j hj => ?_⟩
    rcases eq_or_ne j i with rfl | hne
    · simp at hj
    · exact h.running j (by simpa [hne] using hj)
  | @release i c st hgone hheld hst =>
    have hallow : (s.accounts i).allows (.permitAbort c) := hheld
    have hkept := sound_performs hm h hallow (.permitAbort hst)
    refine ⟨fun c => (hkept c).1, fun c => (hkept c).2, fun j hj => ?_⟩
    rcases eq_or_ne j i with rfl | hne
    · exact absurd (hgone.symm.trans hj) (by simp)
    · simp only [Function.update_of_ne hne]
      exact h.running j hj
  | @dropSender i c st hgone hmem hdropped hst =>
    have hview := hm.dropSender hst
    refine ⟨System.sound_update h.sound ?_ fun d _ => ⟨rfl, rfl, rfl⟩, fun d => ?_, h.running⟩
    · rw [hview]
      exact h.sound c
    · rw [← h.alive d]
      rcases eq_or_ne d c with rfl | hd
      · simp [view, hview]
      · simp [view, hd]
  | @dropReceiver i c st hgone hmem hdropped hst =>
    have hview := hm.dropReceiver hst
    refine ⟨System.sound_update h.sound ?_ fun d _ => ⟨rfl, rfl, rfl⟩, fun d => ?_, h.running⟩
    · rw [hview]
      exact (h.sound c).close
    · rcases eq_or_ne d c with rfl | hd
      · simp [view, hview, Channel.close]
      · have := h.alive d
        simpa [view, hd] using this

/-- **Every reachable state satisfies the invariant.** -/
theorem inv_of_reachable (hm : m.Lawful) (h : Reachable regime capacity s) : Inv capacity s := by
  induction h with
  | refl => exact inv_initial hm
  | tail _ hstep ih => exact inv_step hm ih hstep

end Sound

end Network

end Pureflow.Core
