import Pureflow.Core.Determined
import Pureflow.Wasm.RuleFuture

/-!
What a rule node commits is computed from what it has received.

It commits copies of the packets it routes, numbered by its counter, and the packets it has received
are a merge of what the edges that arrive at its port `in` have carried. Where this is a single edge
there is one such merge only.
-/

namespace Pureflow.Wasm

open Pureflow.Types Pureflow.Core Pureflow.Lib Pureflow.Rules

section Copies

variable (ctx : NodeContext) (outputs : PortsOut) (node : RuleExecutor)

/-- The decision for a packet, where no cancellation is seen. -/
def RuleExecutor.decision (packet : PortPacket) : RuleExecutor → Option RuleDecision
  | .native node => (evaluate node.ruleSet packet (evalContext ctx packet)).toOption
  | .wasm node => (node.component.evaluate node.ruleSet (buildHostContext ctx packet)).toOption

/-- What an action commits for a packet. -/
def copiesFor (action : RuleAction) (counter : UInt64) (packet : PortPacket) :
    List (ℕ × PortPacket) :=
  match action.target with
  | none => []
  | some portId =>
    match forwardPacket ctx portId counter packet with
    | .error _ => []
    | .ok forwarded => (outputs.channels portId).map (·, forwarded)

/-- The counter and the commits after one packet more. -/
def RuleExecutor.copy (sofar : UInt64 × List (ℕ × PortPacket)) (packet : PortPacket) :
    UInt64 × List (ℕ × PortPacket) :=
  match node.decision ctx packet with
  | none => sofar
  | some decision => (sofar.1 + 1, sofar.2 ++ copiesFor ctx outputs decision.action sofar.1 packet)

/-- The counter and the commits after these packets. -/
def RuleExecutor.copies (start : UInt64) (packets : List PortPacket) :
    UInt64 × List (ℕ × PortPacket) :=
  packets.foldl (node.copy ctx outputs) (start, [])

variable {ctx outputs node}

lemma RuleExecutor.copies_append_singleton (start : UInt64) (packets : List PortPacket)
    (packet : PortPacket) : node.copies ctx outputs start (packets ++ [packet]) =
      node.copy ctx outputs (node.copies ctx outputs start packets) packet := by
  rw [copies, List.foldl_append, List.foldl_cons, List.foldl_nil]
  rfl

/-- **What follows a receive**: the decision is acted on, or the node returns an error. -/
lemma RuleExecutor.process_decides (counter : UInt64) (packet : PortPacket) :
    ((node.loop ctx).process counter packet).Ends fun s =>
      (∃ err, s = (counter, .returned (.error err))) ∨
      ∃ decision, node.decision ctx packet = some decision ∧
        s = (counter + 1, executeAction decision.action ctx counter packet) := by
  cases node with
  | native node =>
    show (node.process ctx counter packet).Ends _
    unfold RuleNode.process
    cases hevaluate : evaluate node.ruleSet packet (evalContext ctx packet) with
    | error e => exact .inl ⟨_, rfl⟩
    | ok decision =>
      have hdecision : (RuleExecutor.native node).decision ctx packet = some decision := by
        show (evaluate node.ruleSet packet (evalContext ctx packet)).toOption = _
        rw [hevaluate]
        rfl
      rw [Prog.ends_bind]
      exact Prog.ends_of_forall (fun _ => .inr ⟨decision, hdecision, rfl⟩) _
  | wasm node =>
    show (node.process ctx counter packet).Ends _
    have hanswer : (node.component.evaluateWithCancellation node.request node.ruleSet
        (buildHostContext ctx packet)).Ends fun answer =>
          ∀ decision, answer = .ok decision →
            (RuleExecutor.wasm node).decision ctx packet = some decision := by
      unfold RuleComponent.evaluateWithCancellation
      rw [Prog.ends_bind]
      refine Prog.ends_of_forall (fun cancelled => ?_) _
      cases cancelled with
      | true => rintro decision ⟨⟩
      | false =>
        simp only [Bool.false_eq_true, if_false]
        cases hparams : node.component.params node.ruleSet (buildHostContext ctx packet) with
        | error err => rintro decision ⟨⟩
        | ok params =>
          rw [Prog.ends_bind]
          refine Prog.ends_of_forall (fun late => ?_) _
          cases late with
          | true => rintro decision ⟨⟩
          | false =>
            intro decision hdecision
            show (node.component.evaluate _ _).toOption = _
            rw [RuleComponent.evaluate, hparams]
            show (node.component.answer params).toOption = _
            rw [hdecision]
            rfl
    unfold WasmRuleNode.process
    rw [Prog.ends_bind]
    refine hanswer.mono fun answer hdecides => ?_
    rcases answer with e | decision
    · exact .inl ⟨_, rfl⟩
    · rw [WasmRuleNode.act, Prog.ends_bind]
      exact Prog.ends_of_forall (fun _ => .inr ⟨decision, hdecides decision rfl, rfl⟩) _

end Copies

section Determined

variable {node : RuleExecutor} {ctx : NodeContext} {inputs : PortsIn} {outputs : PortsOut}
  {start : UInt64}

/-- What the commits of a node are at a stage: those for the packets received, apart from the send
that is waited for. -/
def CopiesAt (node : RuleExecutor) (ctx : NodeContext) (outputs : PortsOut) (start : UInt64)
    (s : LoopState) (g : Account) : Prop :=
  match s.2 with
  | .sending send => node.copies ctx outputs start (g.received.map Prod.snd) =
    (s.1, g.committed ++ (outputs.channels send.portId).map (·, send.packet))
  | .returned (.error _) => True
  | _ => node.copies ctx outputs start (g.received.map Prod.snd) = (s.1, g.committed)

/-- The commits of a node agree with what it has received, and it holds no reservation. -/
structure Copying (node : RuleExecutor) (ctx : NodeContext) (outputs : PortsOut) (start : UInt64)
    (s : LoopState) (g : Account) : Prop where
  held : g.held = 0
  copies : CopiesAt node ctx outputs start s g

/-- **Acting on a decision**: the copies are those of one packet more. -/
lemma copiesAt_executeAction {counter : UInt64} {packet : PortPacket} {decision : RuleDecision}
    {g g' : Account} (h : node.copies ctx outputs start (g.received.map Prod.snd) =
      (counter, g.committed)) (hdecision : node.decision ctx packet = some decision)
    (hcommitted : g'.committed = g.committed)
    (hreceived : g'.received.map Prod.snd = g.received.map Prod.snd ++ [packet]) :
    CopiesAt node ctx outputs start
      (counter + 1, executeAction decision.action ctx counter packet) g' := by
  have hcopies : node.copies ctx outputs start (g'.received.map Prod.snd) =
      (counter + 1, g'.committed ++ copiesFor ctx outputs decision.action counter packet) := by
    rw [hreceived, RuleExecutor.copies_append_singleton, h, RuleExecutor.copy, hdecision,
      hcommitted]
  have hstart {portId : PortId} {reason : Option String}
      (htarget : decision.action.target = some portId) :
      CopiesAt node ctx outputs start (counter + 1, startSend ctx portId counter packet reason)
        g' := by
    unfold copiesFor at hcopies
    rw [htarget] at hcopies
    unfold startSend
    cases hforward : forwardPacket ctx portId counter packet with
    | error e => exact trivial
    | ok forwarded =>
      simp only [hforward] at hcopies
      exact hcopies
  have hnone (htarget : decision.action.target = none) :
      node.copies ctx outputs start (g'.received.map Prod.snd) = (counter + 1, g'.committed) := by
    rw [hcopies, copiesFor, htarget, List.append_nil]
  cases haction : decision.action with
  | route portId => exact hstart (by rw [haction]; rfl)
  | deadLetter reason => exact hstart (by rw [haction]; rfl)
  | drop => exact hnone (by rw [haction]; rfl)
  | tag key value => exact hnone (by rw [haction]; rfl)
  | halt message => exact trivial

/-- **One turn** keeps the commits in agreement with what was received. -/
lemma copying_step (s : LoopState) (g : Account) (h : Copying node ctx outputs start s g) :
    Prog.Wp ledger ((node.loop ctx).step inputs outputs s) (Copying node ctx outputs start) g := by
  obtain ⟨counter, stage⟩ := s
  obtain ⟨hheld, hcopies⟩ := h
  cases stage with
  | receiving polled =>
    have hcopies : node.copies ctx outputs start (g.received.map Prod.snd) =
        (counter, g.committed) := hcopies
    rw [RuleLoop.step, Prog.wp_bind]
    refine (pollInput_wp polled).mono fun poll g' hpoll => ?_
    rcases poll with (err | _ | packet) | _
    · obtain rfl : g' = g := hpoll
      cases err with
      | disconnected portId => exact ⟨hheld, hcopies⟩
      | unknownPort portId | cancelled portId => exact ⟨hheld, trivial⟩
    · obtain rfl : g' = g := hpoll
      exact ⟨hheld, hcopies⟩
    · obtain ⟨c, rfl⟩ := hpoll
      refine ((wp_silent (node.process_silent ctx counter packet)).and_ends
        (node.process_decides counter packet)).mono fun s g'' hs => ?_
      obtain ⟨rfl, ⟨err, rfl⟩ | ⟨decision, hdecision, rfl⟩⟩ := hs
      · exact ⟨hheld, trivial⟩
      · exact ⟨hheld, copiesAt_executeAction hcopies hdecision rfl (by rw [List.map_append]; rfl)⟩
    · obtain rfl : g' = g := hpoll
      exact ⟨hheld, hcopies⟩
  | sending send =>
    rw [RuleLoop.step, Prog.wp_bind]
    refine (send_spec outputs send.portId send.packet).mono fun poll g' hpoll => ?_
    rcases poll with (err | ⟨⟩) | _
    · obtain rfl : g' = g := hpoll
      exact ⟨hheld, trivial⟩
    · obtain rfl : g' = _ := hpoll
      exact ⟨hheld, hcopies⟩
    · obtain rfl : g' = g := hpoll
      exact ⟨hheld, hcopies⟩
  | between =>
    rw [RuleLoop.step, Prog.wp_bind, wp_isCancelled]
    intro cancelled
    cases cancelled with
    | true => exact ⟨hheld, trivial⟩
    | false => exact ⟨hheld, hcopies⟩
  | returned result => exact ⟨hheld, hcopies⟩

/-- Everything was received on the port `in`, and a node that returns without an error has seen the
end of it. -/
structure Reading (inputs : PortsIn) (s : LoopState) (g : Tally) : Prop where
  received : ∀ e ∈ g.received, e.1 ∈ inputs.channels inPort
  closed : s.2 = .returned (.ok ()) → inputs.channels inPort ⊆ g.closed

lemma pollInput_tallied (polled : Bool) {g : Tally} : Prog.Wp tallied
    (RuleNode.pollInput inputs polled) (RecvTallied (inputs.channels inPort) g) g := by
  unfold RuleNode.pollInput
  split
  · next port hport =>
    rw [PortsIn.channels, hport]
    exact recvPoll_tallied inputs port
  · exact recv_tallied inputs inPort

lemma reading_step (s : LoopState) (g : Tally) (h : Reading inputs s g) :
    Prog.Wp tallied ((node.loop ctx).step inputs outputs s) (Reading inputs) g := by
  obtain ⟨counter, stage⟩ := s
  cases stage with
  | receiving polled =>
    rw [RuleLoop.step, Prog.wp_bind]
    refine (pollInput_tallied polled).mono fun poll g' hpoll => ?_
    have hsame (hlater : g.Later g') : ∀ e ∈ g'.received, e.1 ∈ inputs.channels inPort := by
      rw [hlater.received]
      exact h.received
    rcases poll with (err | _ | packet) | _
    · cases err <;> exact ⟨hsame hpoll.1, fun _ => hpoll.2⟩
    · exact ⟨hsame hpoll.1, fun _ => hpoll.2⟩
    · obtain ⟨c, hc, hreceived⟩ := hpoll
      have hreceived : ∀ e ∈ g'.received, e.1 ∈ inputs.channels inPort := by
        rw [hreceived]
        rintro e he
        rcases List.mem_append.mp he with he | he
        · exact h.received e he
        · rw [List.mem_singleton.mp he]
          exact hc
      have hidle := quiet_tallied.wp_of_idle (Q := fun _ g'' => g'' = g') (g := g')
        ((node.process_silent ctx counter packet).mono fun op hop => by
          cases op <;> first | exact hop | exact hop.elim) fun _ => rfl
      refine (hidle.and_ends (node.process_cases ctx counter packet)).mono fun s g'' hs => ?_
      obtain ⟨rfl, hhandled⟩ := hs
      refine ⟨hreceived, fun hreturned => ?_⟩
      -- a packet is followed by a send, by another receive or by an error
      cases hhandled with
      | failed err => cases hreturned
      | acted action =>
        have hne {portId : PortId} {reason : Option String} :
            startSend ctx portId counter packet reason ≠ .returned (.ok ()) := by
          unfold startSend
          split <;> rintro ⟨⟩
        cases action with
        | route portId | deadLetter reason => exact absurd hreturned hne
        | drop | tag key value | halt message => cases hreturned
    · exact ⟨hsame hpoll, by rintro ⟨⟩⟩
  | sending send =>
    rw [RuleLoop.step, Prog.wp_bind]
    refine (tallied_of_sending (sending_send outputs send.portId send.packet)).mono
      fun poll g' hg' => ?_
    obtain rfl := hg'
    rcases poll with (err | ⟨⟩) | _ <;> exact ⟨h.received, by rintro ⟨⟩⟩
  | between =>
    rw [RuleLoop.step, Prog.wp_bind]
    exact quiet_tallied.wp_isCancelled ⟨h.received, by rintro ⟨⟩⟩
  | returned result => exact h

/-- What the node is for: it takes a merge of what the edges of its port `in` carry, and sends the
copies of these packets. -/
def RuleExecutor.Denotes (node : RuleExecutor) (ctx : NodeContext) (inputs : PortsIn)
    (outputs : PortsOut) (start : UInt64) (carried : ℕ → List PortPacket)
    (commits : List (ℕ × PortPacket)) : Prop :=
  ∃ packets, Merge ((inputs.channels inPort).map carried) packets ∧
    commits = (node.copies ctx outputs start packets).2

/-- **A rule node copies what it takes.** -/
def RuleExecutor.computes (node : RuleExecutor) (ctx : NodeContext) (inputs : PortsIn)
    (outputs : PortsOut) (start : UInt64) {senders receivers : List ℕ}
    (hgiven : inputs.channels inPort ⊆ receivers) (hnodup : (inputs.channels inPort).Nodup) :
    Computes ⟨node.future ctx inputs outputs start, senders, receivers⟩ where
  reads := inputs.channels inPort
  Emits := node.Denotes ctx inputs outputs start
  Seen := Reading inputs
  Deals := Copying node ctx outputs start
  reads_given := hgiven
  emits_congr h hcommits := by
    obtain ⟨packets, hmerge, hcommits⟩ := hcommits
    rw [List.map_congr_left h] at hmerge
    exact ⟨packets, hmerge, hcommits⟩
  seen_start := ⟨List.forall_mem_nil _, by rintro ⟨⟩⟩
  seen_step := reading_step
  deals_start := ⟨rfl, rfl⟩
  deals_step := copying_step
  returns {s g account} hresult hseen hdeals hreceived := by
    obtain ⟨counter, stage⟩ := s
    cases stage with
    | returned result =>
      obtain rfl : result = .ok () := Option.some.inj hresult
      have hcopies : node.copies ctx outputs start (account.received.map Prod.snd) =
          (counter, account.committed) := hdeals.copies
      refine ⟨hseen.closed rfl, account.received.map Prod.snd,
        merge_withKey hnodup (hreceived ▸ hseen.received), ?_⟩
      rw [hcopies]
    | receiving | sending | between => cases hresult

/-- **It is determined** where one edge at most arrives at its port `in`. -/
def RuleExecutor.determined (node : RuleExecutor) (ctx : NodeContext) (inputs : PortsIn)
    (outputs : PortsOut) (start : UInt64) {senders receivers : List ℕ}
    (hgiven : inputs.channels inPort ⊆ receivers) (hsingle : (inputs.channels inPort).length ≤ 1) :
    Determined ⟨node.future ctx inputs outputs start, senders, receivers⟩ where
  toComputes := node.computes ctx inputs outputs start hgiven (nodup_of_single hsingle)
  emits_unique h h' := by
    obtain ⟨packets, hmerge, rfl⟩ := h
    obtain ⟨packets', hmerge', rfl⟩ := h'
    rw [hmerge.unique_of_single (by rwa [List.length_map]) hmerge']

end Determined

end Pureflow.Wasm
