import Pureflow.Cli.NativeRuns
import Pureflow.Core.Determined
import Pureflow.Engine.BatchNode

/-!
What a passive native executor commits is determined by how many packets it has received.
-/

namespace Pureflow.Cli.CliNativeExecutor

open Pureflow.Types Pureflow.Core Pureflow.Lib Pureflow.Engine

variable {ctx : NodeContext} {inputs : PortsIn} {outputs : PortsOut} {executor : CliNativeExecutor}

/-- What these routes put on the edges, the first of them being the one with this index. -/
def prepared (ctx : NodeContext) (outputs : PortsOut) (receivedCount : ℕ) :
    ℕ → List (PortId × List MessageEndpoint) → List (ℕ × PortPacket)
  | _, [] => []
  | outputIndex, (outputPort, targets) :: rest =>
    (match cliOutputPacket ctx outputPort targets outputIndex receivedCount with
    | .error _ => []
    | .ok packet => (outputs.channels outputPort).map (·, packet)) ++
      prepared ctx outputs receivedCount (outputIndex + 1) rest

/-- The count of the packets received, as far as it goes. -/
def counted (n : ℕ) : ℕ := min n usizeMax

/-- How the commits of the node stand at a stage. -/
def PreparedAt (ctx : NodeContext) (outputs : PortsOut) (executor : CliNativeExecutor)
    (g : Account) : NativeState → Prop
  | (receivedCount, .draining left _ portCount) => g.committed = [] ∧
    saturatingAdd receivedCount portCount = counted g.received.length ∧
    (left = [] → receivedCount = counted g.received.length)
  | (receivedCount, .preparing outputIndex left) => receivedCount = counted g.received.length ∧
    g.committed ++ prepared ctx outputs receivedCount outputIndex left =
      prepared ctx outputs receivedCount 0 executor.outputRoutes.toList
  | (receivedCount, .sending outputIndex outputPort packet left) =>
    receivedCount = counted g.received.length ∧
    g.committed ++ ((outputs.channels outputPort).map (·, packet) ++
        prepared ctx outputs receivedCount (outputIndex + 1) left) =
      prepared ctx outputs receivedCount 0 executor.outputRoutes.toList
  | (_, .returned (.ok ())) => g.committed =
    prepared ctx outputs (counted g.received.length) 0 executor.outputRoutes.toList
  | (_, .returned (.error _)) => True

structure Preparing (ctx : NodeContext) (outputs : PortsOut) (executor : CliNativeExecutor)
    (s : NativeState) (g : Account) : Prop where
  held : g.held = 0
  prepared : PreparedAt ctx outputs executor g s

lemma preparing_start :
    Preparing ctx outputs executor (0, .draining executor.inputPorts false 0) (.holding 0) :=
  ⟨rfl, rfl, by decide, fun _ => by decide⟩

/-- **One turn** keeps the commits in agreement with the count. -/
lemma preparing_step (s : NativeState) (g : Account) (h : Preparing ctx outputs executor s g) :
    Prog.Wp ledger (step ctx inputs outputs executor s) (Preparing ctx outputs executor) g := by
  obtain ⟨receivedCount, stage⟩ := s
  obtain ⟨hheld, hprepared⟩ := h
  cases stage with
  | draining ports polled portCount =>
    obtain ⟨hcommitted, hcount, hlast⟩ := hprepared
    rcases ports with _ | ⟨portId, rest⟩
    · exact ⟨hheld, hlast rfl, by rw [hcommitted, List.nil_append]⟩
    · have hclosed : Preparing ctx outputs executor
          (saturatingAdd receivedCount portCount, .draining rest false 0) g := by
        refine ⟨hheld, hcommitted, ?_, fun _ => hcount⟩
        rw [hcount, counted, saturatingAdd]
        omega
      rw [step, Prog.wp_bind]
      refine (pollPort_spec inputs portId polled).mono fun poll g' hpoll => ?_
      rcases poll with (err | _ | packet) | _
      · obtain rfl : g' = g := hpoll
        cases err with
        | disconnected portId => exact hclosed
        | unknownPort portId | cancelled portId => exact ⟨hheld, trivial⟩
      · obtain rfl : g' = g := hpoll
        exact hclosed
      · obtain ⟨c, rfl⟩ := hpoll
        refine ⟨hheld, hcommitted, ?_, by rintro ⟨⟩⟩
        rw [saturatingAdd, counted] at hcount
        rw [saturatingAdd, saturatingAdd, counted, List.length_append, List.length_singleton]
        omega
      · obtain rfl : g' = g := hpoll
        exact ⟨hheld, hcommitted, hcount, by rintro ⟨⟩⟩
  | preparing outputIndex left =>
    obtain ⟨hcount, hcommitted⟩ := hprepared
    rcases left with _ | ⟨⟨outputPort, targets⟩, rest⟩
    · refine ⟨hheld, ?_⟩
      show g.committed = _
      rw [← hcount, ← hcommitted, prepared, List.append_nil]
    · rw [prepared] at hcommitted
      rw [step]
      split
      · exact ⟨hheld, trivial⟩
      · next packet hpacket =>
        rw [hpacket] at hcommitted
        exact ⟨hheld, hcount, hcommitted⟩
  | sending outputIndex outputPort packet left =>
    obtain ⟨hcount, hcommitted⟩ := hprepared
    rw [step, Prog.wp_bind]
    refine (send_spec outputs outputPort packet).mono fun poll g' hpoll => ?_
    rcases poll with (err | ⟨⟩) | _
    · obtain rfl : g' = g := hpoll
      exact ⟨hheld, trivial⟩
    · obtain rfl : g' = _ := hpoll
      exact ⟨hheld, hcount, by rw [← hcommitted, List.append_assoc]⟩
    · obtain rfl : g' = g := hpoll
      exact ⟨hheld, hcount, hcommitted⟩
  | returned result => exact ⟨hheld, hprepared⟩

/-- All channels the executor drains. -/
def reads (inputs : PortsIn) (executor : CliNativeExecutor) : List ℕ :=
  executor.inputPorts.flatMap inputs.channels

/-- Everything was received on the input ports, and those that are drained are closed. -/
def DrainedAt (inputs : PortsIn) (executor : CliNativeExecutor) (g : Tally) : NativeStage → Prop
  | .draining left _ _ => ∃ drained, executor.inputPorts = drained ++ left ∧
    drained.flatMap inputs.channels ⊆ g.closed
  | .returned (.error _) => True
  | _ => reads inputs executor ⊆ g.closed

structure Draining (inputs : PortsIn) (executor : CliNativeExecutor) (s : NativeState) (g : Tally) :
    Prop where
  received : ∀ e ∈ g.received, e.1 ∈ reads inputs executor
  drained : DrainedAt inputs executor g s.2

lemma pollPort_tallied (portId : PortId) (polled : Bool) {g : Tally} :
    Prog.Wp tallied (pollPort inputs portId polled) (RecvTallied (inputs.channels portId) g) g := by
  unfold pollPort
  split
  · next port hport =>
    rw [PortsIn.channels, hport]
    exact recvPoll_tallied inputs port
  · exact recv_tallied inputs portId

lemma draining_step (s : NativeState) (g : Tally) (h : Draining inputs executor s g) :
    Prog.Wp tallied (step ctx inputs outputs executor s) (Draining inputs executor) g := by
  obtain ⟨receivedCount, stage⟩ := s
  obtain ⟨hreceived, hdrained⟩ := h
  cases stage with
  | draining ports polled portCount =>
    obtain ⟨drained, hports, hclosed⟩ := hdrained
    rcases ports with _ | ⟨portId, rest⟩
    · refine ⟨hreceived, ?_⟩
      show reads inputs executor ⊆ g.closed
      rw [reads, hports, List.append_nil]
      exact hclosed
    · have hmem : inputs.channels portId ⊆ reads inputs executor := by
        intro c hc
        rw [reads, hports, List.flatMap_append]
        exact List.mem_append_right _ (List.mem_flatMap.mpr ⟨portId, List.mem_cons_self, hc⟩)
      have hnext {g' : Tally} (hlater : g.Later g') (hend : inputs.channels portId ⊆ g'.closed) :
          DrainedAt inputs executor g' (.draining rest false 0) := by
        refine ⟨drained ++ [portId], by rw [hports, List.append_assoc, List.singleton_append], ?_⟩
        rw [List.flatMap_append, List.flatMap_singleton]
        exact List.append_subset.mpr ⟨List.Subset.trans hclosed hlater.closed, hend⟩
      have hsame {g' : Tally} (hlater : g.Later g') :
          ∀ e ∈ g'.received, e.1 ∈ reads inputs executor := by
        rw [hlater.received]
        exact hreceived
      rw [step, Prog.wp_bind]
      refine ((pollPort_tallied portId polled).and (tallied_closed _)).mono fun poll g' hpoll => ?_
      obtain ⟨hpoll, hkept⟩ := hpoll
      rcases poll with (err | _ | packet) | _
      · cases err with
        | disconnected port => exact ⟨hsame hpoll.1, hnext hpoll.1 hpoll.2⟩
        | unknownPort port | cancelled port => exact ⟨hsame hpoll.1, trivial⟩
      · exact ⟨hsame hpoll.1, hnext hpoll.1 hpoll.2⟩
      · obtain ⟨c, hc, hg'⟩ := hpoll
        refine ⟨?_, drained, hports, List.Subset.trans hclosed hkept⟩
        rw [hg']
        intro e he
        rcases List.mem_append.mp he with he | he
        · exact hreceived e he
        · rw [List.mem_singleton.mp he]
          exact hmem hc
      · have hlater : g.Later g' := hpoll
        exact ⟨hsame hlater, drained, hports, List.Subset.trans hclosed hlater.closed⟩
  | preparing outputIndex left =>
    rcases left with _ | ⟨⟨outputPort, targets⟩, rest⟩
    · exact ⟨hreceived, hdrained⟩
    · rw [step]
      split
      · exact ⟨hreceived, trivial⟩
      · exact ⟨hreceived, hdrained⟩
  | sending outputIndex outputPort packet left =>
    rw [step, Prog.wp_bind]
    refine (tallied_of_sending (sending_send outputs outputPort packet)).mono fun poll g' hg' => ?_
    obtain rfl := hg'
    rcases poll with (err | ⟨⟩) | _
    · exact ⟨hreceived, trivial⟩
    · exact ⟨hreceived, hdrained⟩
    · exact ⟨hreceived, hdrained⟩
  | returned result => exact ⟨hreceived, hdrained⟩

lemma pollPort_receiving (portId : PortId) (polled : Bool) :
    (pollPort inputs portId polled).Calls
      (PortOp.Receiving (inputs.channels portId) true) := by
  unfold pollPort
  split
  · next port hport => exact (receiving_recv inputs portId).2 port hport
  · exact (receiving_recv inputs portId).1

/-- **The node keeps to its ports.** -/
lemma step_owns {node : NetworkNode} (hin : ∀ portId, inputs.channels portId ⊆ node.receivers)
    (hout : ∀ portId, outputs.channels portId ⊆ node.senders) (s : NativeState) :
    (step ctx inputs outputs executor s).Calls node.Owns := by
  obtain ⟨receivedCount, stage⟩ := s
  cases stage with
  | draining ports polled portCount =>
    rcases ports with _ | ⟨portId, rest⟩
    · exact trivial
    · refine Prog.calls_bind ((pollPort_receiving portId polled).mono
        fun _ => BatchNode.owns_of_receiving (hin portId)) fun poll => ?_
      rcases poll with (err | _ | packet) | _
      · cases err <;> exact trivial
      · exact trivial
      · exact trivial
      · exact trivial
  | preparing outputIndex left =>
    rcases left with _ | ⟨⟨outputPort, targets⟩, rest⟩
    · exact trivial
    · rw [step]
      split <;> exact trivial
  | sending outputIndex outputPort packet left =>
    refine Prog.calls_bind ((sending_send outputs outputPort packet).mono
      fun _ => BatchNode.owns_of_sending (hout outputPort)) fun poll => ?_
    rcases poll with (err | ⟨⟩) | _ <;> exact trivial
  | returned result => exact trivial

/-- What the node is for: it sends one packet to each of its output ports, with the count of all
packets that were sent to its input ports. -/
def Denotes (ctx : NodeContext) (inputs : PortsIn) (outputs : PortsOut)
    (executor : CliNativeExecutor) (carried : ℕ → List PortPacket)
    (commits : List (ℕ × PortPacket)) : Prop :=
  commits = prepared ctx outputs
    (counted (((reads inputs executor).dedup.map carried).map List.length).sum) 0
    executor.outputRoutes.toList

/-- **A native executor counts what its edges carry.** -/
def computes (ctx : NodeContext) (inputs : PortsIn) (outputs : PortsOut)
    (executor : CliNativeExecutor) {senders receivers : List ℕ}
    (hgiven : reads inputs executor ⊆ receivers) :
    Computes ⟨future ctx inputs outputs executor, senders, receivers⟩ where
  reads := reads inputs executor
  Emits := Denotes ctx inputs outputs executor
  Seen := Draining inputs executor
  Deals := Preparing ctx outputs executor
  reads_given := hgiven
  emits_congr {carried carried' commits} h hcommits := by
    have hsame : (reads inputs executor).dedup.map carried =
        (reads inputs executor).dedup.map carried' :=
      List.map_congr_left fun c hc => h c (List.mem_dedup.mp hc)
    unfold Denotes at hcommits ⊢
    rw [hcommits, hsame]
  seen_start := ⟨List.forall_mem_nil _, [], rfl, List.nil_subset _⟩
  seen_step := draining_step
  deals_start := preparing_start
  deals_step := preparing_step
  returns {s g account} hresult hseen hdeals hreceived := by
    obtain ⟨receivedCount, stage⟩ := s
    cases stage with
    | returned result =>
      obtain rfl : result = .ok () := Option.some.inj hresult
      refine ⟨hseen.drained, ?_⟩
      have hmerge := merge_withKey (List.nodup_dedup (reads inputs executor))
        (l := account.received) fun e he =>
          List.mem_dedup.mpr (hseen.received e (hreceived ▸ he))
      unfold Denotes
      rw [← hmerge.length_eq, List.length_map]
      exact hdeals.prepared
    | draining | preparing | sending => cases hresult

/-- **It is determined**, however many edges arrive at its ports. -/
def determined (ctx : NodeContext) (inputs : PortsIn) (outputs : PortsOut)
    (executor : CliNativeExecutor) {senders receivers : List ℕ}
    (hgiven : reads inputs executor ⊆ receivers) :
    Determined ⟨future ctx inputs outputs executor, senders, receivers⟩ where
  toComputes := computes ctx inputs outputs executor hgiven
  emits_unique h h' := Eq.trans h (Eq.symm h')

end Pureflow.Cli.CliNativeExecutor
