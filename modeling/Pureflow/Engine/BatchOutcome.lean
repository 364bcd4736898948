import Pureflow.Core.Determined
import Pureflow.Engine.BatchNode

/-!
What a batch node commits is computed from what it has received.

It commits what its executor returns for the batch, port by port and packet by packet, and the batch
holds, for each of its input ports, a merge of what the edges of the port have carried. Where a
single edge arrives at a port there is one such merge only.
-/

namespace Pureflow.Engine.BatchNode

open Pureflow.Types Pureflow.Core Pureflow.Lib

variable {executor : BatchExecutor} {inputs : PortsIn} {outputs : PortsOut}

/-- What these packets put on the edges: each on every edge of its port. -/
def posts (outputs : PortsOut) (packetsByPort : List (PortId × List PortPacket)) :
    List (ℕ × PortPacket) :=
  packetsByPort.flatMap fun entry => entry.2.flatMap fun packet =>
    (outputs.channels entry.1).map (·, packet)

lemma posts_packet (portId : PortId) (packet : PortPacket) (packets : List PortPacket)
    (rest : List (PortId × List PortPacket)) :
    posts outputs ((portId, packet :: packets) :: rest) =
      (outputs.channels portId).map (·, packet) ++ posts outputs ((portId, packets) :: rest) := by
  simp [posts]

/-- The batch of what was received, without empty groups. -/
structure BatchOf (inputs : PortsIn) (received : List (ℕ × PortPacket)) (batch : BatchInputs) :
    Prop where
  gathered : Gathered inputs ⟨received, []⟩ batch
  noEmpty : Grouping.NoEmpty batch.packetsByPort

/-- The executor was invoked on the batch of what was received, and returned this. -/
def Invoked (executor : BatchExecutor) (inputs : PortsIn) (g : Account)
    (batchOutputs : BatchOutputs) : Prop :=
  ∃ batch, BatchOf inputs g.received batch ∧ executor batch = .ok batchOutputs

/-- How the commits of the node stand at a stage. -/
def PostedAt (executor : BatchExecutor) (inputs : PortsIn) (outputs : PortsOut) (g : Account) :
    BatchStage → Prop
  | .collecting _ batch => BatchOf inputs g.received batch ∧ g.committed = []
  | .invoking batch => BatchOf inputs g.received batch ∧ g.committed = []
  | .sending left => ∃ batchOutputs, Invoked executor inputs g batchOutputs ∧
    g.committed ++ posts outputs left = posts outputs batchOutputs.packetsByPort.toList
  | .returned (.ok ()) => ∃ batchOutputs, Invoked executor inputs g batchOutputs ∧
    g.committed = posts outputs batchOutputs.packetsByPort.toList
  | .returned (.error _) => True

structure Posting (executor : BatchExecutor) (inputs : PortsIn) (outputs : PortsOut)
    (stage : BatchStage) (g : Account) : Prop where
  held : g.held = 0
  posted : PostedAt executor inputs outputs g stage

lemma posting_start : Posting executor inputs outputs (.collecting false .new) (.holding 0) :=
  ⟨rfl, ⟨gathered_new, Grouping.noEmpty_empty⟩, rfl⟩

lemma pollAny_taken (polled : Bool) {g : Account} :
    Prog.Wp ledger (pollAny inputs polled) (TakenAny inputs.ports g) g := by
  cases polled with
  | true => exact recvAnyPoll_taken inputs
  | false => exact recvAny_taken inputs

/-- **One turn** keeps the commits in agreement with what was received. -/
lemma posting_step (hapart : Apart inputs) (stage : BatchStage) (g : Account)
    (h : Posting executor inputs outputs stage g) :
    Prog.Wp ledger (step executor inputs outputs stage) (Posting executor inputs outputs) g := by
  obtain ⟨hheld, hposted⟩ := h
  cases stage with
  | collecting polled batch =>
    obtain ⟨hbatch, hcommitted⟩ := hposted
    rw [step, Prog.wp_bind]
    refine (pollAny_taken polled).mono fun poll g' hpoll => ?_
    rcases poll with (err | _ | ⟨portId, packet⟩) | _
    · obtain rfl : g' = g := hpoll
      exact ⟨hheld, trivial⟩
    · obtain rfl : g' = g := hpoll
      exact ⟨hheld, hbatch, hcommitted⟩
    · obtain ⟨port, hport, rfl, c, hc, rfl⟩ := hpoll
      exact ⟨hheld, ⟨hbatch.gathered.push hapart hport hc rfl, hbatch.noEmpty.push _ _⟩, hcommitted⟩
    · obtain rfl : g' = g := hpoll
      exact ⟨hheld, hbatch, hcommitted⟩
  | invoking batch =>
    obtain ⟨hbatch, hcommitted⟩ := hposted
    rw [step]
    split
    · next batchOutputs hinvoke =>
      exact ⟨hheld, batchOutputs, ⟨batch, hbatch, hinvoke⟩, by rw [hcommitted, List.nil_append]⟩
    · exact ⟨hheld, trivial⟩
  | sending left =>
    obtain ⟨batchOutputs, hinvoked, hcommitted⟩ := hposted
    rcases left with _ | ⟨⟨portId, _ | ⟨packet, packets⟩⟩, rest⟩
    · exact ⟨hheld, batchOutputs, hinvoked, by simpa [posts] using hcommitted⟩
    · exact ⟨hheld, batchOutputs, hinvoked, hcommitted⟩
    · rw [step, Prog.wp_bind]
      refine (send_spec outputs portId packet).mono fun poll g' hpoll => ?_
      rcases poll with (err | ⟨⟩) | _
      · obtain rfl : g' = g := hpoll
        exact ⟨hheld, trivial⟩
      · obtain rfl : g' = _ := hpoll
        refine ⟨hheld, batchOutputs, hinvoked, ?_⟩
        rw [← hcommitted, posts_packet, List.append_assoc]
      · obtain rfl : g' = g := hpoll
        exact ⟨hheld, batchOutputs, hinvoked, hcommitted⟩
  | returned result => exact ⟨hheld, hposted⟩

/-- Everything was received on the ports of the node, which are all closed once the executor is
invoked. -/
def Collected (inputs : PortsIn) (stage : BatchStage) (g : Tally) : Prop :=
  match stage with
  | .collecting _ _ | .returned (.error _) => True
  | _ => ∀ port ∈ inputs.ports, port.ends.map Receiver.channel ⊆ g.closed

lemma collected_step (stage : BatchStage) (g : Tally) (h : Collected inputs stage g) :
    Prog.Wp tallied (step executor inputs outputs stage) (Collected inputs) g := by
  cases stage with
  | collecting polled batch =>
    have hpoll : Prog.Wp tallied (pollAny inputs polled) (AnyTallied inputs.ports g) g := by
      cases polled with
      | true => exact recvAnyPoll_tallied inputs
      | false => exact recvAny_tallied inputs
    rw [step, Prog.wp_bind]
    refine hpoll.mono fun poll g' hpoll => ?_
    rcases poll with (err | _ | ⟨portId, packet⟩) | _
    · exact trivial
    · exact hpoll.2
    · exact trivial
    · exact trivial
  | invoking batch =>
    rw [step]
    split
    · exact h
    · exact trivial
  | sending left =>
    rcases left with _ | ⟨⟨portId, _ | ⟨packet, packets⟩⟩, rest⟩
    · exact h
    · exact h
    · rw [step, Prog.wp_bind]
      refine (tallied_of_sending (sending_send outputs portId packet)).mono fun poll g' hg' => ?_
      obtain rfl := hg'
      rcases poll with (err | ⟨⟩) | _
      · exact trivial
      · exact h
      · exact h
  | returned result => exact h

/-- All channels of the ports of the node. -/
def reads (inputs : PortsIn) : List ℕ := inputs.ports.flatMap fun port =>
  port.ends.map Receiver.channel

lemma channels_subset_reads (inputs : PortsIn) (portId : PortId) :
    inputs.channels portId ⊆ reads inputs := by
  intro c hc
  unfold PortsIn.channels at hc
  cases hport : PortHandle.find inputs.ports portId with
  | none =>
    rw [hport] at hc
    cases hc
  | some port =>
    rw [hport] at hc
    exact List.mem_flatMap.mpr ⟨port, List.mem_of_find?_eq_some hport, hc⟩

lemma merge_of_gathered {received : List (ℕ × PortPacket)} {batch : BatchInputs} {portId : PortId}
    (h : Gathered inputs ⟨received, []⟩ batch) (hnodup : (inputs.channels portId).Nodup) :
    Merge ((inputs.channels portId).map (withKey · received)) (batch.packets portId) := by
  have hmerge := merge_withKey hnodup (l := received.filter (·.1 ∈ inputs.channels portId))
    fun e he => of_decide_eq_true (List.mem_filter.mp he).2
  rw [h portId]
  rwa [List.map_congr_left fun c hc => withKey_filter hc received] at hmerge

/-- What the node is for: its executor is invoked once, on merges of what the edges of its input
ports carry, and what it returns is sent. -/
def Denotes (executor : BatchExecutor) (inputs : PortsIn) (outputs : PortsOut)
    (carried : ℕ → List PortPacket) (commits : List (ℕ × PortPacket)) : Prop :=
  ∃ batch batchOutputs, Grouping.NoEmpty batch.packetsByPort ∧
    (∀ portId, Merge ((inputs.channels portId).map carried) (batch.packets portId)) ∧
    executor batch = .ok batchOutputs ∧ commits = posts outputs batchOutputs.packetsByPort.toList

/-- **A batch node computes what its executor does.** -/
def computes (executor : BatchExecutor) (inputs : PortsIn) (outputs : PortsOut)
    {senders receivers : List ℕ} (hgiven : reads inputs ⊆ receivers) (hapart : Apart inputs)
    (hnodup : ∀ portId, (inputs.channels portId).Nodup) :
    Computes ⟨future executor inputs outputs, senders, receivers⟩ where
  reads := reads inputs
  Emits := Denotes executor inputs outputs
  Seen := Collected inputs
  Deals := Posting executor inputs outputs
  reads_given := hgiven
  emits_congr {carried carried' commits} h hcommits := by
    obtain ⟨batch, batchOutputs, hnoEmpty, hpackets, hinvoke, rfl⟩ := hcommits
    refine ⟨batch, batchOutputs, hnoEmpty, fun portId => ?_, hinvoke, rfl⟩
    have hsame : (inputs.channels portId).map carried' = (inputs.channels portId).map carried :=
      List.map_congr_left fun c hc => (h c (channels_subset_reads inputs portId hc)).symm
    rw [hsame]
    exact hpackets portId
  seen_start := trivial
  seen_step := collected_step
  deals_start := posting_start
  deals_step := posting_step hapart
  returns {stage g account} hresult hseen hdeals _ := by
    cases stage with
    | returned result =>
      obtain rfl : result = .ok () := Option.some.inj hresult
      obtain ⟨batchOutputs, ⟨batch, hbatch, hinvoke⟩, hcommitted⟩ := hdeals.posted
      refine ⟨fun c hc => ?_, batch, batchOutputs, hbatch.noEmpty, fun portId =>
        merge_of_gathered hbatch.gathered (hnodup portId), hinvoke, hcommitted⟩
      obtain ⟨port, hport, hc⟩ := List.mem_flatMap.mp hc
      exact hseen port hport hc
    | collecting | invoking | sending => cases hresult

/-- **It is determined** where one edge at most arrives at each of its input ports. -/
def determined (executor : BatchExecutor) (inputs : PortsIn) (outputs : PortsOut)
    {senders receivers : List ℕ} (hgiven : reads inputs ⊆ receivers) (hapart : Apart inputs)
    (hsingle : ∀ portId, (inputs.channels portId).length ≤ 1) :
    Determined ⟨future executor inputs outputs, senders, receivers⟩ where
  toComputes := computes executor inputs outputs hgiven hapart
    fun portId => nodup_of_single (hsingle portId)
  emits_unique h h' := by
    obtain ⟨batch, batchOutputs, hnoEmpty, hpackets, hinvoke, rfl⟩ := h
    obtain ⟨batch', batchOutputs', hnoEmpty', hpackets', hinvoke', rfl⟩ := h'
    have hsame : batch.packetsByPort = batch'.packetsByPort := by
      refine Grouping.NoEmpty.ext hnoEmpty hnoEmpty' fun portId => ?_
      refine (hpackets portId).unique_of_single ?_ (hpackets' portId)
      rw [List.length_map]
      exact hsingle portId
    obtain rfl : batch = batch' := congrArg BatchInputs.mk hsame
    cases hinvoke.symm.trans hinvoke'
    rfl

end Pureflow.Engine.BatchNode
