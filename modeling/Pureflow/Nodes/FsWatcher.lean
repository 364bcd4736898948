import Pureflow.Core.Confined
import Pureflow.Core.PortAnswers
import Pureflow.Lib.Debounce
import Pureflow.Lib.Merge
import Pureflow.Rules.Node

/-!
The filesystem watcher: it sends one packet for every path of every event that it does not
suppress, and goes on until it is cancelled or receives a packet on its control port.

The watcher library and the clock are not part of the repository: the answers of the event channel,
with the time read after each, come as one sequence that can be any.
-/

namespace Pureflow.Nodes

open Std Pureflow.Types Pureflow.Core Pureflow.Lib

/-- A filesystem event, its paths as lossy text. -/
structure FsEvent where
  paths : List String
  deriving DecidableEq

/-- `std::sync::mpsc::TryRecvError`. -/
inductive TryRecvError
  | empty
  | disconnected
  deriving DecidableEq

structure FsWatcherNode where
  watchPath : String
  debounceMs : UInt64

/-- What lies outside of the node: whether the watcher starts and accepts the path, what the event
channel answers, and the time then, in nanoseconds. -/
structure Surroundings where
  recommendedWatcher : Except String Unit
  watch : String → Except String Unit
  readings : ℕ → Except TryRecvError FsEvent × ℕ

def changesPort : PortId := ⟨"changes", by decide⟩

def controlPort : PortId := ⟨"control", by decide⟩

/-- The text of the message id of a change. -/
def changeId (ctx : NodeContext) (seq : UInt64) : String :=
  s!"{ctx.nodeId}-changes-{seq}"

def makePacket (ctx : NodeContext) (port : PortId) (payload : List UInt8) (seq : UInt64) :
    Except PureflowError PortPacket :=
  match Identifier.new .message (changeId ctx seq) with
  | .error e => .error (.execution s!"message id build failed: {e}")
  | .ok messageId => .ok
    { metadata :=
        { messageId := messageId
          workflowId := ctx.workflowId
          execution := ctx.execution
          route := ⟨some ⟨ctx.nodeId, port⟩, ⟨ctx.nodeId, port⟩⟩ }
      payload := .bytes payload }

/-- What the future does next: it goes through its outer loop once more; it reads the next event,
having got one before or not; it makes the packet for the first of the paths that are left, or
sends it; or nothing more. -/
inductive WatcherStage
  | looping
  | draining (gotEvent : Bool)
  | emitting (left : List String)
  | sending (packet : PortPacket) (left : List String)
  | returned (result : Except PureflowError Unit)

def WatcherStage.isReturned : WatcherStage → Bool
  | .returned _ => true
  | _ => false

/-- The locals of the future, how often it has read the event channel, and the stage. -/
structure WatcherState where
  lastEmit : Option ℕ
  seq : UInt64
  reads : ℕ
  stage : WatcherStage

namespace FsWatcherNode

section Step

variable (node : FsWatcherNode) (surroundings : Surroundings)

/-- `Duration::from_millis`, in nanoseconds. -/
def debounce : ℕ := node.debounceMs.toNat * 1000000

def start : WatcherState where
  lastEmit := none
  seq := 0
  reads := 0
  stage :=
    match surroundings.recommendedWatcher with
    | .error e => .returned (.error (.execution s!"fs watcher init failed: {e}"))
    | .ok () =>
      match surroundings.watch node.watchPath with
      | .error e => .returned (.error (.execution s!"watch path failed: {e}"))
      | .ok () => .looping

variable (ctx : NodeContext) (inputs : PortsIn) (outputs : PortsOut)

/-- From one stage to the next one. -/
def step (s : WatcherState) : PortM WatcherState :=
  match s.stage with
  | .looping => do
    if ← PortM.isCancelled then
      return { s with stage := .returned (.error (.cancellation "fs watcher cancelled")) }
    match ← inputs.tryRecv controlPort with
    | .error err => return { s with stage := .returned (.error (.ofPortRecvError err)) }
    | .ok (some _) => return { s with stage := .returned (.ok ()) }
    | .ok none => return { s with stage := .draining false }
  | .draining _ =>
    match surroundings.readings s.reads with
    | (.ok event, now) =>
      if withinInterval node.debounce s.lastEmit now then
        return { s with reads := s.reads + 1, stage := .draining true }
      else
        return { s with
          lastEmit := some now
          reads := s.reads + 1
          stage := .emitting event.paths }
    | (.error .empty, _) => return { s with reads := s.reads + 1, stage := .looping }
    | (.error .disconnected, _) =>
      return { s with reads := s.reads + 1, stage := .returned (.ok ()) }
  | .emitting [] => return { s with stage := .draining true }
  | .emitting (path :: left) =>
    match makePacket ctx changesPort path.toUTF8.data.toList s.seq with
    | .error err => return { s with stage := .returned (.error err) }
    | .ok packet => return { s with seq := s.seq + 1, stage := .sending packet left }
  | .sending packet left => do
    match ← outputs.send changesPort packet with
    | .pending => return s
    | .ready (.ok ()) => return { s with stage := .emitting left }
    | .ready (.error err) => return { s with stage := .returned (.error (.ofPortSendError err)) }
  | .returned _ => return s

/-- The turns of the node from its start. -/
def Runs (turns : List (Prog.Turn PortOp.Answer WatcherState)) (s : WatcherState) : Prop :=
  Prog.Runs (step node surroundings ctx inputs outputs) (node.start surroundings) turns s

end Step

section Changes

variable (node : FsWatcherNode) (surroundings : Surroundings)

/-- The events among the first answers of the event channel, with their times. -/
def notices (reads : ℕ) : List (FsEvent × ℕ) :=
  (List.range reads).filterMap fun k =>
    match surroundings.readings k with
    | (.ok event, now) => some (event, now)
    | (.error _, _) => none

/-- The events that are not suppressed. -/
def emitted (reads : ℕ) : List (FsEvent × ℕ) :=
  letThrough node.debounce none (notices surroundings reads)

/-- The paths of these events. -/
def changed (reads : ℕ) : List String :=
  (node.emitted surroundings reads).flatMap (·.1.paths)

/-- What a path puts on the edges. -/
def change (ctx : NodeContext) (outputs : PortsOut) (path : String) (index : ℕ) :
    List (ℕ × PortPacket) :=
  match makePacket ctx changesPort path.toUTF8.data.toList (.ofNat index) with
  | .error _ => []
  | .ok packet => (outputs.channels changesPort).map (·, packet)

def changes (ctx : NodeContext) (outputs : PortsOut) (paths : List String) :
    List (ℕ × PortPacket) :=
  paths.zipIdx.flatMap fun p => change ctx outputs p.1 p.2

end Changes

/-- Whether the event channel has been found to be disconnected. -/
def Disconnected (surroundings : Surroundings) (reads : ℕ) : Prop :=
  ∃ k < reads, (surroundings.readings k).1 = .error .disconnected

/-- A packet has come on the control port. -/
def Stopped (inputs : PortsIn) (g : Account) : Prop :=
  ∃ c ∈ inputs.channels controlPort, ∃ packet, (c, packet) ∈ g.received

/-- The paths that are left at a stage, the packet for the first of them made or not. -/
def Pending (ctx : NodeContext) (sent : List String) (seq : UInt64) : WatcherStage → List String →
    Prop
  | .looping, rest | .draining _, rest => rest = [] ∧ seq = .ofNat sent.length
  | .emitting left, rest => rest = left ∧ seq = .ofNat sent.length
  | .sending packet left, rest => ∃ path, rest = path :: left ∧ seq = .ofNat (sent.length + 1) ∧
    makePacket ctx changesPort path.toUTF8.data.toList (.ofNat sent.length) = .ok packet
  | .returned (.ok ()), rest => rest = []
  | .returned (.error _), _ => True

/-- What is known of the node between two turns. -/
structure Watching (node : FsWatcherNode) (surroundings : Surroundings) (ctx : NodeContext)
    (inputs : PortsIn) (outputs : PortsOut) (s : WatcherState) (g : Account) : Prop where
  lastEmit : s.lastEmit = lastThrough node.debounce none (notices surroundings s.reads)
  sent : ∃ sent rest, node.changed surroundings s.reads = sent ++ rest ∧
    Pending ctx sent s.seq s.stage rest ∧ g.committed = changes ctx outputs sent
  stops : Stopped inputs g ∨ Disconnected surroundings s.reads ↔ s.stage = .returned (.ok ())

section Runs

variable {node : FsWatcherNode} {surroundings : Surroundings} {ctx : NodeContext}
  {inputs : PortsIn} {outputs : PortsOut} {s : WatcherState} {g : Account}

lemma changes_append (sent : List String) (path : String) :
    changes ctx outputs (sent ++ [path]) =
      changes ctx outputs sent ++ change ctx outputs path sent.length := by
  simp [changes, List.zipIdx_append]

lemma notices_succ (reads : ℕ) : notices surroundings (reads + 1) =
    notices surroundings reads ++ match surroundings.readings reads with
      | (.ok event, now) => [(event, now)]
      | (.error _, _) => [] := by
  rw [notices, List.range_succ, List.filterMap_append, ← notices, List.filterMap_cons,
    List.filterMap_nil]
  rcases surroundings.readings reads with ⟨err | event, now⟩ <;> rfl

lemma changed_suppressed {event : FsEvent} {now reads : ℕ}
    (hreading : surroundings.readings reads = (.ok event, now))
    (hin : withinInterval node.debounce
      (lastThrough node.debounce none (notices surroundings reads)) now = true) :
    node.changed surroundings (reads + 1) = node.changed surroundings reads := by
  rw [changed, emitted, notices_succ, hreading, letThrough_append, if_pos hin, List.append_nil,
    ← emitted, ← changed]

lemma changed_emitted {event : FsEvent} {now reads : ℕ}
    (hreading : surroundings.readings reads = (.ok event, now))
    (hout : ¬ withinInterval node.debounce
      (lastThrough node.debounce none (notices surroundings reads)) now = true) :
    node.changed surroundings (reads + 1) = node.changed surroundings reads ++ event.paths := by
  rw [changed, emitted, notices_succ, hreading, letThrough_append, if_neg hout,
    List.flatMap_append, ← emitted, ← changed, List.flatMap_singleton]

lemma disconnected_succ {reads : ℕ} : Disconnected surroundings (reads + 1) ↔
    Disconnected surroundings reads ∨ (surroundings.readings reads).1 = .error .disconnected := by
  constructor
  · rintro ⟨k, hk, hdisconnected⟩
    rcases Nat.lt_succ_iff_lt_or_eq.mp hk with hlt | rfl
    · exact .inl ⟨k, hlt, hdisconnected⟩
    · exact .inr hdisconnected
  · rintro (⟨k, hk, hdisconnected⟩ | hdisconnected)
    · exact ⟨k, Nat.lt_succ_of_lt hk, hdisconnected⟩
    · exact ⟨reads, Nat.lt_succ_self _, hdisconnected⟩

lemma watching_start : Watching node surroundings ctx inputs outputs (node.start surroundings)
    (.holding 0) := by
  refine ⟨rfl, ⟨[], [], rfl, ?_, rfl⟩, ?_⟩
  · unfold start
    dsimp only
    split
    · trivial
    · split
      · trivial
      · exact ⟨rfl, rfl⟩
  · have hnone : ¬ Disconnected surroundings (node.start surroundings).reads := by
      rintro ⟨k, hk, -⟩
      exact absurd hk (Nat.not_lt_zero k)
    have hstopped : ¬ Stopped inputs (.holding 0) := by
      rintro ⟨c, -, packet, hmem⟩
      cases hmem
    refine ⟨fun h => (h.elim hstopped hnone).elim, fun h => ?_⟩
    unfold start at h
    dsimp only at h
    split at h
    · cases h
    · split at h <;> cases h

/-- **One turn** of the node. -/
lemma watching_step (h : Watching node surroundings ctx inputs outputs s g) :
    Prog.Wp ledger (step node surroundings ctx inputs outputs s)
      (Watching node surroundings ctx inputs outputs) g := by
  obtain ⟨lastEmit, seq, reads, stage⟩ := s
  obtain ⟨hlast, ⟨sent, rest, hchanged, hpending, hcommitted⟩, hstops⟩ := h
  dsimp only at hlast hchanged hpending hcommitted hstops
  have hgoing (hne : stage ≠ .returned (.ok ())) :
      ¬ (Stopped inputs g ∨ Disconnected surroundings reads) := mt hstops.mp hne
  cases stage with
  | looping =>
    replace hgoing := hgoing (by simp)
    obtain ⟨rfl, hseq⟩ := hpending
    rw [step]
    simp only [Prog.wp_bind]
    refine wp_isCancelled.mpr fun cancelled => ?_
    cases cancelled with
    | true => exact ⟨hlast, ⟨sent, [], hchanged, trivial, hcommitted⟩, iff_of_false hgoing (by simp)⟩
    | false =>
      rw [if_neg Bool.false_ne_true, Prog.wp_bind]
      refine (tryRecv_taken inputs controlPort).mono fun answer g' hanswer => ?_
      rcases answer with err | _ | packet
      · obtain rfl : g' = g := hanswer
        exact ⟨hlast, ⟨sent, [], hchanged, trivial, hcommitted⟩, iff_of_false hgoing (by simp)⟩
      · obtain rfl : g' = g := hanswer
        exact ⟨hlast, ⟨sent, [], hchanged, ⟨rfl, hseq⟩, hcommitted⟩, iff_of_false hgoing (by simp)⟩
      · obtain ⟨c, hc, rfl⟩ := hanswer
        have hstopped : Stopped inputs { g with received := g.received ++ [(c, packet)] } :=
          ⟨c, hc, packet, List.mem_append_right _ List.mem_cons_self⟩
        exact ⟨hlast, ⟨sent, [], hchanged, rfl, hcommitted⟩, iff_of_true (.inl hstopped) rfl⟩
  | draining gotEvent =>
    replace hgoing := hgoing (by simp)
    obtain ⟨rfl, hseq⟩ := hpending
    rw [List.append_nil] at hchanged
    rw [step]
    rcases hreading : surroundings.readings reads with ⟨err | event, now⟩
    · have hlast' : lastEmit = lastThrough node.debounce none (notices surroundings (reads + 1)) := by
        rw [notices_succ, hreading, List.append_nil, hlast]
      have hchanged' : node.changed surroundings (reads + 1) = sent ++ [] := by
        rw [changed, emitted, notices_succ, hreading, List.append_nil, List.append_nil, ← hchanged,
          changed, emitted]
      cases err with
      | empty =>
        refine ⟨hlast', ⟨sent, [], hchanged', ⟨rfl, hseq⟩, hcommitted⟩, iff_of_false ?_ (by simp)⟩
        rw [disconnected_succ, hreading]
        rintro (hstopped | hbefore | hnow)
        · exact hgoing (.inl hstopped)
        · exact hgoing (.inr hbefore)
        · cases hnow
      | disconnected =>
        refine ⟨hlast', ⟨sent, [], hchanged', rfl, hcommitted⟩, iff_of_true (.inr ?_) rfl⟩
        exact disconnected_succ.mpr (.inr (by rw [hreading]))
    · have hgoing' : ¬ (Stopped inputs g ∨ Disconnected surroundings (reads + 1)) := by
        rw [disconnected_succ, hreading]
        rintro (hstopped | hbefore | hnow)
        · exact hgoing (.inl hstopped)
        · exact hgoing (.inr hbefore)
        · cases hnow
      dsimp only
      split
      · next hin =>
        rw [hlast] at hin
        refine ⟨?_, ⟨sent, [], ?_, ⟨rfl, hseq⟩, hcommitted⟩, iff_of_false hgoing' (by simp)⟩
        · rw [notices_succ, hreading, lastThrough_append, if_pos hin, hlast]
        · rw [changed_suppressed hreading hin, hchanged, List.append_nil]
      · next hout =>
        rw [hlast] at hout
        refine ⟨?_, ⟨sent, event.paths, ?_, ⟨rfl, hseq⟩, hcommitted⟩, iff_of_false hgoing' (by simp)⟩
        · rw [notices_succ, hreading, lastThrough_append, if_neg hout]
        · rw [changed_emitted hreading hout, hchanged]
  | emitting left =>
    replace hgoing := hgoing (by simp)
    obtain ⟨rfl, hseq⟩ := hpending
    rcases rest with _ | ⟨path, left⟩
    · exact ⟨hlast, ⟨sent, [], hchanged, ⟨rfl, hseq⟩, hcommitted⟩, iff_of_false hgoing (by simp)⟩
    · rw [step]
      dsimp only
      rw [hseq]
      cases hpacket : makePacket ctx changesPort path.toUTF8.data.toList (.ofNat sent.length) with
      | error err =>
        exact ⟨hlast, ⟨sent, path :: left, hchanged, trivial, hcommitted⟩,
          iff_of_false hgoing (by simp)⟩
      | ok packet =>
        refine ⟨hlast, ⟨sent, path :: left, hchanged, ⟨path, rfl, ?_, hpacket⟩, hcommitted⟩,
          iff_of_false hgoing (by simp)⟩
        exact (UInt64.ofNat_add _ _).symm
  | sending packet left =>
    replace hgoing := hgoing (by simp)
    obtain ⟨path, rfl, hseq, hpacket⟩ := hpending
    rw [step]
    simp only [Prog.wp_bind]
    refine (send_spec outputs changesPort packet).mono fun poll g' hpoll => ?_
    rcases poll with (err | ⟨⟩) | _
    · obtain rfl : g' = g := hpoll
      exact ⟨hlast, ⟨sent, path :: left, hchanged, trivial, hcommitted⟩, iff_of_false hgoing (by simp)⟩
    · obtain rfl : g' = _ := hpoll
      refine ⟨hlast, ⟨sent ++ [path], left, ?_, ⟨rfl, ?_⟩, ?_⟩, iff_of_false hgoing (by simp)⟩
      · rw [hchanged, List.append_assoc, List.singleton_append]
      · rw [hseq, List.length_append, List.length_singleton]
      · rw [changes_append, change, hpacket, hcommitted]
    · obtain rfl : g' = g := hpoll
      exact ⟨hlast, ⟨sent, path :: left, hchanged, ⟨path, rfl, hseq, hpacket⟩, hcommitted⟩,
        iff_of_false hgoing (by simp)⟩
  | returned result => exact ⟨hlast, ⟨sent, rest, hchanged, hpending, hcommitted⟩, hstops⟩

/-- What the calls of the turns leave of the account. -/
def account (turns : List (Prog.Turn PortOp.Answer WatcherState)) : Account :=
  Prog.Yields.after ledger (Prog.trace turns) (.holding 0)

lemma watching_of_runs {turns : List (Prog.Turn PortOp.Answer WatcherState)}
    (h : Runs node surroundings ctx inputs outputs turns s) :
    Watching node surroundings ctx inputs outputs s (account turns) := by
  refine Prog.Runs.invariant
    (P := fun turns s => Watching node surroundings ctx inputs outputs s (account turns)) h watching_start ?_
  intro turns s events s' hs hyields
  have hafter : account (turns ++ [⟨s, events, s'⟩]) =
      Prog.Yields.after ledger events (account turns) := by
    rw [account, Prog.trace_append, Prog.trace_singleton, Prog.Yields.after, List.foldl_append]
    rfl
  rw [hafter]
  exact hyields.wp (fun _ _ _ => trivial) (watching_step hs)

/-- A stage at which no path is left to send. -/
def Idle : WatcherStage → Prop
  | .looping | .draining _ | .returned (.ok ()) => True
  | .emitting left => left = []
  | .sending _ _ | .returned (.error _) => False

lemma Pending.rest_of_idle {sent rest : List String} {seq : UInt64} {stage : WatcherStage}
    (h : Pending ctx sent seq stage rest) (hidle : Idle stage) : rest = [] := by
  rcases stage with _ | _ | left | ⟨packet, left⟩ | ⟨err | ⟨⟩⟩
  · exact h.1
  · exact h.1
  · exact h.1.trans hidle
  · exact hidle.elim
  · exact hidle.elim
  · exact h

section Progress

/-- The turns of a node that has not returned. -/
def busyTurns (turns : List (Prog.Turn PortOp.Answer WatcherState)) : ℕ :=
  turns.countP fun turn => !turn.stage.stage.isReturned

/-- The turns in which a channel had no room. -/
def stalledTurns (turns : List (Prog.Turn PortOp.Answer WatcherState)) : ℕ :=
  turns.countP fun turn => Prog.Yields.after stalls turn.events false

/-- The turns that the paths left at a stage take yet, and the read that is due there. -/
def owed : WatcherStage → ℕ
  | .looping => 1
  | .draining _ | .returned _ => 0
  | .emitting left => 2 * left.length + 1
  | .sending _ left => 2 * left.length + 2

/-- What is owed after a turn: each turn pays for itself, by a read, with the paths that it brings,
or in what was owed, unless a channel had no room. -/
def Advances (node : FsWatcherNode) (surroundings : Surroundings) (s s' : WatcherState)
    (stalled : Bool) : Prop :=
  owed s'.stage + 1 + 2 * s.reads + 2 * (node.changed surroundings s.reads).length ≤
    owed s.stage + 2 * s'.reads + 2 * (node.changed surroundings s'.reads).length + stalled.toNat

/-- **One turn gets the node on.** -/
lemma step_advances (hlast : s.lastEmit = lastThrough node.debounce none
      (notices surroundings s.reads)) (hbusy : s.stage.isReturned = false) :
    Prog.Wp stalls (step node surroundings ctx inputs outputs s)
      (Advances node surroundings s) false := by
  obtain ⟨lastEmit, seq, reads, stage⟩ := s
  dsimp only at hlast hbusy
  -- a turn that reads nothing lowers what is owed
  have hsame {seq' : UInt64} {stage' : WatcherStage} {stalled : Bool}
      (howed : owed stage' + 1 ≤ owed stage + stalled.toNat) :
      Advances node surroundings ⟨lastEmit, seq, reads, stage⟩ ⟨lastEmit, seq', reads, stage'⟩
        stalled := by
    unfold Advances
    dsimp only
    omega
  cases stage with
  | looping =>
    rw [step]
    simp only [Prog.wp_bind]
    refine stalls_of_forall (fun cancelled b => ?_) _
    cases cancelled with
    | true => exact hsame (Nat.le_add_right _ _)
    | false =>
      rw [if_neg Bool.false_ne_true, Prog.wp_bind]
      refine stalls_of_forall (fun answer b => ?_) _
      rcases answer with err | _ | packet
      · exact hsame (Nat.le_add_right _ _)
      · exact hsame (Nat.le_add_right _ _)
      · exact hsame (Nat.le_add_right _ _)
  | draining gotEvent =>
    rw [step]
    rcases hreading : surroundings.readings reads with ⟨err | event, now⟩
    · have hchanged : node.changed surroundings (reads + 1) = node.changed surroundings reads := by
        rw [changed, emitted, notices_succ, hreading, List.append_nil, ← emitted, ← changed]
      cases err with
      | empty =>
        show Advances node surroundings _ _ false
        simp only [Advances, owed, hchanged, Bool.toNat_false]
        omega
      | disconnected =>
        show Advances node surroundings _ _ false
        simp only [Advances, owed, hchanged, Bool.toNat_false]
        omega
    · dsimp only
      split
      · next hin =>
        rw [hlast] at hin
        show Advances node surroundings _ _ false
        simp only [Advances, owed, changed_suppressed hreading hin, Bool.toNat_false]
        omega
      · next hout =>
        rw [hlast] at hout
        show Advances node surroundings _ _ false
        simp only [Advances, owed, changed_emitted hreading hout, List.length_append,
          Bool.toNat_false]
        omega
  | emitting left =>
    rcases left with _ | ⟨path, left⟩
    · exact hsame (Nat.le_refl _)
    · rw [step]
      dsimp only
      cases makePacket ctx changesPort path.toUTF8.data.toList seq with
      | error err => exact hsame (by simp [owed])
      | ok packet => exact hsame (by simp [owed]; omega)
  | sending packet left =>
    rw [step]
    simp only [Prog.wp_bind]
    refine (send_stalls outputs changesPort packet).mono fun poll b hpoll => ?_
    rcases poll with (err | ⟨⟩) | _
    · exact hsame (by simp [owed]; omega)
    · exact hsame (by simp [owed])
    · rw [hpoll rfl]
      exact hsame (Nat.le_refl _)
  | returned result => cases hbusy

lemma busyTurns_append (turns more : List (Prog.Turn PortOp.Answer WatcherState)) :
    busyTurns (turns ++ more) = busyTurns turns + busyTurns more := List.countP_append

lemma stalledTurns_append (turns more : List (Prog.Turn PortOp.Answer WatcherState)) :
    stalledTurns (turns ++ more) = stalledTurns turns + stalledTurns more := List.countP_append

/-- **The turns of a run** are paid for by what was read and by channels without room. -/
lemma busyTurns_le {turns : List (Prog.Turn PortOp.Answer WatcherState)}
    (h : Runs node surroundings ctx inputs outputs turns s) :
    busyTurns turns + owed s.stage ≤ 2 * s.reads +
      2 * (node.changed surroundings s.reads).length + stalledTurns turns + 1 := by
  induction h with
  | refl =>
    have howed : owed (node.start surroundings).stage ≤ 1 := by
      unfold start
      dsimp only
      split
      · exact Nat.zero_le _
      · split
        · exact Nat.zero_le _
        · exact Nat.le_refl _
    have hnone : busyTurns [] = 0 := rfl
    omega
  | @turn s s' turns events hrun hyields ih =>
    rw [busyTurns_append, stalledTurns_append]
    cases hreturned : s.stage.isReturned with
    | true =>
      have hsame : s' = s := by
        obtain ⟨lastEmit, seq, reads, stage⟩ := s
        cases stage with
        | returned result => exact (Prog.yields_ret.mp hyields).2
        | _ => cases hreturned
      have hidle : busyTurns [⟨s, events, s'⟩] = 0 := by
        simp [busyTurns, hreturned]
      rw [hsame] at hidle ⊢
      omega
    | false =>
      have hadvances := hyields.wp (fun _ _ _ => trivial)
        (step_advances (watching_of_runs hrun).lastEmit hreturned)
      have hbusy : busyTurns [⟨s, events, s'⟩] = 1 := by
        simp [busyTurns, hreturned]
      have hstalled : stalledTurns [⟨s, events, s'⟩] =
          (Prog.Yields.after stalls events false).toNat := by
        simp only [stalledTurns, List.countP_singleton]
        cases Prog.Yields.after stalls events false <;> rfl
      unfold Advances at hadvances
      omega

/-- The node looks at its control port before it reads, and a look at the event channel reads. -/
structure Attends (inputs : PortsIn) (turn : Prog.Turn PortOp.Answer WatcherState) : Prop where
  looks : turn.stage.stage = .looping → turn.next.stage = .draining false →
    ∀ c ∈ inputs.channels controlPort, ∃ err, ⟨.tryRecv c, .error err⟩ ∈ turn.events
  drains : ∀ gotEvent, turn.stage.stage = .draining gotEvent →
    turn.next.reads = turn.stage.reads + 1

lemma step_looks {events : List PortEvent} {s' : WatcherState}
    (h : (step node surroundings ctx inputs outputs s).Yields events s')
    (hlooping : s.stage = .looping) (hdraining : s'.stage = .draining false) :
    ∀ c ∈ inputs.channels controlPort, ∃ err, ⟨.tryRecv c, .error err⟩ ∈ events := by
  rw [step, hlooping] at h
  obtain ⟨cancelled, before, after, rfl, -, hafter⟩ := Prog.yields_bind.mp h
  cases cancelled with
  | true =>
    obtain ⟨-, rfl⟩ := Prog.yields_ret.mp hafter
    cases hdraining
  | false =>
    obtain ⟨answer, asked, last, rfl, hasked, hlast⟩ := Prog.yields_bind.mp hafter
    rcases answer with err | _ | packet
    · obtain ⟨-, rfl⟩ := Prog.yields_ret.mp hlast
      cases hdraining
    · intro c hc
      obtain ⟨err, hmem⟩ := tryRecv_asks hasked c hc
      exact ⟨err, List.mem_append_right _ (List.mem_append_left _ hmem)⟩
    · obtain ⟨-, rfl⟩ := Prog.yields_ret.mp hlast
      cases hdraining

lemma step_drains {events : List PortEvent} {s' : WatcherState} {gotEvent : Bool}
    (h : (step node surroundings ctx inputs outputs s).Yields events s')
    (hdraining : s.stage = .draining gotEvent) : s'.reads = s.reads + 1 := by
  refine h.ends (Q := fun s' => s'.reads = s.reads + 1) ?_
  rw [step, hdraining]
  rcases surroundings.readings s.reads with ⟨err | event, now⟩
  · cases err <;> rfl
  · dsimp only
    split <;> rfl

lemma attends_of_runs {turns : List (Prog.Turn PortOp.Answer WatcherState)}
    (h : Runs node surroundings ctx inputs outputs turns s) : ∀ turn ∈ turns, Attends inputs turn := by
  induction h with
  | refl => exact List.forall_mem_nil _
  | turn hrun hyields ih =>
    refine List.forall_mem_append.mpr ⟨ih, List.forall_mem_singleton.mpr ⟨?_, fun gotEvent => ?_⟩⟩
    · exact step_looks hyields
    · exact step_drains hyields

end Progress

section Ids

lemma changeId_inj {seq seq' : UInt64} (h : changeId ctx seq = changeId ctx seq') : seq = seq' := by
  unfold changeId at h
  exact UInt64.toNat.inj (Nat.repr_injective ((String.append_right_inj _).mp h))

lemma changeId_of_makePacket {port : PortId} {payload : List UInt8} {seq : UInt64}
    {packet : PortPacket} (h : makePacket ctx port payload seq = .ok packet) :
    packet.metadata.messageId.value = changeId ctx seq := by
  unfold makePacket at h
  split at h
  · cases h
  · next hnew =>
    obtain rfl := Except.ok.inj h
    exact Identifier.value_of_new hnew

lemma changeId_of_mem_changes {sent : List String} {c : ℕ} {packet : PortPacket}
    (h : (c, packet) ∈ changes ctx outputs sent) :
    ∃ index < sent.length, packet.metadata.messageId.value = changeId ctx (.ofNat index) := by
  obtain ⟨⟨path, index⟩, hpath, hmem⟩ := List.mem_flatMap.mp h
  have hlt := (List.mem_zipIdx' hpath).1
  refine ⟨index, hlt, ?_⟩
  unfold change at hmem
  split at hmem
  · cases hmem
  · next hpacket =>
    obtain ⟨c', -, heq⟩ := List.mem_map.mp hmem
    obtain ⟨-, rfl⟩ := Prod.mk.inj heq
    exact changeId_of_makePacket hpacket

lemma withKey_map_pair {channels : List ℕ} (hnodup : channels.Nodup) (c : ℕ) (packet : PortPacket) :
    (withKey c (channels.map (·, packet))).length ≤ 1 := by
  have hcount : (withKey c (channels.map (·, packet))).length = channels.count c := by
    rw [withKey, List.length_map, ← List.countP_eq_length_filter, List.countP_map, List.count]
    refine List.countP_congr fun c' _ => ?_
    simp
  rw [hcount]
  exact List.nodup_iff_count_le_one.mp hnodup c

lemma mem_of_mem_withKey {c : ℕ} {packet : PortPacket} {entries : List (ℕ × PortPacket)}
    (h : packet ∈ withKey c entries) : (c, packet) ∈ entries := by
  obtain ⟨⟨c', packet'⟩, hmem, rfl⟩ := List.mem_map.mp h
  obtain ⟨hentry, hkey⟩ := List.mem_filter.mp hmem
  obtain rfl : c' = c := of_decide_eq_true hkey
  exact hentry

/-- **The ids on an edge are apart**, as long as the counter does not wrap. -/
lemma nodup_ids (hnodup : (outputs.channels changesPort).Nodup) {sent : List String}
    (hlength : sent.length ≤ 2 ^ 64) (c : ℕ) :
    ((withKey c (changes ctx outputs sent)).map (·.metadata.messageId)).Nodup := by
  induction sent using List.reverseRecOn with
  | nil => exact List.nodup_nil
  | append_singleton sent path ih =>
    rw [List.length_append, List.length_singleton] at hlength
    rw [changes_append, withKey_append, List.map_append, List.nodup_append']
    refine ⟨ih (by omega), ?_, ?_⟩
    · have hone : (withKey c (change ctx outputs path sent.length)).length ≤ 1 := by
        unfold change
        split
        · exact Nat.zero_le _
        · exact withKey_map_pair hnodup c _
      exact nodup_of_single ((List.length_map _).trans_le hone)
    · intro id hbefore hlast
      obtain ⟨packet, hpacket, rfl⟩ := List.mem_map.mp hbefore
      obtain ⟨packet', hpacket', hid⟩ := List.mem_map.mp hlast
      obtain ⟨index, hlt, hvalue⟩ := changeId_of_mem_changes (mem_of_mem_withKey hpacket)
      have hvalue' : packet'.metadata.messageId.value = changeId ctx (.ofNat sent.length) := by
        have hmem := mem_of_mem_withKey hpacket'
        unfold change at hmem
        split at hmem
        · cases hmem
        · next hmade =>
          obtain ⟨c', -, heq⟩ := List.mem_map.mp hmem
          obtain ⟨-, rfl⟩ := Prod.mk.inj heq
          exact changeId_of_makePacket hmade
      rw [hid, hvalue] at hvalue'
      have hnat := congrArg UInt64.toNat (changeId_inj hvalue')
      have hsize : UInt64.size = 2 ^ 64 := rfl
      rw [UInt64.toNat_ofNat_of_lt' (by omega), UInt64.toNat_ofNat_of_lt' (by omega)] at hnat
      omega

end Ids

/-- **The watcher sends what changes, paced.** In every run, whatever is answered: the edges hold the
paths of the events that were not suppressed, in order and each once, all of them where the node
goes on reading or has returned without an error; what is not suppressed is spaced by the debounce
interval, and a suppressed event comes within it of the last one that was not; ids on an edge
differ as long as the counter does not wrap; and the node ends without an error exactly for a packet
on its control port or a closed event channel. Until it returns it goes on: it looks at all of its
control port before it reads, it reads whenever it looks at the event channel, and it takes no more
turns than what it read asks for, but for those in which a channel had no room. -/
theorem watcher_sends_changes (node : FsWatcherNode) (surroundings : Surroundings)
    (ctx : NodeContext) (inputs : PortsIn) (outputs : PortsOut)
    (turns : List (Prog.Turn PortOp.Answer WatcherState)) (s : WatcherState)
    (hrun : Runs node surroundings ctx inputs outputs turns s) :
    (∃ sent rest, node.changed surroundings s.reads = sent ++ rest ∧
      (account turns).committed = changes ctx outputs sent ∧ (Idle s.stage → rest = []) ∧
      ((outputs.channels changesPort).Nodup → sent.length ≤ 2 ^ 64 → ∀ c,
        ((withKey c (account turns).committed).map (·.metadata.messageId)).Nodup)) ∧
    Paced node.debounce (notices surroundings s.reads) (node.emitted surroundings s.reads) ∧
    (∀ r between r', r :: between ++ [r'] <:+: node.emitted surroundings s.reads →
      0 < node.debounce → (between.length + 1) * node.debounce + r.2 ≤ r'.2) ∧
    (s.stage = .returned (.ok ()) ↔
      Stopped inputs (account turns) ∨ Disconnected surroundings s.reads) ∧
    (∀ turn ∈ turns, Attends inputs turn) ∧
    busyTurns turns ≤
      2 * s.reads + 2 * (node.changed surroundings s.reads).length + stalledTurns turns + 1 := by
  obtain ⟨-, ⟨sent, rest, hchanged, hpending, hcommitted⟩, hstops⟩ := watching_of_runs hrun
  have hpaced := letThrough_paced node.debounce (notices surroundings s.reads)
  refine ⟨⟨sent, rest, hchanged, hcommitted, hpending.rest_of_idle, fun hnodup hlength c => ?_⟩,
    hpaced, fun r between r' hin hpos => hpaced.rate hpos hin, hstops.symm, attends_of_runs hrun,
    le_of_add_le_left (busyTurns_le hrun)⟩
  rw [hcommitted]
  exact nodup_ids hnodup hlength c

section Sample

/-- Two events, the second one of which comes too soon, and then a closed channel. -/
def sampleSurroundings : Surroundings where
  recommendedWatcher := .ok ()
  watch _ := .ok ()
  readings
    | 0 => (.ok ⟨["a.txt"]⟩, 0)
    | 1 => (.ok ⟨["b.txt"]⟩, 10)
    | _ => (.error .disconnected, 20)

def sampleContext : NodeContext :=
  .new ⟨"flow", workflow_flow_valid⟩ ⟨"watcher", by decide⟩
    (.firstAttempt ⟨"run-1", execution_run_valid⟩)

def sampleInputs : PortsIn := ⟨[controlPort], [⟨controlPort, []⟩], false, none⟩

def sampleOutputs : PortsOut := ⟨[changesPort], [⟨changesPort, [⟨0, 1⟩]⟩], false, none, none⟩

def sampleStep : WatcherState → PortM WatcherState :=
  step ⟨"/tmp", 50⟩ sampleSurroundings sampleContext sampleInputs sampleOutputs

theorem watcher_sends_changes_sample : ∃ turns s packet,
    Runs ⟨"/tmp", 50⟩ sampleSurroundings sampleContext sampleInputs sampleOutputs turns s ∧
      s.stage = .returned (.ok ()) ∧ s.reads = 3 ∧ (account turns).committed = [(0, packet)] ∧
      (Stopped sampleInputs (account turns) ∨ Disconnected sampleSurroundings 3) := by
  obtain ⟨packet, hpacket⟩ : ∃ packet, makePacket sampleContext changesPort
      "a.txt".toUTF8.data.toList 0 = .ok packet := by
    have hok : (makePacket sampleContext changesPort "a.txt".toUTF8.data.toList 0).isOk = true := by
      decide
    cases hmade : makePacket sampleContext changesPort "a.txt".toUTF8.data.toList 0 with
    | error err => rw [hmade] at hok; cases hok
    | ok packet => exact ⟨packet, rfl⟩
  have hloop : (sampleStep ⟨none, 0, 0, .looping⟩).Yields [⟨.isCancelled, false⟩]
      ⟨none, 0, 0, .draining false⟩ := .call .ret
  have hread : (sampleStep ⟨none, 0, 0, .draining false⟩).Yields []
      ⟨some 0, 0, 1, .emitting ["a.txt"]⟩ := .ret
  have hmake : (sampleStep ⟨some 0, 0, 1, .emitting ["a.txt"]⟩).Yields []
      ⟨some 0, 1, 1, .sending packet []⟩ := by
    rw [sampleStep, step]
    dsimp only
    rw [hpacket]
    exact .ret
  have hsend : (sampleStep ⟨some 0, 1, 1, .sending packet []⟩).Yields
      [⟨.isCancelled, false⟩, ⟨.tryReserve 0, .ok ()⟩, ⟨.permitSend 0 packet, ()⟩]
      ⟨some 0, 1, 1, .emitting []⟩ := .call (.call (.call .ret))
  have hdone : (sampleStep ⟨some 0, 1, 1, .emitting []⟩).Yields []
      ⟨some 0, 1, 1, .draining true⟩ := .ret
  have hsuppressed : (sampleStep ⟨some 0, 1, 1, .draining true⟩).Yields []
      ⟨some 0, 1, 2, .draining true⟩ := by
    have hin : withinInterval (debounce ⟨"/tmp", 50⟩) (some 0) 10 = true := by decide
    have hreading : sampleSurroundings.readings 1 = (.ok ⟨["b.txt"]⟩, 10) := rfl
    rw [sampleStep, step]
    dsimp only
    rw [hreading]
    dsimp only
    rw [if_pos hin]
    exact .ret
  have hclosed : (sampleStep ⟨some 0, 1, 2, .draining true⟩).Yields []
      ⟨some 0, 1, 3, .returned (.ok ())⟩ := .ret
  have hrun : Runs ⟨"/tmp", 50⟩ sampleSurroundings sampleContext sampleInputs sampleOutputs _
      ⟨some 0, 1, 3, .returned (.ok ())⟩ :=
    .turn (.turn (.turn (.turn (.turn (.turn (.turn .refl hloop) hread) hmake) hsend) hdone)
      hsuppressed) hclosed
  refine ⟨_, _, packet, hrun, rfl, rfl, rfl, ?_⟩
  exact (watcher_sends_changes _ _ _ _ _ _ _ hrun).2.2.2.1.mp rfl

end Sample

end Runs

end FsWatcherNode

end Pureflow.Nodes
