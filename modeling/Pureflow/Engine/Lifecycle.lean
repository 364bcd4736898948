import Pureflow.Engine.Execution
import Pureflow.Workflow.Topology

/-!
The lifecycle stream of an execution and the summary of its loop, with observers that never fail.

The runtime classifies a result when it observes the end of a node, the loop when it counts it.
Both are told of each result once, in the same poll, so the stream and the counters stay in step.
-/

namespace Pureflow.Engine

open Pureflow.Types Pureflow.Core Pureflow.Lib Pureflow.Runtime Pureflow.Workflow

section Streams

/-- The lifecycle events among the records of a sink. -/
def lifecycleEvents (records : List MetadataRecord) : List LifecycleEvent :=
  records.filterMap fun
    | .lifecycle event => some event
    | _ => none

/-- The lifecycle records of one node. -/
def lifecycleOf (nodeId : NodeId) (records : List MetadataRecord) : List LifecycleEventKind :=
  ((lifecycleEvents records).filter (·.context.nodeId = nodeId)).map LifecycleEvent.kind

/-- The number of lifecycle records of a kind. -/
def countKind (kind : LifecycleEventKind) (records : List MetadataRecord) : ℕ :=
  (lifecycleEvents records).countP (·.kind = kind)

def isNodeFailed : MetadataRecord → Bool
  | .error record => record.kind = .nodeFailed
  | _ => false

/-- The record of how a node ended. -/
def terminalKind : Except PureflowError Unit → LifecycleEventKind
  | .ok () => .nodeCompleted
  | .error (.cancellation _) => .nodeCancelled
  | .error _ => .nodeFailed

/-- The lifecycle records of a node run in a phase. -/
def Phase.kinds : Phase → List LifecycleEventKind
  | .waiting => []
  | .started => [.nodeStarted]
  | .ended result => [.nodeStarted, terminalKind result]

/-- The counter of the summary that stands for a kind of terminal record. -/
def countOf (summary : WorkflowRunSummary) : LifecycleEventKind → ℕ
  | .nodeCompleted => summary.completedNodeCount
  | .nodeFailed => summary.failedNodeCount
  | .nodeCancelled => summary.cancelledNodeCount
  | _ => 0

/-- Everything the runtime records of the end of a node. -/
def terminalRecords (ctx : NodeContext) (result : Except PureflowError Unit) :
    List MetadataRecord :=
  (match result with
    | .ok () => []
    | .error err => [.error (.nodeFailed ctx err)]) ++ [.lifecycle ⟨terminalKind result, ctx⟩]

/-- A record of the loop: that the workflow has failed. -/
def IsWorkflowError (r : MetadataRecord) : Prop :=
  ∃ record : ErrorMetadataRecord, r = .error record ∧ record.kind = .workflowFailed

variable {records : List MetadataRecord}

lemma lifecycleEvents_append (more : List MetadataRecord) :
    lifecycleEvents (records ++ more) = lifecycleEvents records ++ lifecycleEvents more := by
  simp [lifecycleEvents]

lemma lifecycleEvents_terminal (ctx : NodeContext) (result : Except PureflowError Unit) :
    lifecycleEvents (terminalRecords ctx result) = [⟨terminalKind result, ctx⟩] := by
  rcases result with err | ⟨⟩
  · rfl
  · rfl

lemma lifecycleEvents_workflow (h : ∀ r ∈ records, IsWorkflowError r) :
    lifecycleEvents records = [] := by
  rw [lifecycleEvents, List.filterMap_eq_nil_iff]
  intro r hr
  obtain ⟨record, rfl, -⟩ := h r hr
  rfl

lemma countP_workflow (h : ∀ r ∈ records, IsWorkflowError r) :
    records.countP isNodeFailed = 0 := by
  rw [List.countP_eq_zero]
  intro r hr
  obtain ⟨record, rfl, hkind⟩ := h r hr
  simp [isNodeFailed, hkind]

end Streams

section Loop

variable {context : WorkflowCollectionContext} {n : SliceLen} {events : List Event}
  {loop loop' : Run}

lemma next_records {ev : Event} (h : loop.next context ev = some loop') :
    ∃ more, loop'.records = loop.records ++ more ∧ ∀ r ∈ more, IsWorkflowError r := by
  have hone (r : ErrorMetadataRecord) (hr : r.kind = .workflowFailed) :
      ∀ q ∈ [MetadataRecord.error r], IsWorkflowError q := by
    intro q hq
    rw [List.mem_singleton] at hq
    exact ⟨r, hq, hr⟩
  cases next_cases h with
  | success => exact ⟨[], (List.append_nil _).symm, by simp⟩
  | firstError => exact ⟨_, rfl, hone _ rfl⟩
  | firstErrorRefused => exact ⟨_, rfl, hone _ rfl⟩
  | laterError => exact ⟨[], (List.append_nil _).symm, by simp⟩
  | exhausted => exact ⟨[], (List.append_nil _).symm, by simp⟩
  | deadline => exact ⟨_, rfl, hone _ rfl⟩
  | deadlineRefused => exact ⟨_, rfl, hone _ rfl⟩
  | noWatchdog => exact ⟨[], (List.append_nil _).symm, by simp⟩

lemma countOf_recordError (s : WorkflowRunSummary) (err : PureflowError)
    (hfailed : s.failedNodeCount < usizeMax) (hcancelled : s.cancelledNodeCount < usizeMax)
    (kind : LifecycleEventKind) :
    countOf (s.recordError err) kind =
      countOf s kind + if kind = terminalKind (.error err) then 1 else 0 := by
  have hf : saturatingAdd s.failedNodeCount 1 = s.failedNodeCount + 1 := saturatingAdd_eq hfailed
  have hc : saturatingAdd s.cancelledNodeCount 1 = s.cancelledNodeCount + 1 :=
    saturatingAdd_eq hcancelled
  cases err with
  | cancellation reason =>
    simp only [WorkflowRunSummary.recordError, noteFirstError_eq, hc]
    cases kind <;> rfl
  | validation | execution | lifecycle | metadata =>
    simp only [WorkflowRunSummary.recordError, noteFirstError_eq, hf]
    cases kind <;> rfl

/-- **A result is counted once**, under the kind of its terminal record. -/
lemma countOf_next {nodeId : NodeId} {result : Except PureflowError Unit}
    (hacc : Accounted n events loop)
    (h : loop.next context ⟨.result nodeId result, .ok ()⟩ = some loop')
    (kind : LifecycleEventKind) :
    countOf loop'.summary kind =
      countOf loop.summary kind + if kind = terminalKind result then 1 else 0 := by
  have htotal := hacc.total
  have hn := n.isLt
  have hbound : loop.summary.completedNodeCount < usizeMax ∧
      loop.summary.failedNodeCount < usizeMax ∧ loop.summary.cancelledNodeCount < usizeMax := by
    unfold usizeMax
    omega
  generalize hev : (⟨.result nodeId result, .ok ()⟩ : Event) = ev at h
  cases next_cases h with
  | @success k c =>
    cases hev
    have hadd : saturatingAdd c.summary.completedNodeCount 1 = c.summary.completedNodeCount + 1 :=
      saturatingAdd_eq hbound.1
    simp only [Run.summary, WorkflowRunSummary.recordSuccess, hadd]
    cases kind <;> rfl
  | @firstError k c _ err =>
    cases hev
    exact countOf_recordError c.summary err hbound.2.1 hbound.2.2 kind
  | firstErrorRefused => cases hev
  | @laterError k c _ err =>
    cases hev
    exact countOf_recordError c.summary err hbound.2.1 hbound.2.2 kind
  | exhausted => cases hev
  | deadline => cases hev
  | deadlineRefused => cases hev
  | noWatchdog => cases hev

lemma running_next {nodeId : NodeId} {result sink : Except PureflowError Unit}
    (h : loop.next context ⟨.result nodeId result, sink⟩ = some loop') :
    loop'.running + 1 = loop.running := by
  generalize hev : (⟨.result nodeId result, sink⟩ : Event) = ev at h
  cases next_cases h with
  | success => rfl
  | firstError => rfl
  | firstErrorRefused => rfl
  | laterError => rfl
  | exhausted => cases hev
  | deadline => cases hev
  | deadlineRefused => cases hev
  | noWatchdog => cases hev

lemma countOf_next_other {ev : Event} (h : loop.next context ev = some loop')
    (hev : ∀ nodeId result, ev.arrival ≠ .result nodeId result) (kind : LifecycleEventKind) :
    countOf loop'.summary kind = countOf loop.summary kind ∧ loop'.running = loop.running := by
  cases next_cases h with
  | success => exact absurd rfl (hev _ _)
  | firstError => exact absurd rfl (hev _ _)
  | firstErrorRefused => exact absurd rfl (hev _ _)
  | laterError => exact absurd rfl (hev _ _)
  | exhausted => exact ⟨rfl, rfl⟩
  | @deadline k c watchdog =>
    have hsummary : countOf (c.deadlocked context watchdog) kind = countOf c.summary kind := by
      rw [Collection.deadlocked, WorkflowRunSummary.recordWorkflowError, noteFirstError_eq]
      cases kind <;> rfl
    exact ⟨hsummary, rfl⟩
  | deadlineRefused => exact ⟨rfl, rfl⟩
  | noWatchdog => exact ⟨rfl, rfl⟩

end Loop

section Steps

variable {setting : Setting} {s s' : Execution}

/-- The observers accept whatever they are told. -/
def Accept (o : Observers) : Prop :=
  (∀ event, o.hook event = .ok ()) ∧ ∀ record, o.sink record = .ok ()

lemma observeLifecycle_accept {o : Observers} (ho : Accept o) (kind : LifecycleEventKind)
    (ctx : NodeContext) (j : Journal) :
    observeLifecycle o kind ctx j =
      (.ok (), ⟨j.events ++ [⟨kind, ctx⟩], j.records ++ [.lifecycle ⟨kind, ctx⟩]⟩) := by
  have hrecord : Observing.record o (.lifecycle ⟨kind, ctx⟩) j =
      (.ok (), { j with records := j.records ++ [.lifecycle ⟨kind, ctx⟩] }) := by
    rw [Observing.record, ho.2]
  rw [observeLifecycle, Result.run_bind_ok hrecord, Observing.observe, ho.1]

lemma observeTerminal_error (o : Observers) (ctx : NodeContext) (err : PureflowError) :
    observeTerminal o ctx (.error err) = (do
      let errorObservation ← Observing.attempt (observeNodeError o ctx err)
      let lifecycleObservation ←
        Observing.attempt (observeLifecycle o (terminalKind (.error err)) ctx)
      return errorObservation.bind fun _ => lifecycleObservation) := by
  cases err <;> rfl

lemma endNode_accept {o : Observers} (ho : Accept o) (ctx : NodeContext)
    (result : Except PureflowError Unit) (j : Journal) :
    endNode o ctx result j =
      (result, ⟨j.events ++ [⟨terminalKind result, ctx⟩],
        j.records ++ terminalRecords ctx result⟩) := by
  rcases result with err | ⟨⟩
  · have herror : Observing.attempt (observeNodeError o ctx err) j =
        (.ok (.ok ()), { j with records := j.records ++ [.error (.nodeFailed ctx err)] }) := by
      simp [Observing.attempt, observeNodeError, Observing.record, ho.2]
    have hlifecycle (j : Journal) :
        Observing.attempt (observeLifecycle o (terminalKind (.error err)) ctx) j =
          (.ok (.ok ()), ⟨j.events ++ [⟨terminalKind (.error err), ctx⟩],
            j.records ++ [.lifecycle ⟨terminalKind (.error err), ctx⟩]⟩) := by
      rw [Observing.attempt, observeLifecycle_accept ho]
    have hterminal : observeTerminal o ctx (.error err) j =
        (.ok (.ok ()), ⟨j.events ++ [⟨terminalKind (.error err), ctx⟩],
          j.records ++ terminalRecords ctx (.error err)⟩) := by
      rw [observeTerminal_error, Result.run_bind_ok herror, Result.run_bind_ok (hlifecycle _)]
      simp only [terminalRecords, List.append_assoc]
      rfl
    rw [endNode, Result.run_bind_ok hterminal]
    rfl
  · have hterminal : observeTerminal o ctx (.ok ()) j =
        (.ok (.ok ()), ⟨j.events ++ [⟨.nodeCompleted, ctx⟩],
          j.records ++ [.lifecycle ⟨.nodeCompleted, ctx⟩]⟩) := by
      rw [observeTerminal, Observing.attempt, observeLifecycle_accept ho]
    rw [endNode, Result.run_bind_ok hterminal]
    rfl

/-- All that one action can do when the observers accept everything. -/
inductive Execution.Next (setting : Setting) : Execution → Action → Execution → Prop
  | started {s : Execution} {index : ℕ} {ctx : NodeContext} :
    setting.nodes[index]? = some ctx → s.phases[index]? = some .waiting →
    Next setting s (.start index) { s with
      journal := ⟨s.journal.events ++ [⟨.nodeStarted, ctx⟩],
        s.journal.records ++ [.lifecycle ⟨.nodeStarted, ctx⟩]⟩
      invoked := s.invoked ++ [ctx.nodeId]
      phases := s.phases.set index .started }
  | finished {s : Execution} {index : ℕ} {ctx : NodeContext} {result : Except PureflowError Unit}
      {loop : Run} {more : List MetadataRecord} :
    setting.nodes[index]? = some ctx → s.phases[index]? = some .started →
    s.loop.next setting.context ⟨.result ctx.nodeId result, .ok ()⟩ = some loop →
    (∀ r ∈ more, IsWorkflowError r) →
    Next setting s (.finish index result) { s with
      journal := ⟨s.journal.events ++ [⟨terminalKind result, ctx⟩],
        s.journal.records ++ terminalRecords ctx result ++ more⟩
      phases := s.phases.set index (.ended result)
      loop := loop }
  | other {s : Execution} {action : Action} {arrival : Arrival} {loop : Run}
      {more : List MetadataRecord} :
    (∀ index, action ≠ .start index) → (∀ index result, action ≠ .finish index result) →
    (∀ nodeId result, arrival ≠ .result nodeId result) →
    s.loop.next setting.context ⟨arrival, .ok ()⟩ = some loop →
    (∀ r ∈ more, IsWorkflowError r) →
    Next setting s action { s with
      journal := { s.journal with records := s.journal.records ++ more }
      loop := loop }

lemma answer_accept (ho : Accept setting.observers) (loop : Run) (arrival : Arrival) :
    Execution.answer setting loop arrival = .ok () := by
  unfold Execution.answer
  split
  · exact ho.2 _
  · exact ho.2 _
  · rfl

lemma round_accept (ho : Accept setting.observers) {arrival : Arrival}
    (h : s.round setting arrival = some s') :
    ∃ loop more, s.loop.next setting.context ⟨arrival, .ok ()⟩ = some loop ∧
      (∀ r ∈ more, IsWorkflowError r) ∧
      s' = { s with
        loop := loop
        journal := { s.journal with records := s.journal.records ++ more } } := by
  rw [Execution.round, answer_accept ho, Option.map_eq_some_iff] at h
  obtain ⟨loop, hloop, rfl⟩ := h
  obtain ⟨more, hmore, herrors⟩ := next_records hloop
  refine ⟨loop, more, hloop, herrors, ?_⟩
  rw [hmore, List.drop_left]

/-- **Inversion** of one action. -/
theorem execution_next_cases (ho : Accept setting.observers) {action : Action}
    (h : s.next setting action = some s') : Execution.Next setting s action s' := by
  cases action with
  | start index =>
    simp only [Execution.next] at h
    split at h
    · next ctx hctx hphase =>
      rw [Execution.start, observeLifecycle_accept ho] at h
      simp only at h
      split at h
      · cases h
      · cases h
        exact .started hctx hphase
    · cases h
  | finish index result =>
    simp only [Execution.next] at h
    split at h
    · next ctx hctx hphase =>
      rw [Execution.finish, endNode_accept ho] at h
      obtain ⟨loop, more, hloop, hmore, rfl⟩ := round_accept ho h
      exact .finished hctx hphase hloop hmore
    · cases h
  | exhausted | deadline | noWatchdog err =>
    obtain ⟨loop, more, hloop, hmore, rfl⟩ := round_accept ho h
    exact .other (by simp) (by simp) (by simp) hloop hmore

end Steps

section Invariant

variable {setting : Setting} {n : SliceLen} {s s' : Execution}

def Phase.isEnded : Phase → Bool
  | .ended _ => true
  | _ => false

/-- The kinds of record that end a node. -/
def terminalKinds : List LifecycleEventKind := [.nodeCompleted, .nodeFailed, .nodeCancelled]

/-- The lifecycle records of every node are those of its phase. -/
def PerNode (setting : Setting) (phases : List Phase) (records : List MetadataRecord) : Prop :=
  ∀ (index : ℕ) (ctx : NodeContext) (phase : Phase), setting.nodes[index]? = some ctx →
    phases[index]? = some phase → lifecycleOf ctx.nodeId records = phase.kinds

/-- The stream, the phases of the node runs and the summary are in step. -/
structure Agrees (setting : Setting) (n : SliceLen) (s : Execution) : Prop where
  length : s.phases.length = setting.nodes.length
  accounted : ∃ events, Accounted n events s.loop
  running : s.phases.countP (!·.isEnded) = s.loop.running
  lifecycle : PerNode setting s.phases s.journal.records
  events : s.journal.events = lifecycleEvents s.journal.records
  counts : ∀ kind ∈ terminalKinds,
    countKind kind s.journal.records = countOf s.loop.summary kind
  failures : s.journal.records.countP isNodeFailed =
    s.loop.summary.failedNodeCount + s.loop.summary.cancelledNodeCount

section Streams

variable {records more : List MetadataRecord} {event : LifecycleEvent}

lemma lifecycleOf_append (h : lifecycleEvents more = [event]) (nodeId : NodeId) :
    lifecycleOf nodeId (records ++ more) = lifecycleOf nodeId records ++
      if event.context.nodeId = nodeId then [event.kind] else [] := by
  rw [lifecycleOf, lifecycleEvents_append, h]
  by_cases hid : event.context.nodeId = nodeId
  · simp [lifecycleOf, hid]
  · simp [lifecycleOf, hid]

lemma countKind_append (h : lifecycleEvents more = [event]) (kind : LifecycleEventKind) :
    countKind kind (records ++ more) =
      countKind kind records + if event.kind = kind then 1 else 0 := by
  rw [countKind, lifecycleEvents_append, h]
  by_cases hkind : event.kind = kind
  · simp [countKind, hkind]
  · simp [countKind, hkind]

lemma lifecycleEvents_append_workflow (h : ∀ r ∈ more, IsWorkflowError r) :
    lifecycleEvents (records ++ more) = lifecycleEvents records := by
  rw [lifecycleEvents_append, lifecycleEvents_workflow h, List.append_nil]

lemma countP_terminalRecords (ctx : NodeContext) (result : Except PureflowError Unit) :
    (terminalRecords ctx result).countP isNodeFailed =
      if terminalKind result = .nodeCompleted then 0 else 1 := by
  rcases result with err | ⟨⟩
  · cases err <;> rfl
  · rfl

end Streams

lemma nodeId_ne (hids : (setting.nodes.map NodeContext.nodeId).Nodup) {i j : ℕ}
    {c d : NodeContext} (hc : setting.nodes[i]? = some c) (hd : setting.nodes[j]? = some d)
    (hne : i ≠ j) : c.nodeId ≠ d.nodeId := by
  intro heq
  have hi : (setting.nodes.map NodeContext.nodeId)[i]? = some c.nodeId := by simp [hc]
  have hj : (setting.nodes.map NodeContext.nodeId)[j]? = some d.nodeId := by simp [hd]
  have hlt : i < (setting.nodes.map NodeContext.nodeId).length :=
    (List.getElem?_eq_some_iff.mp hi).1
  exact hne ((List.getElem?_inj hlt hids).mp (by rw [hi, hj, heq]))

lemma PerNode.set (hids : (setting.nodes.map NodeContext.nodeId).Nodup) {index : ℕ}
    {ctx : NodeContext} {records more : List MetadataRecord} {kind : LifecycleEventKind}
    {phases : List Phase} {old new : Phase} (h : PerNode setting phases records)
    (hctx : setting.nodes[index]? = some ctx) (hold : phases[index]? = some old)
    (hmore : lifecycleEvents more = [⟨kind, ctx⟩]) (hkinds : new.kinds = old.kinds ++ [kind]) :
    PerNode setting (phases.set index new) (records ++ more) := by
  intro i c phase hc hphase
  rw [lifecycleOf_append hmore]
  rcases eq_or_ne index i with rfl | hne
  · cases hctx.symm.trans hc
    have hlt : index < phases.length := (List.getElem?_eq_some_iff.mp hold).1
    rw [List.getElem?_set_self hlt] at hphase
    cases hphase
    rw [h index ctx old hctx hold, if_pos rfl, hkinds]
  · rw [List.getElem?_set_ne hne] at hphase
    rw [if_neg (nodeId_ne hids hctx hc hne), List.append_nil]
    exact h i c phase hc hphase

lemma countP_set_ended {phases : List Phase} {index : ℕ} {old : Phase}
    (hold : phases[index]? = some old) (hopen : old.isEnded = false) (new : Phase) :
    (phases.set index new).countP (!·.isEnded) + (if new.isEnded then 1 else 0) =
      phases.countP (!·.isEnded) := by
  obtain ⟨hlt, hget⟩ := List.getElem?_eq_some_iff.mp hold
  have hpos : 0 < phases.countP (!·.isEnded) :=
    List.countP_pos_iff.mpr ⟨old, List.mem_of_getElem? hold, by simp [hopen]⟩
  rw [List.countP_set hlt, hget, hopen]
  cases new.isEnded with
  | true => simp; omega
  | false => simp; omega

lemma agrees_fresh (hn : setting.nodes.length = n) : Agrees setting n (.fresh n) where
  length := by simp [Execution.fresh, hn]
  accounted := ⟨[], accounted_start n⟩
  running := by
    have hwaiting : Phase.isEnded .waiting = false := rfl
    simp [Execution.fresh, Run.start, List.countP_replicate, hwaiting]
  lifecycle index ctx phase hctx hphase := by
    have hwaiting : phase = .waiting := by
      have := List.mem_of_getElem? hphase
      exact List.eq_of_mem_replicate this
    rw [hwaiting]
    rfl
  events := rfl
  counts kind hkind := by
    simp only [terminalKinds, List.mem_cons, List.not_mem_nil, or_false] at hkind
    rcases hkind with rfl | rfl | rfl <;> rfl
  failures := rfl

/-- **One action keeps the stream and the summary in step.** -/
lemma agrees_next (hids : (setting.nodes.map NodeContext.nodeId).Nodup)
    {action : Action} (h : Agrees setting n s) (hnext : Execution.Next setting s action s') :
    Agrees setting n s' := by
  obtain ⟨events, hacc⟩ := h.accounted
  cases hnext with
  | @started index ctx hctx hphase =>
    have hmore : lifecycleEvents [.lifecycle ⟨.nodeStarted, ctx⟩] =
      [(⟨.nodeStarted, ctx⟩ : LifecycleEvent)] := rfl
    refine ⟨?_, ⟨events, hacc⟩, ?_, h.lifecycle.set hids hctx hphase hmore rfl, ?_,
      fun kind hkind => ?_, ?_⟩
    · rw [List.length_set, h.length]
    · rw [← h.running]
      exact countP_set_ended hphase rfl .started
    · simp only [lifecycleEvents_append, hmore, h.events]
    · have hne : LifecycleEventKind.nodeStarted ≠ kind := by
        rintro rfl
        simp [terminalKinds] at hkind
      simp only [countKind_append hmore, if_neg hne, add_zero]
      exact h.counts kind hkind
    · simp only [List.countP_append, ← h.failures]
      rfl
  | @finished index ctx result loop more hctx hphase hloop hmore =>
    have hrecords : lifecycleEvents (terminalRecords ctx result ++ more) =
        [⟨terminalKind result, ctx⟩] := by
      rw [lifecycleEvents_append_workflow hmore, lifecycleEvents_terminal]
    have hcount := countOf_next hacc hloop
    refine ⟨?_, ⟨_, accounted_next hacc rfl hloop⟩, ?_, ?_, ?_, fun kind hkind => ?_, ?_⟩
    · rw [List.length_set, h.length]
    · have hset := countP_set_ended hphase rfl (.ended result)
      rw [h.running, ← running_next hloop] at hset
      exact Nat.add_right_cancel hset
    · rw [List.append_assoc]
      exact h.lifecycle.set hids hctx hphase hrecords rfl
    · simp only [List.append_assoc]
      rw [lifecycleEvents_append, hrecords, h.events]
    · simp only [List.append_assoc]
      rw [countKind_append hrecords, hcount kind, h.counts kind hkind]
      simp only [eq_comm]
    · have hfailed := hcount .nodeFailed
      have hcancelled := hcount .nodeCancelled
      have hone : (if terminalKind result = .nodeCompleted then 0 else 1) =
          (if .nodeFailed = terminalKind result then 1 else 0) +
            if .nodeCancelled = terminalKind result then 1 else 0 := by
        rcases result with err | ⟨⟩
        · cases err <;> rfl
        · rfl
      simp only [countOf] at hfailed hcancelled
      simp only [List.countP_append, countP_terminalRecords, countP_workflow hmore, h.failures,
        hfailed, hcancelled, hone]
      omega
  | @other action arrival loop more _ _ harrival hloop hmore =>
    have hcount := countOf_next_other hloop harrival
    have hfailed := (hcount .nodeFailed).1
    have hcancelled := (hcount .nodeCancelled).1
    simp only [countOf] at hfailed hcancelled
    refine ⟨h.length, ⟨_, accounted_next hacc rfl hloop⟩, ?_,
      fun index ctx phase hctx hphase => ?_, ?_, fun kind hkind => ?_, ?_⟩
    · rw [(hcount .nodeFailed).2]
      exact h.running
    · rw [lifecycleOf, lifecycleEvents_append_workflow hmore]
      exact h.lifecycle index ctx phase hctx hphase
    · rw [lifecycleEvents_append_workflow hmore]
      exact h.events
    · rw [countKind, lifecycleEvents_append_workflow hmore, (hcount kind).1]
      exact h.counts kind hkind
    · rw [List.countP_append, countP_workflow hmore, hfailed, hcancelled]
      exact h.failures

lemma agrees_of_reaches (hids : (setting.nodes.map NodeContext.nodeId).Nodup)
    (hn : setting.nodes.length = n) (ho : Accept setting.observers) {schedule : List Action}
    (h : Reaches (Execution.next setting) (.fresh n) schedule s) : Agrees setting n s := by
  refine h.invariant (P := fun _ s => Agrees setting n s) (agrees_fresh hn) ?_
  intro before action mid s' hmid hnext
  exact agrees_next hids hmid (execution_next_cases ho hnext)

end Invariant

section Schedules

variable {setting : Setting} {n : SliceLen} {s s' : Execution} {schedule : List Action}

/-- The phase of a node run, by what the schedule has done with it. -/
def PhaseIn (schedule : List Action) (index : ℕ) : Phase → Prop
  | .waiting => .start index ∉ schedule ∧ ∀ result, .finish index result ∉ schedule
  | .started => .start index ∈ schedule ∧ ∀ result, .finish index result ∉ schedule
  | .ended result => .start index ∈ schedule ∧
    ∀ result', .finish index result' ∈ schedule ↔ result' = result

lemma PhaseIn.append {index : ℕ} {phase : Phase} (h : PhaseIn schedule index phase)
    {action : Action} (hstart : action ≠ .start index)
    (hfinish : ∀ result, action ≠ .finish index result) :
    PhaseIn (schedule ++ [action]) index phase := by
  have hs : Action.start index ∈ schedule ++ [action] ↔ .start index ∈ schedule := by
    simp [hstart.symm]
  have hf (result : Except PureflowError Unit) :
      Action.finish index result ∈ schedule ++ [action] ↔ .finish index result ∈ schedule := by
    simp [(hfinish result).symm]
  cases phase with
  | waiting => simpa only [PhaseIn, hs, hf] using h
  | started => simpa only [PhaseIn, hs, hf] using h
  | ended result => simpa only [PhaseIn, hs, hf] using h

/-- The phases are those of the schedule. -/
def Scheduled (schedule : List Action) (s : Execution) : Prop :=
  ∀ (index : ℕ) (phase : Phase), s.phases[index]? = some phase → PhaseIn schedule index phase

lemma Scheduled.set {index : ℕ} {old new : Phase} {action : Action} (h : Scheduled schedule s)
    (hold : s.phases[index]? = some old)
    (hnew : PhaseIn (schedule ++ [action]) index new)
    (hother : ∀ i, i ≠ index → action ≠ .start i ∧ ∀ result, action ≠ .finish i result) :
    ∀ (i : ℕ) (phase : Phase), (s.phases.set index new)[i]? = some phase →
      PhaseIn (schedule ++ [action]) i phase := by
  intro i phase hphase
  rcases eq_or_ne index i with rfl | hne
  · have hlt : index < s.phases.length := (List.getElem?_eq_some_iff.mp hold).1
    rw [List.getElem?_set_self hlt] at hphase
    cases hphase
    exact hnew
  · rw [List.getElem?_set_ne hne] at hphase
    obtain ⟨hstart, hfinish⟩ := hother i hne.symm
    exact (h i phase hphase).append hstart hfinish

lemma scheduled_next {action : Action} (h : Scheduled schedule s)
    (hnext : Execution.Next setting s action s') : Scheduled (schedule ++ [action]) s' := by
  cases hnext with
  | @started index ctx hctx hphase =>
    obtain ⟨-, hfinish⟩ := h index _ hphase
    refine h.set hphase ⟨by simp, fun result => by simp [hfinish result]⟩ fun i hi => ?_
    exact ⟨by simpa using hi.symm, by simp⟩
  | @finished index ctx result loop more hctx hphase hloop hmore =>
    obtain ⟨hstart, hfinish⟩ := h index _ hphase
    refine h.set hphase ⟨by simp [hstart], fun result' => by simp [hfinish result']⟩ fun i hi => ?_
    exact ⟨by simp, fun result' => by simp [hi.symm]⟩
  | other hstart hfinish harrival hloop hmore =>
    exact fun index phase hphase => (h index phase hphase).append (hstart index) (hfinish index)

lemma scheduled_of_reaches (ho : Accept setting.observers)
    (h : Reaches (Execution.next setting) (.fresh n) schedule s) : Scheduled schedule s := by
  refine h.invariant (P := Scheduled) (fun index phase hphase => ?_) ?_
  · have hwaiting : phase = .waiting := List.eq_of_mem_replicate (List.mem_of_getElem? hphase)
    rw [hwaiting]
    exact ⟨by simp, by simp⟩
  · intro before action mid s' hmid hnext
    exact scheduled_next hmid (execution_next_cases ho hnext)

end Schedules

section Results

/-- What the stream of an execution, its hook and its summary say of each other. -/
structure LifecycleAgrees (setting : Setting) (schedule : List Action) (s : Execution) : Prop where
  /-- A node that was not polled has no record. Any other has `NodeStarted` and, exactly if its
  executor returned, one record of how it ended. -/
  perNode : ∀ (index : ℕ) (ctx : NodeContext), setting.nodes[index]? = some ctx →
    ∃ phase, PhaseIn schedule index phase ∧
      lifecycleOf ctx.nodeId s.journal.records = phase.kinds
  hook : s.journal.events = lifecycleEvents s.journal.records
  completed : countKind .nodeCompleted s.journal.records = s.loop.summary.completedNodeCount
  failed : countKind .nodeFailed s.journal.records = s.loop.summary.failedNodeCount
  cancelled : countKind .nodeCancelled s.journal.records = s.loop.summary.cancelledNodeCount
  failures : s.journal.records.countP isNodeFailed =
    s.loop.summary.failedNodeCount + s.loop.summary.cancelledNodeCount
  /-- Once the loop has returned and the watchdog has not fired, every node has a result. -/
  drained : s.loop.returned = some (.ok ()) → s.loop.summary.deadlockDiagnostic = none →
    ∀ index < setting.nodes.length, ∃ result, .finish index result ∈ schedule

/-- **Lifecycle stream and run summary agree**, whatever the executors return, in whatever order
the node runs are polled and wherever the watchdog fires. -/
theorem lifecycle_agrees (workflow : WorkflowDefinition) (execution : ExecutionMetadata)
    (policy : WorkflowRunPolicy) (observers : Observers) (n : SliceLen) (schedule : List Action)
    (s : Execution) (hn : workflow.nodes.length = n) (ho : Accept observers)
    (h : Reaches (Execution.next (.of workflow execution policy observers)) (.fresh n)
      schedule s) :
    LifecycleAgrees (.of workflow execution policy observers) schedule s := by
  have hids : ((Setting.of workflow execution policy observers).nodes.map
      NodeContext.nodeId).Nodup := by
    have hnd := (graph_valid workflow).1
    rw [Setting.of, List.map_map]
    exact hnd
  have hlen : (Setting.of workflow execution policy observers).nodes.length = n := by
    simp only [Setting.of, List.length_map, hn]
  have hagrees := agrees_of_reaches hids hlen ho h
  have hscheduled := scheduled_of_reaches ho h
  have hphase (index : ℕ) (hindex : index < (Setting.of workflow execution policy
      observers).nodes.length) : ∃ phase, s.phases[index]? = some phase := by
    rw [← hagrees.length] at hindex
    exact ⟨_, List.getElem?_eq_getElem hindex⟩
  refine ⟨fun index ctx hctx => ?_, hagrees.events, hagrees.counts _ (by simp [terminalKinds]),
    hagrees.counts _ (by simp [terminalKinds]), hagrees.counts _ (by simp [terminalKinds]),
    hagrees.failures, fun hreturned hquiet index hindex => ?_⟩
  · obtain ⟨phase, hphase⟩ := hphase index (List.getElem?_eq_some_iff.mp hctx).1
    exact ⟨phase, hscheduled index phase hphase, hagrees.lifecycle index ctx phase hctx hphase⟩
  · obtain ⟨events, hacc⟩ := hagrees.accounted
    have hopen := hagrees.running
    rw [hacc.drained hreturned hquiet, List.countP_eq_zero] at hopen
    obtain ⟨phase, hphase⟩ := hphase index hindex
    have hended := hopen phase (List.mem_of_getElem? hphase)
    cases phase with
    | waiting => exact absurd rfl hended
    | started => exact absurd rfl hended
    | ended result =>
      exact ⟨result, ((hscheduled index _ hphase).2 result).mpr rfl⟩

/-- Observers that accept everything. -/
def sampleObservers : Observers := ⟨fun _ => .ok (), fun _ => .ok ()⟩

/-- Both nodes are polled, `b` ends before `a`, and `a` fails. -/
def sampleSchedule : List Action :=
  [.start 0, .start 1, .finish 1 (.ok ()), .finish 0 (.error (.execution "a broke")), .exhausted]

theorem lifecycle_agrees_sample : Accept sampleObservers ∧ ∃ s,
    Reaches (Execution.next (.of sampleContext.workflow sampleContext.execution
      sampleContext.policy sampleObservers)) (.fresh 2) sampleSchedule s ∧
    LifecycleAgrees (.of sampleContext.workflow sampleContext.execution sampleContext.policy
      sampleObservers) sampleSchedule s := by
  have ho : Accept sampleObservers := ⟨fun _ => rfl, fun _ => rfl⟩
  exact ⟨ho, _, rfl, lifecycle_agrees _ _ _ sampleObservers 2 sampleSchedule _ rfl ho rfl⟩

/-- **Not every node has a record when a run ends**: the watchdog's thread could not be started,
and no node was polled. -/
theorem unpolled_node_has_no_record : ¬ ∀ (workflow : WorkflowDefinition)
    (execution : ExecutionMetadata) (policy : WorkflowRunPolicy) (observers : Observers)
    (n : SliceLen) (schedule : List Action) (s : Execution),
    workflow.nodes.length = n → Accept observers →
    Reaches (Execution.next (.of workflow execution policy observers)) (.fresh n) schedule s →
    s.loop.returned.isSome → ∀ node ∈ workflow.nodes,
      (lifecycleOf node.id s.journal.records).head? = some .nodeStarted := by
  intro hall
  have hhead := hall sampleContext.workflow sampleContext.execution sampleContext.policy
    sampleObservers 2 [.noWatchdog "out of threads"] _ rfl ⟨fun _ => rfl, fun _ => rfl⟩ rfl rfl
    ⟨⟨"a", by decide⟩, [], [], by decide⟩ (List.mem_cons_self ..)
  cases hhead

end Results

end Pureflow.Engine
