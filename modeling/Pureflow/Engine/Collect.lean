import Pureflow.Engine.Summary
import Pureflow.Lib.Result
import Pureflow.Lib.Runs

/-!
The collecting loop of a workflow run: node results are observed one after the other, in the
order they arrive, until none is left or the watchdog fires.

The loop is a run over the events it waits for. A round of it hands the sink at most one record,
so an event says what the sink answers to it. The loop alone requests cancellation.
-/

namespace Pureflow.Engine

open Pureflow.Types Pureflow.Core Pureflow.Lib Pureflow.Workflow

structure WorkflowCollectionContext where
  workflow : WorkflowDefinition
  execution : ExecutionMetadata
  policy : WorkflowRunPolicy

/-- What the loop changes: the summary, the token the nodes share, and the records it hands to
the sink. -/
structure Collection where
  summary : WorkflowRunSummary
  token : CancellationToken
  records : List MetadataRecord

/-- A failure keeps what was done before it. -/
abbrev Collecting := ExceptT PureflowError (StateM Collection)

namespace Collecting

def summary : Collecting WorkflowRunSummary := fun c => (.ok c.summary, c)

def update (f : WorkflowRunSummary → WorkflowRunSummary) : Collecting Unit := fun c =>
  (.ok (), { c with summary := f c.summary })

def record (sink : Except PureflowError Unit) (r : MetadataRecord) : Collecting Unit := fun c =>
  (sink, { c with records := c.records ++ [r] })

def cancel (request : CancellationRequest) : Collecting Unit := fun c =>
  (.ok (), { c with token := (c.token.requestCancellation request).2 })

end Collecting

/-- The request that an error makes. -/
def requestFor (err : PureflowError) : CancellationRequest := ⟨s!"node execution failed: {err}"⟩

section Rounds

variable (context : WorkflowCollectionContext) (sink : Except PureflowError Unit)

def recordFirstWorkflowError (err : PureflowError) : Collecting Unit := do
  Collecting.record sink
    (.error (.workflowFailed context.workflow.id context.execution err))
  Collecting.cancel (requestFor err)

def recordFirstWorkflowErrorWithDiagnostic (err : PureflowError)
    (diagnostic : WorkflowDeadlockDiagnostic) : Collecting Unit := do
  Collecting.record sink
    (.error (.workflowFailedWithDiagnostic context.workflow.id context.execution err
      diagnostic.toMetadataDiagnostic))
  Collecting.cancel (requestFor err)

def recordNodeRunResult : Except PureflowError Unit → Collecting Unit
  | .ok () => Collecting.update (·.recordSuccess)
  | .error err => do
    if (← Collecting.summary).firstError.isNone then
      recordFirstWorkflowError context sink err
    Collecting.update (·.recordError err)

def watchdogError (err : String) : PureflowError :=
  .execution s!"failed to start workflow deadlock watchdog: {err}"

/-- What a round of the loop waits for: the next node result, the end of the node runs, the
deadline of the watchdog, or the failure to start the watchdog's thread. -/
inductive Arrival
  | result (nodeId : NodeId) (result : Except PureflowError Unit)
  | exhausted
  | deadline
  | noWatchdog (err : String)

/-- An arrival, and what the sink answers to the record of its round. -/
structure Event where
  arrival : Arrival
  sink : Except PureflowError Unit

/-- One round of `collect_workflow_summary_until_complete`; it tells whether the loop goes on. -/
def collectUntilComplete : Arrival → Option (Collecting Bool)
  | .result _ result => some do
    recordNodeRunResult context sink result
    return true
  | .exhausted => some (return false)
  | .deadline => none
  | .noWatchdog _ => none

/-- One round of `collect_workflow_summary_with_deadlock_watchdog`. -/
def collectWithDeadlockWatchdog (watchdog : DeadlockWatchdogPolicy) :
    Arrival → Option (Collecting Bool)
  | .result _ result => some do
    recordNodeRunResult context sink result
    return true
  | .exhausted => some (return false)
  | .deadline => some do
    let diagnostic : WorkflowDeadlockDiagnostic :=
      .fromRun context.workflow (← Collecting.summary) context.policy watchdog
    let err := PureflowError.execution (toString diagnostic)
    recordFirstWorkflowErrorWithDiagnostic context sink err diagnostic
    Collecting.update (·.recordWorkflowError err)
    Collecting.update (·.recordDeadlockDiagnostic diagnostic)
    return false
  | .noWatchdog err => some (throw (watchdogError err))

end Rounds

/-- The loop while it runs and after: the node runs left, and what was returned. -/
structure Run where
  running : ℕ
  collection : Collection
  returned : Option (Except PureflowError Unit)

namespace Run

def start (scheduledNodeCount : SliceLen) : Run where
  running := scheduledNodeCount
  collection := ⟨.new scheduledNodeCount, .active, []⟩
  returned := none

def summary (run : Run) : WorkflowRunSummary := run.collection.summary

def token (run : Run) : CancellationToken := run.collection.token

def records (run : Run) : List MetadataRecord := run.collection.records

/-- What `collect_workflow_summary` returns, once it does. -/
def result (run : Run) : Option (Except PureflowError WorkflowRunSummary) :=
  run.returned.map fun r => r.map fun _ => run.summary

/-- An arrival that is possible with so many node runs left: the runs end when there is none. -/
def possible (running : ℕ) : Arrival → Bool
  | .exhausted => running == 0
  | _ => 0 < running

/-- The node runs left after an arrival. -/
def after (running : ℕ) : Arrival → ℕ
  | .result _ _ => running - 1
  | _ => running

/-- Where a round leaves the loop: it goes on, or has returned. -/
def settle (running : ℕ) : Except PureflowError Bool × Collection → Run
  | (.ok true, collection) => ⟨running, collection, none⟩
  | (.ok false, collection) => ⟨running, collection, some (.ok ())⟩
  | (.error err, collection) => ⟨running, collection, some (.error err)⟩

def rounds (context : WorkflowCollectionContext) (ev : Event) : Option (Collecting Bool) :=
  match context.policy.watchdogPolicy with
  | .disabled => collectUntilComplete context ev.sink ev.arrival
  | .deadlock watchdog => collectWithDeadlockWatchdog context ev.sink watchdog ev.arrival

/-- One event. There is none after the return, and none that cannot arrive. -/
def next (context : WorkflowCollectionContext) (run : Run) (ev : Event) : Option Run :=
  if run.returned.isSome || !possible run.running ev.arrival then none
  else (rounds context ev).map fun round =>
    settle (after run.running ev.arrival) (round run.collection)

end Run

section Inversion

variable (context : WorkflowCollectionContext)

/-- The record of a node error that fails the run. -/
def failureRecord (err : PureflowError) : MetadataRecord :=
  .error (.workflowFailed context.workflow.id context.execution err)

/-- The error of a watchdog that fires. -/
def deadlockError (watchdog : DeadlockWatchdogPolicy) (summary : WorkflowRunSummary) :
    PureflowError :=
  .execution (toString
    (WorkflowDeadlockDiagnostic.fromRun context.workflow summary context.policy watchdog))

def deadlockRecord (watchdog : DeadlockWatchdogPolicy) (summary : WorkflowRunSummary) :
    MetadataRecord :=
  .error (.workflowFailedWithDiagnostic context.workflow.id context.execution
    (deadlockError context watchdog summary)
    (WorkflowDeadlockDiagnostic.fromRun context.workflow summary context.policy
      watchdog).toMetadataDiagnostic)

namespace Collection

/-- The collection after a record was handed to the sink. -/
def tell (c : Collection) (r : MetadataRecord) : Collection := { c with records := c.records ++ [r] }

/-- The collection after an error, with the record of it that was accepted. -/
def observe (c : Collection) (r : MetadataRecord) (err : PureflowError)
    (summary : WorkflowRunSummary) : Collection where
  summary := summary
  token := (c.token.requestCancellation (requestFor err)).2
  records := c.records ++ [r]

/-- The summary after the watchdog has fired. -/
def deadlocked (c : Collection) (watchdog : DeadlockWatchdogPolicy) : WorkflowRunSummary :=
  (c.summary.recordWorkflowError (deadlockError context watchdog c.summary)).recordDeadlockDiagnostic
    (.fromRun context.workflow c.summary context.policy watchdog)

end Collection

/-- All that one event can do. -/
inductive Next : Run → Event → Run → Prop
  | success {k : ℕ} {c : Collection} {nodeId : NodeId} {sink : Except PureflowError Unit} :
    Next ⟨k + 1, c, none⟩ ⟨.result nodeId (.ok ()), sink⟩
      ⟨k, { c with summary := c.summary.recordSuccess }, none⟩
  | firstError {k : ℕ} {c : Collection} {nodeId : NodeId} {err : PureflowError} :
    c.summary.firstError = none →
    Next ⟨k + 1, c, none⟩ ⟨.result nodeId (.error err), .ok ()⟩
      ⟨k, c.observe (failureRecord context err) err (c.summary.recordError err), none⟩
  | firstErrorRefused {k : ℕ} {c : Collection} {nodeId : NodeId} {err refusal : PureflowError} :
    c.summary.firstError = none →
    Next ⟨k + 1, c, none⟩ ⟨.result nodeId (.error err), .error refusal⟩
      ⟨k, c.tell (failureRecord context err), some (.error refusal)⟩
  | laterError {k : ℕ} {c : Collection} {nodeId : NodeId} {err : PureflowError}
      {sink : Except PureflowError Unit} {first : PureflowError} :
    c.summary.firstError = some first →
    Next ⟨k + 1, c, none⟩ ⟨.result nodeId (.error err), sink⟩
      ⟨k, { c with summary := c.summary.recordError err }, none⟩
  | exhausted {c : Collection} {sink : Except PureflowError Unit} :
    Next ⟨0, c, none⟩ ⟨.exhausted, sink⟩ ⟨0, c, some (.ok ())⟩
  | deadline {k : ℕ} {c : Collection} {watchdog : DeadlockWatchdogPolicy} :
    context.policy.watchdogPolicy = .deadlock watchdog →
    Next ⟨k + 1, c, none⟩ ⟨.deadline, .ok ()⟩
      ⟨k + 1, c.observe (deadlockRecord context watchdog c.summary)
        (deadlockError context watchdog c.summary) (c.deadlocked context watchdog), some (.ok ())⟩
  | deadlineRefused {k : ℕ} {c : Collection} {watchdog : DeadlockWatchdogPolicy}
      {refusal : PureflowError} :
    context.policy.watchdogPolicy = .deadlock watchdog →
    Next ⟨k + 1, c, none⟩ ⟨.deadline, .error refusal⟩
      ⟨k + 1, c.tell (deadlockRecord context watchdog c.summary), some (.error refusal)⟩
  | noWatchdog {k : ℕ} {c : Collection} {err : String} {sink : Except PureflowError Unit} :
    Next ⟨k + 1, c, none⟩ ⟨.noWatchdog err, sink⟩ ⟨k + 1, c, some (.error (watchdogError err))⟩

variable {context}

section Results

variable {c : Collection} {err : PureflowError}

lemma recordNodeRunResult_accepted (h : c.summary.firstError = none) :
    recordNodeRunResult context (.ok ()) (.error err) c =
      (.ok (), c.observe (failureRecord context err) err (c.summary.recordError err)) := by
  rw [recordNodeRunResult, Result.run_bind_ok (rfl : Collecting.summary c = (.ok c.summary, c)), h]
  rfl

lemma recordNodeRunResult_refused (h : c.summary.firstError = none) (refusal : PureflowError) :
    recordNodeRunResult context (.error refusal) (.error err) c =
      (.error refusal, c.tell (failureRecord context err)) := by
  rw [recordNodeRunResult, Result.run_bind_ok (rfl : Collecting.summary c = (.ok c.summary, c)), h]
  rfl

lemma recordNodeRunResult_later {first : PureflowError} (h : c.summary.firstError = some first)
    (sink : Except PureflowError Unit) :
    recordNodeRunResult context sink (.error err) c =
      (.ok (), { c with summary := c.summary.recordError err }) := by
  rw [recordNodeRunResult, Result.run_bind_ok (rfl : Collecting.summary c = (.ok c.summary, c)), h]
  rfl

end Results

lemma next_result (k : ℕ) (c : Collection) (nodeId : NodeId)
    (result sink : Except PureflowError Unit) :
    Next context ⟨k + 1, c, none⟩ ⟨.result nodeId result, sink⟩
      (Run.settle k ((do recordNodeRunResult context sink result; return true) c)) := by
  rcases result with err | ⟨⟩
  · cases hfirst : c.summary.firstError with
    | none =>
      rcases sink with refusal | ⟨⟩
      · rw [Result.run_bind_error (recordNodeRunResult_refused hfirst refusal)]
        exact .firstErrorRefused hfirst
      · rw [Result.run_bind_ok (recordNodeRunResult_accepted hfirst)]
        exact .firstError hfirst
    | some first =>
      rw [Result.run_bind_ok (recordNodeRunResult_later hfirst sink)]
      exact .laterError hfirst
  · exact .success

lemma next_deadline {watchdog : DeadlockWatchdogPolicy}
    (h : context.policy.watchdogPolicy = .deadlock watchdog) (k : ℕ) (c : Collection)
    (sink : Except PureflowError Unit) {round : Collecting Bool}
    (hround : collectWithDeadlockWatchdog context sink watchdog .deadline = some round) :
    Next context ⟨k + 1, c, none⟩ ⟨.deadline, sink⟩ (Run.settle (k + 1) (round c)) := by
  cases hround
  rcases sink with refusal | ⟨⟩
  · exact .deadlineRefused h
  · exact .deadline h

/-- **Inversion** of one event. -/
theorem next_cases {run run' : Run} {ev : Event} (h : run.next context ev = some run') :
    Next context run ev run' := by
  obtain ⟨running, c, returned⟩ := run
  obtain ⟨arrival, sink⟩ := ev
  unfold Run.next at h
  split at h
  · cases h
  next hposs =>
  simp only [Bool.or_eq_true, not_or, Bool.not_eq_true, Option.isSome_eq_false_iff,
    Option.isNone_iff_eq_none, Bool.not_eq_eq_eq_not, Bool.not_true] at hposs
  obtain ⟨rfl, hposs⟩ := hposs
  obtain ⟨round, hround, rfl⟩ := Option.map_eq_some_iff.mp h
  unfold Run.rounds at hround
  cases arrival with
  | result nodeId result =>
    obtain ⟨k, rfl⟩ : ∃ k, running = k + 1 :=
      Nat.exists_eq_succ_of_ne_zero (by simpa [Run.possible] using hposs)
    split at hround
    · cases hround
      exact next_result k c nodeId result sink
    · cases hround
      exact next_result k c nodeId result sink
  | exhausted =>
    obtain rfl : running = 0 := by simpa [Run.possible] using hposs
    split at hround
    · cases hround
      exact .exhausted
    · cases hround
      exact .exhausted
  | deadline =>
    obtain ⟨k, rfl⟩ : ∃ k, running = k + 1 :=
      Nat.exists_eq_succ_of_ne_zero (by simpa [Run.possible] using hposs)
    split at hround
    · cases hround
    · next watchdog hpolicy => exact next_deadline hpolicy k c sink hround
  | noWatchdog err =>
    obtain ⟨k, rfl⟩ : ∃ k, running = k + 1 :=
      Nat.exists_eq_succ_of_ne_zero (by simpa [Run.possible] using hposs)
    split at hround
    · cases hround
    · cases hround
      exact .noWatchdog

end Inversion

end Pureflow.Engine
