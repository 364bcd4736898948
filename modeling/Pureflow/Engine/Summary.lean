import Pureflow.Core.Metadata
import Pureflow.Workflow.Graph

/-!
The policies a workflow is run under, the summary of a run and the diagnostic of its watchdog.

Counters are machine words whose additions saturate.
-/

namespace Pureflow.Engine

open Pureflow.Types Pureflow.Core Pureflow.Workflow

/-- A span of time, as whole seconds and nanoseconds. -/
structure Duration where
  secs : UInt64
  nanos : Fin 1000000000
  deriving DecidableEq

namespace Duration

def asMillis (d : Duration) : ℕ := d.secs.toNat * 1000 + d.nanos / 1000000

/-- The digits of a fraction down to its last one that is not zero. -/
def fraction : ℕ → ℕ → ℕ → String
  | 0, _, _ => ""
  | fuel + 1, rest, divisor =>
    if rest = 0 then ""
    else toString (rest / divisor) ++ fraction fuel (rest % divisor) (divisor / 10)

def decimal (whole rest divisor : ℕ) (unit : String) : String :=
  if rest = 0 then s!"{whole}{unit}" else s!"{whole}.{fraction 9 rest divisor}{unit}"

/-- The text that `{:?}` prints. -/
def debug (d : Duration) : String :=
  if 0 < d.secs then decimal d.secs.toNat d.nanos 100000000 "s"
  else if 1000000 ≤ d.nanos.val then
    decimal (d.nanos / 1000000) (d.nanos % 1000000) 100000 "ms"
  else if 1000 ≤ d.nanos.val then decimal (d.nanos / 1000) (d.nanos % 1000) 100 "µs"
  else decimal d.nanos 0 1 "ns"

end Duration

inductive FeedbackLoopStartup
  | startAllNodes
  deriving DecidableEq

inductive FeedbackLoopTermination
  | allNodesComplete
  deriving DecidableEq

structure FeedbackLoopRunPolicy where
  startup : FeedbackLoopStartup
  termination : FeedbackLoopTermination
  deriving DecidableEq

inductive CycleRunPolicy
  | reject
  | allowFeedbackLoops (policy : FeedbackLoopRunPolicy)
  deriving DecidableEq

def CycleRunPolicy.debug : CycleRunPolicy → String
  | .reject => "Reject"
  | .allowFeedbackLoops ⟨.startAllNodes, .allNodesComplete⟩ =>
    "AllowFeedbackLoops(FeedbackLoopRunPolicy \x7b startup: StartAllNodes, " ++
      "termination: AllNodesComplete \x7d)"

structure DeadlockWatchdogPolicy where
  noProgressTimeout : Duration
  deriving DecidableEq

inductive WorkflowWatchdogPolicy
  | disabled
  | deadlock (watchdog : DeadlockWatchdogPolicy)
  deriving DecidableEq

/-- Runtime policy for executing one workflow graph. -/
structure WorkflowRunPolicy where
  cyclePolicy : CycleRunPolicy
  watchdogPolicy : WorkflowWatchdogPolicy
  deriving DecidableEq

inductive WorkflowTerminalState
  | completed | failed | cancelled
  deriving DecidableEq

/-- Diagnostic state reported when the watchdog detects no progress. -/
structure WorkflowDeadlockDiagnostic where
  workflowId : WorkflowId
  scheduledNodeCount : ℕ
  pendingNodeCount : ℕ
  completedNodeCount : ℕ
  failedNodeCount : ℕ
  cancelledNodeCount : ℕ
  boundedEdgeCount : ℕ
  noProgressTimeout : Duration
  cyclePolicy : CycleRunPolicy
  deriving DecidableEq

/-- Aggregate outcome for one workflow run. -/
structure WorkflowRunSummary where
  terminalState : WorkflowTerminalState
  scheduledNodeCount : ℕ
  completedNodeCount : ℕ
  failedNodeCount : ℕ
  cancelledNodeCount : ℕ
  observedMessageCount : ℕ
  errorCount : ℕ
  firstError : Option PureflowError
  deadlockDiagnostic : Option WorkflowDeadlockDiagnostic
  deriving DecidableEq

/-- The largest machine word. -/
def usizeMax : ℕ := 2 ^ 64 - 1

def saturatingAdd (a b : ℕ) : ℕ := min (a + b) usizeMax

lemma saturatingAdd_eq {a b : ℕ} (h : a + b ≤ usizeMax) : saturatingAdd a b = a + b :=
  min_eq_left h

/-- The length of a slice: no allocation is larger than half of the words can count. -/
abbrev SliceLen := Fin (2 ^ 63)

namespace WorkflowRunSummary

def new (scheduledNodeCount : ℕ) : WorkflowRunSummary :=
  ⟨.completed, scheduledNodeCount, 0, 0, 0, 0, 0, none, none⟩

def pendingNodeCount (s : WorkflowRunSummary) : ℕ :=
  s.scheduledNodeCount -
    saturatingAdd (saturatingAdd s.completedNodeCount s.failedNodeCount) s.cancelledNodeCount

def recordSuccess (s : WorkflowRunSummary) : WorkflowRunSummary :=
  { s with completedNodeCount := saturatingAdd s.completedNodeCount 1 }

/-- The state an error ends a run in when it is the first one. -/
def stateOf : PureflowError → WorkflowTerminalState
  | .cancellation _ => .cancelled
  | _ => .failed

/-- Keep the first error and the state it ends the run in. -/
def noteFirstError (s : WorkflowRunSummary) (err : PureflowError) : WorkflowRunSummary :=
  match s.firstError with
  | some _ => s
  | none => { s with terminalState := stateOf err, firstError := some err }

def recordError (s : WorkflowRunSummary) (err : PureflowError) : WorkflowRunSummary :=
  let s := { s with errorCount := saturatingAdd s.errorCount 1 }
  let s := match err with
    | .cancellation _ => { s with cancelledNodeCount := saturatingAdd s.cancelledNodeCount 1 }
    | _ => { s with failedNodeCount := saturatingAdd s.failedNodeCount 1 }
  s.noteFirstError err

def recordWorkflowError (s : WorkflowRunSummary) (err : PureflowError) : WorkflowRunSummary :=
  let s := { s with errorCount := saturatingAdd s.errorCount 1 }
  s.noteFirstError err

def recordDeadlockDiagnostic (s : WorkflowRunSummary) (diagnostic : WorkflowDeadlockDiagnostic) :
    WorkflowRunSummary :=
  { s with deadlockDiagnostic := some diagnostic }

end WorkflowRunSummary

def durationMillisU64 (duration : Duration) : UInt64 :=
  if duration.asMillis < UInt64.size then .ofNat duration.asMillis else .ofNat (UInt64.size - 1)

def cycleRunPolicyLabel : CycleRunPolicy → String
  | .reject => "reject"
  | .allowFeedbackLoops _ => "allow_feedback_loops"

def feedbackLoopStartupLabel : FeedbackLoopStartup → String
  | .startAllNodes => "start_all_nodes"

def feedbackLoopTerminationLabel : FeedbackLoopTermination → String
  | .allNodesComplete => "all_nodes_complete"

namespace WorkflowDeadlockDiagnostic

def fromRun (workflow : WorkflowDefinition) (summary : WorkflowRunSummary)
    (policy : WorkflowRunPolicy) (watchdog : DeadlockWatchdogPolicy) :
    WorkflowDeadlockDiagnostic where
  workflowId := workflow.id
  scheduledNodeCount := summary.scheduledNodeCount
  pendingNodeCount := summary.pendingNodeCount
  completedNodeCount := summary.completedNodeCount
  failedNodeCount := summary.failedNodeCount
  cancelledNodeCount := summary.cancelledNodeCount
  boundedEdgeCount := workflow.edges.length
  noProgressTimeout := watchdog.noProgressTimeout
  cyclePolicy := policy.cyclePolicy

def toMetadataDiagnostic (d : WorkflowDeadlockDiagnostic) : ErrorDiagnosticMetadata :=
  let metadata := (DeadlockDiagnosticMetadata.new d.scheduledNodeCount d.pendingNodeCount
    d.boundedEdgeCount (durationMillisU64 d.noProgressTimeout)
    (cycleRunPolicyLabel d.cyclePolicy)).withTerminalCounts
      d.completedNodeCount d.failedNodeCount d.cancelledNodeCount
  match d.cyclePolicy with
  | .reject => .workflowDeadlock metadata
  | .allowFeedbackLoops feedbackLoop =>
    .workflowDeadlock (metadata.withFeedbackLoop (feedbackLoopStartupLabel feedbackLoop.startup)
      (feedbackLoopTerminationLabel feedbackLoop.termination))

instance : ToString WorkflowDeadlockDiagnostic where
  toString d :=
    s!"workflow `{d.workflowId}` watchdog detected no workflow progress for " ++
      s!"{d.noProgressTimeout.debug}: scheduled_nodes={d.scheduledNodeCount}, " ++
      s!"pending_nodes={d.pendingNodeCount}, completed_nodes={d.completedNodeCount}, " ++
      s!"failed_nodes={d.failedNodeCount}, cancelled_nodes={d.cancelledNodeCount}, " ++
      s!"bounded_edges={d.boundedEdgeCount}, cycle_policy={d.cyclePolicy.debug}"

end WorkflowDeadlockDiagnostic

end Pureflow.Engine
