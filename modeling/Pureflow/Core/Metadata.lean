import Pureflow.Core.Error
import Pureflow.Core.Message

/-!
The metadata records a sink is handed.
-/

namespace Pureflow.Core

open Pureflow.Types Pureflow.Lib

inductive LifecycleEventKind
  | nodeScheduled | nodeStarted | nodeCompleted | nodeFailed | nodeCancelled
  deriving DecidableEq

structure LifecycleEvent where
  kind : LifecycleEventKind
  context : NodeContext
  deriving DecidableEq

inductive MessageBoundaryKind
  | enqueued | dequeued | dropped
  deriving DecidableEq

structure MessageBoundaryRecord where
  kind : MessageBoundaryKind
  metadata : MessageMetadata
  deriving DecidableEq

inductive QueuePortDirection
  | input | output
  deriving DecidableEq

inductive QueuePressureBoundaryKind
  | receiveAttempted | receiveReady | receiveEmpty | receiveClosed
  | reserveAttempted | reserveReady | reserveFull | sendCommitted | sendDropped
  deriving DecidableEq

structure QueuePressureRecord where
  context : Option NodeContext
  direction : QueuePortDirection
  portId : PortId
  kind : QueuePressureBoundaryKind
  connectedEdgeCount : ℕ
  capacity : Option ℕ
  queuedCount : Option ℕ
  deriving DecidableEq

structure DeadlockDiagnosticMetadata where
  scheduledNodeCount : ℕ
  pendingNodeCount : ℕ
  completedNodeCount : ℕ
  failedNodeCount : ℕ
  cancelledNodeCount : ℕ
  boundedEdgeCount : ℕ
  noProgressTimeoutMs : UInt64
  cyclePolicy : String
  feedbackLoopStartup : Option String
  feedbackLoopTermination : Option String
  deriving DecidableEq

namespace DeadlockDiagnosticMetadata

def new (scheduledNodeCount pendingNodeCount boundedEdgeCount : ℕ) (noProgressTimeoutMs : UInt64)
    (cyclePolicy : String) : DeadlockDiagnosticMetadata :=
  ⟨scheduledNodeCount, pendingNodeCount, 0, 0, 0, boundedEdgeCount, noProgressTimeoutMs,
    cyclePolicy, none, none⟩

def withTerminalCounts (d : DeadlockDiagnosticMetadata) (completed failed cancelled : ℕ) :
    DeadlockDiagnosticMetadata :=
  { d with completedNodeCount := completed, failedNodeCount := failed,
           cancelledNodeCount := cancelled }

def withFeedbackLoop (d : DeadlockDiagnosticMetadata) (startup termination : String) :
    DeadlockDiagnosticMetadata :=
  { d with feedbackLoopStartup := some startup, feedbackLoopTermination := some termination }

end DeadlockDiagnosticMetadata

inductive ErrorDiagnosticMetadata
  | workflowDeadlock (diagnostic : DeadlockDiagnosticMetadata)
  deriving DecidableEq

inductive ErrorMetadataKind
  | nodeFailed | workflowFailed
  deriving DecidableEq

structure ErrorMetadataRecord where
  kind : ErrorMetadataKind
  workflowId : WorkflowId
  nodeId : Option NodeId
  execution : ExecutionMetadata
  error : PureflowError
  diagnostic : Option ErrorDiagnosticMetadata
  deriving DecidableEq

namespace ErrorMetadataRecord

def nodeFailed (context : NodeContext) (error : PureflowError) : ErrorMetadataRecord :=
  ⟨.nodeFailed, context.workflowId, some context.nodeId, context.execution, error, none⟩

def workflowFailed (workflowId : WorkflowId) (execution : ExecutionMetadata)
    (error : PureflowError) : ErrorMetadataRecord :=
  ⟨.workflowFailed, workflowId, none, execution, error, none⟩

def workflowFailedWithDiagnostic (workflowId : WorkflowId) (execution : ExecutionMetadata)
    (error : PureflowError) (diagnostic : ErrorDiagnosticMetadata) : ErrorMetadataRecord :=
  ⟨.workflowFailed, workflowId, none, execution, error, some diagnostic⟩

end ErrorMetadataRecord

inductive ExternalEffectMetadataKind
  | requested | completed | failed
  deriving DecidableEq

structure ExternalEffectMetadataRecord where
  kind : ExternalEffectMetadataKind
  context : NodeContext
  effect : EffectCapability
  operation : String
  target : String
  responseStatus : Option String
  deriving DecidableEq

inductive RuleEvalStrategy
  | firstMatch | allMatches | score
  deriving DecidableEq

/-- Action recorded in a rule evaluation audit record. -/
inductive RuleEvalAction
  | route (port : PortId)
  | drop
  | deadLetter (reason : String)
  | tag (key value : String)
  | halt (message : String)
  | default
  deriving DecidableEq

inductive ConditionSurfaceRecord
  | payload | tag | provenance | executionContext | combinator | constant
  deriving DecidableEq

structure ConditionTrace where
  ruleId : String
  conditionDescription : String
  matched : Bool
  surface : ConditionSurfaceRecord
  deriving DecidableEq

structure RuleEvalRecord where
  nodeId : NodeId
  workflowId : WorkflowId
  execution : ExecutionMetadata
  ruleSetId : String
  strategy : RuleEvalStrategy
  matchedRule : Option String
  actionTaken : RuleEvalAction
  rulesEvaluated : UInt32
  tagsApplied : List (String × Json.Value)
  sourceNode : Option NodeId
  arrivalPort : Option PortId
  hopCount : UInt32
  tagsPresentAtEval : List (String × Json.Value)
  conditionsEvaluated : List ConditionTrace

inductive MetadataRecord
  | executionContext (context : NodeContext)
  | lifecycle (event : LifecycleEvent)
  | message (record : MessageBoundaryRecord)
  | queuePressure (record : QueuePressureRecord)
  | error (record : ErrorMetadataRecord)
  | externalEffect (record : ExternalEffectMetadataRecord)
  | ruleEval (record : RuleEvalRecord)

end Pureflow.Core
