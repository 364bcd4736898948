import Pureflow.Core.Metadata
import Pureflow.Core.Texts

/-!
The JSON shape of metadata records, and that it loses nothing.

An object lists its members in key order. The records are told apart again by going down their
shape: a kind by its label, a member by its value, an error by its code and its text.
-/

namespace Pureflow.Core

open Pureflow.Types Pureflow.Lib Pureflow.Lib.Json

section Shapes

/-- A machine word. -/
def usizeValue (n : ℕ) : Value := .number (.posInt (.ofNat n))

/-- An optional value; none is null. -/
def orNull {α : Type} (value : α → Value) (o : Option α) : Value := o.elim .null value

def executionMetadataToJsonValue (execution : ExecutionMetadata) : Value := .object [
  ("attempt", .number (.posInt execution.attempt.value.toUInt64)),
  ("execution_id", .string execution.executionId.asStr)]

def cancellationStateToJsonValue : CancellationState → Value
  | .active => .object [("state", .string "active")]
  | .requested request => .object [
    ("reason", .string request.reason), ("state", .string "requested")]

def nodeContextToJsonValue (context : NodeContext) : Value := .object [
  ("cancellation", cancellationStateToJsonValue context.cancellation),
  ("execution", executionMetadataToJsonValue context.execution),
  ("node_id", .string context.nodeId.asStr),
  ("workflow_id", .string context.workflowId.asStr)]

def lifecycleEventKindLabel : LifecycleEventKind → String
  | .nodeScheduled => "node_scheduled"
  | .nodeStarted => "node_started"
  | .nodeCompleted => "node_completed"
  | .nodeFailed => "node_failed"
  | .nodeCancelled => "node_cancelled"

def messageBoundaryKindLabel : MessageBoundaryKind → String
  | .enqueued => "enqueued"
  | .dequeued => "dequeued"
  | .dropped => "dropped"

def queuePortDirectionLabel : QueuePortDirection → String
  | .input => "input"
  | .output => "output"

def queuePressureBoundaryKindLabel : QueuePressureBoundaryKind → String
  | .receiveAttempted => "receive_attempted"
  | .receiveReady => "receive_ready"
  | .receiveEmpty => "receive_empty"
  | .receiveClosed => "receive_closed"
  | .reserveAttempted => "reserve_attempted"
  | .reserveReady => "reserve_ready"
  | .reserveFull => "reserve_full"
  | .sendCommitted => "send_committed"
  | .sendDropped => "send_dropped"

def errorMetadataKindLabel : ErrorMetadataKind → String
  | .nodeFailed => "node_failed"
  | .workflowFailed => "workflow_failed"

def externalEffectMetadataKindLabel : ExternalEffectMetadataKind → String
  | .requested => "external_effect_requested"
  | .completed => "external_effect_completed"
  | .failed => "external_effect_failed"

def errorVisibilityLabel : ErrorVisibility → String
  | .user => "user"
  | .internal => "internal"

def retryDispositionLabel : RetryDisposition → String
  | .never => "never"
  | .safe => "safe"
  | .unknown => "unknown"

def ruleEvalStrategyLabel : RuleEvalStrategy → String
  | .firstMatch => "first_match"
  | .allMatches => "all_matches"
  | .score => "score"

def conditionSurfaceRecordLabel : ConditionSurfaceRecord → String
  | .payload => "payload"
  | .tag => "tag"
  | .provenance => "provenance"
  | .executionContext => "execution_context"
  | .combinator => "combinator"
  | .constant => "constant"

def pureflowErrorToJsonValue (error : PureflowError) : Value := .object [
  ("code", .string error.code.asStr),
  ("message", .string (toString error)),
  ("retry_disposition", .string (retryDispositionLabel error.retryDisposition)),
  ("visibility", .string (errorVisibilityLabel error.visibility))]

def errorDiagnosticMetadataToJsonValue : ErrorDiagnosticMetadata → Value
  | .workflowDeadlock deadlock => .object [
    ("bounded_edge_count", usizeValue deadlock.boundedEdgeCount),
    ("cancelled_node_count", usizeValue deadlock.cancelledNodeCount),
    ("completed_node_count", usizeValue deadlock.completedNodeCount),
    ("cycle_policy", .string deadlock.cyclePolicy),
    ("failed_node_count", usizeValue deadlock.failedNodeCount),
    ("feedback_loop_startup", orNull .string deadlock.feedbackLoopStartup),
    ("feedback_loop_termination", orNull .string deadlock.feedbackLoopTermination),
    ("no_progress_timeout_ms", .number (.posInt deadlock.noProgressTimeoutMs)),
    ("pending_node_count", usizeValue deadlock.pendingNodeCount),
    ("scheduled_node_count", usizeValue deadlock.scheduledNodeCount),
    ("type", .string "workflow_deadlock")]

def messageEndpointToJsonValue (endpoint : MessageEndpoint) : Value := .object [
  ("node_id", .string endpoint.nodeId.asStr),
  ("port_id", .string endpoint.portId.asStr)]

def messageRouteToJsonValue (route : MessageRoute) : Value := .object [
  ("source", orNull messageEndpointToJsonValue route.source),
  ("target", messageEndpointToJsonValue route.target)]

def messageMetadataToJsonValue (metadata : MessageMetadata) : Value := .object [
  ("execution", executionMetadataToJsonValue metadata.execution),
  ("message_id", .string metadata.messageId.asStr),
  ("route", messageRouteToJsonValue metadata.route),
  ("workflow_id", .string metadata.workflowId.asStr)]

def ruleEvalActionToJsonValue : RuleEvalAction → Value
  | .route port => .object [("kind", .string "route"), ("port", .string port.asStr)]
  | .drop => .object [("kind", .string "drop")]
  | .deadLetter reason => .object [("kind", .string "dead_letter"), ("reason", .string reason)]
  | .tag key value => .object [
    ("key", .string key), ("kind", .string "tag"), ("value", .string value)]
  | .halt message => .object [("kind", .string "halt"), ("message", .string message)]
  | .default => .object [("kind", .string "default")]

def conditionTraceToJsonValue (trace : ConditionTrace) : Value := .object [
  ("condition", .string trace.conditionDescription),
  ("matched", .bool trace.matched),
  ("rule_id", .string trace.ruleId),
  ("surface", .string (conditionSurfaceRecordLabel trace.surface))]

/-- One tag of a record. -/
def tagToJsonValue (tag : String × Value) : Value := .object [
  ("key", .string tag.1), ("value", tag.2)]

/-- Convert one metadata record into the stable JSON shape used by JSONL sinks. -/
def metadataRecordToJsonValue : MetadataRecord → Value
  | .executionContext context => .object [
    ("context", nodeContextToJsonValue context),
    ("kind", .string "execution_context"),
    ("record_type", .string "execution_context")]
  | .lifecycle event => .object [
    ("context", nodeContextToJsonValue event.context),
    ("kind", .string (lifecycleEventKindLabel event.kind)),
    ("record_type", .string "lifecycle")]
  | .message message => .object [
    ("kind", .string (messageBoundaryKindLabel message.kind)),
    ("message", messageMetadataToJsonValue message.metadata),
    ("record_type", .string "message")]
  | .queuePressure queue => .object [
    ("capacity", orNull usizeValue queue.capacity),
    ("connected_edge_count", usizeValue queue.connectedEdgeCount),
    ("context", orNull nodeContextToJsonValue queue.context),
    ("direction", .string (queuePortDirectionLabel queue.direction)),
    ("kind", .string (queuePressureBoundaryKindLabel queue.kind)),
    ("port_id", .string queue.portId.asStr),
    ("queued_count", orNull usizeValue queue.queuedCount),
    ("record_type", .string "queue_pressure")]
  | .error error => .object [
    ("diagnostic", orNull errorDiagnosticMetadataToJsonValue error.diagnostic),
    ("error", pureflowErrorToJsonValue error.error),
    ("execution", executionMetadataToJsonValue error.execution),
    ("kind", .string (errorMetadataKindLabel error.kind)),
    ("node_id", orNull (fun nodeId : NodeId => .string nodeId.asStr) error.nodeId),
    ("record_type", .string "error"),
    ("workflow_id", .string error.workflowId.asStr)]
  | .externalEffect effect => .object [
    ("context", nodeContextToJsonValue effect.context),
    ("effect", .string effect.effect.asStr),
    ("kind", .string (externalEffectMetadataKindLabel effect.kind)),
    ("operation", .string effect.operation),
    ("record_type", .string "external_effect"),
    ("response_status", orNull .string effect.responseStatus),
    ("target", .string effect.target)]
  | .ruleEval ruleEval => .object [
    ("action_taken", ruleEvalActionToJsonValue ruleEval.actionTaken),
    ("arrival_port", orNull (fun portId : PortId => .string portId.asStr) ruleEval.arrivalPort),
    ("conditions_evaluated", .array (ruleEval.conditionsEvaluated.map conditionTraceToJsonValue)),
    ("execution", executionMetadataToJsonValue ruleEval.execution),
    ("hop_count", .number (.posInt ruleEval.hopCount.toUInt64)),
    ("matched_rule", orNull .string ruleEval.matchedRule),
    ("node_id", .string ruleEval.nodeId.asStr),
    ("record_type", .string "rule_eval"),
    ("rule_set_id", .string ruleEval.ruleSetId),
    ("rules_evaluated", .number (.posInt ruleEval.rulesEvaluated.toUInt64)),
    ("source_node", orNull (fun nodeId : NodeId => .string nodeId.asStr) ruleEval.sourceNode),
    ("strategy", .string (ruleEvalStrategyLabel ruleEval.strategy)),
    ("tags_applied", .array (ruleEval.tagsApplied.map tagToJsonValue)),
    ("tags_present_at_eval", .array (ruleEval.tagsPresentAtEval.map tagToJsonValue)),
    ("workflow_id", .string ruleEval.workflowId.asStr)]

end Shapes

section Parts

@[simp] lemma asStr_inj {kind : IdentifierKind} {i j : Identifier kind} :
    i.asStr = j.asStr ↔ i = j :=
  Identifier.value_inj

lemma orNull_inj {α : Type} {value : α → Value} (hvalue : Function.Injective value)
    (hnull : ∀ a, value a ≠ .null) {o p : Option α} : orNull value o = orNull value p ↔ o = p := by
  refine ⟨fun h => ?_, fun h => h ▸ rfl⟩
  cases o with
  | none =>
    cases p with
    | none => rfl
    | some b => exact absurd h.symm (hnull b)
  | some a =>
    cases p with
    | none => exact absurd h (hnull a)
    | some b => rw [hvalue h]

@[simp] lemma orNull_string_inj {o p : Option String} :
    orNull .string o = orNull .string p ↔ o = p :=
  orNull_inj (fun _ _ => Value.string.inj) fun _ h => by cases h

@[simp] lemma orNull_identifier_inj {kind : IdentifierKind} {o p : Option (Identifier kind)} :
    orNull (fun i : Identifier kind => .string i.asStr) o =
      orNull (fun i : Identifier kind => .string i.asStr) p ↔ o = p :=
  orNull_inj (fun _ _ h => asStr_inj.mp (Value.string.inj h)) fun _ h => by cases h

@[simp] lemma lifecycleEventKindLabel_inj {k l : LifecycleEventKind} :
    lifecycleEventKindLabel k = lifecycleEventKindLabel l ↔ k = l := by
  cases k <;> cases l <;> decide

@[simp] lemma messageBoundaryKindLabel_inj {k l : MessageBoundaryKind} :
    messageBoundaryKindLabel k = messageBoundaryKindLabel l ↔ k = l := by
  cases k <;> cases l <;> decide

@[simp] lemma queuePortDirectionLabel_inj {d e : QueuePortDirection} :
    queuePortDirectionLabel d = queuePortDirectionLabel e ↔ d = e := by
  cases d <;> cases e <;> decide

@[simp] lemma queuePressureBoundaryKindLabel_inj {k l : QueuePressureBoundaryKind} :
    queuePressureBoundaryKindLabel k = queuePressureBoundaryKindLabel l ↔ k = l := by
  cases k <;> cases l <;> decide

@[simp] lemma errorMetadataKindLabel_inj {k l : ErrorMetadataKind} :
    errorMetadataKindLabel k = errorMetadataKindLabel l ↔ k = l := by
  cases k <;> cases l <;> decide

@[simp] lemma externalEffectMetadataKindLabel_inj {k l : ExternalEffectMetadataKind} :
    externalEffectMetadataKindLabel k = externalEffectMetadataKindLabel l ↔ k = l := by
  cases k <;> cases l <;> decide

@[simp] lemma ruleEvalStrategyLabel_inj {s t : RuleEvalStrategy} :
    ruleEvalStrategyLabel s = ruleEvalStrategyLabel t ↔ s = t := by
  cases s <;> cases t <;> decide

@[simp] lemma conditionSurfaceRecordLabel_inj {s t : ConditionSurfaceRecord} :
    conditionSurfaceRecordLabel s = conditionSurfaceRecordLabel t ↔ s = t := by
  cases s <;> cases t <;> decide

@[simp] lemma effect_asStr_inj {e f : EffectCapability} : e.asStr = f.asStr ↔ e = f := by
  cases e <;> cases f <;> decide

lemma code_asStr_inj {c d : ErrorCode} : c.asStr = d.asStr ↔ c = d := by
  cases c <;> cases d <;> decide

@[simp] lemma executionMetadataToJsonValue_inj {a b : ExecutionMetadata} :
    executionMetadataToJsonValue a = executionMetadataToJsonValue b ↔ a = b := by
  refine ⟨fun h => ?_, fun h => h ▸ rfl⟩
  obtain ⟨executionId, attempt, hattempt⟩ := a
  obtain ⟨executionId', attempt', hattempt'⟩ := b
  simpa [executionMetadataToJsonValue, UInt32.toUInt64_inj, and_comm] using h

@[simp] lemma cancellationStateToJsonValue_inj {a b : CancellationToken} :
    cancellationStateToJsonValue a.state = cancellationStateToJsonValue b.state ↔ a = b := by
  refine ⟨fun h => ?_, fun h => h ▸ rfl⟩
  obtain ⟨_ | ⟨⟨reason⟩⟩⟩ := a <;> obtain ⟨_ | ⟨⟨reason'⟩⟩⟩ := b <;>
    simp_all [cancellationStateToJsonValue, CancellationToken.state]

lemma nodeContextToJsonValue_injective : Function.Injective nodeContextToJsonValue := by
  rintro ⟨workflowId, nodeId, execution, token⟩ ⟨workflowId', nodeId', execution', token'⟩ h
  simp_all [nodeContextToJsonValue, NodeContext.cancellation]

@[simp] lemma nodeContextToJsonValue_inj {a b : NodeContext} :
    nodeContextToJsonValue a = nodeContextToJsonValue b ↔ a = b :=
  nodeContextToJsonValue_injective.eq_iff

@[simp] lemma orNull_context_inj {o p : Option NodeContext} :
    orNull nodeContextToJsonValue o = orNull nodeContextToJsonValue p ↔ o = p :=
  orNull_inj nodeContextToJsonValue_injective fun _ h => by cases h

lemma messageEndpointToJsonValue_injective : Function.Injective messageEndpointToJsonValue := by
  rintro ⟨nodeId, portId⟩ ⟨nodeId', portId'⟩ h
  simpa [messageEndpointToJsonValue] using h

@[simp] lemma messageMetadataToJsonValue_inj {a b : MessageMetadata} :
    messageMetadataToJsonValue a = messageMetadataToJsonValue b ↔ a = b := by
  refine ⟨fun h => ?_, fun h => h ▸ rfl⟩
  obtain ⟨messageId, workflowId, execution, source, target⟩ := a
  obtain ⟨messageId', workflowId', execution', source', target'⟩ := b
  have hsource := orNull_inj (o := source) (p := source') messageEndpointToJsonValue_injective
    fun _ h => by cases h
  simp_all [messageMetadataToJsonValue, messageRouteToJsonValue,
    messageEndpointToJsonValue_injective.eq_iff]

@[simp] lemma pureflowErrorToJsonValue_inj {a b : PureflowError} :
    pureflowErrorToJsonValue a = pureflowErrorToJsonValue b ↔ a = b := by
  refine ⟨fun h => ?_, fun h => h ▸ rfl⟩
  simp only [pureflowErrorToJsonValue, Value.object.injEq, List.cons.injEq, Prod.mk.injEq,
    Value.string.injEq, true_and] at h
  exact PureflowError.toString_inj (code_asStr_inj.mp h.1) h.2.1

lemma ruleEvalActionToJsonValue_injective : Function.Injective ruleEvalActionToJsonValue := by
  intro a b h
  cases a <;> cases b <;> simp_all [ruleEvalActionToJsonValue]

lemma conditionTraceToJsonValue_injective : Function.Injective conditionTraceToJsonValue := by
  rintro ⟨ruleId, description, matched, surface⟩ ⟨ruleId', description', matched', surface'⟩ h
  simp_all [conditionTraceToJsonValue]

lemma tagToJsonValue_injective : Function.Injective tagToJsonValue := by
  rintro ⟨key, value⟩ ⟨key', value'⟩ h
  simpa [tagToJsonValue] using h

end Parts

section Words

lemma usizeValue_inj {n m : ℕ} (hn : n < 2 ^ 64) (hm : m < 2 ^ 64) :
    usizeValue n = usizeValue m ↔ n = m := by
  refine ⟨fun h => ?_, fun h => h ▸ rfl⟩
  simp only [usizeValue, Value.number.injEq, Number.posInt.injEq] at h
  have hnat := congrArg UInt64.toNat h
  rwa [UInt64.toNat_ofNat_of_lt' hn, UInt64.toNat_ofNat_of_lt' hm] at hnat

/-- The counts of a diagnostic are machine words. -/
structure DeadlockDiagnosticMetadata.InWords (d : DeadlockDiagnosticMetadata) : Prop where
  scheduled : d.scheduledNodeCount < 2 ^ 64
  pending : d.pendingNodeCount < 2 ^ 64
  completed : d.completedNodeCount < 2 ^ 64
  failed : d.failedNodeCount < 2 ^ 64
  cancelled : d.cancelledNodeCount < 2 ^ 64
  edges : d.boundedEdgeCount < 2 ^ 64

structure QueuePressureRecord.InWords (q : QueuePressureRecord) : Prop where
  edges : q.connectedEdgeCount < 2 ^ 64
  capacity : ∀ n ∈ q.capacity, n < 2 ^ 64
  queued : ∀ n ∈ q.queuedCount, n < 2 ^ 64

/-- The counts of a record are machine words, as they are in the program. -/
def MetadataRecord.InWords : MetadataRecord → Prop
  | .queuePressure q => q.InWords
  | .error e => ∀ d, e.diagnostic = some (.workflowDeadlock d) → d.InWords
  | _ => True

lemma orNull_usizeValue_inj {o p : Option ℕ} (ho : ∀ n ∈ o, n < 2 ^ 64) (hp : ∀ n ∈ p, n < 2 ^ 64)
    (h : orNull usizeValue o = orNull usizeValue p) : o = p := by
  cases o with
  | none =>
    cases p with
    | none => rfl
    | some m => cases h
  | some n =>
    cases p with
    | none => cases h
    | some m => rw [(usizeValue_inj (ho n rfl) (hp m rfl)).mp h]

lemma errorDiagnostic_inj {a b : DeadlockDiagnosticMetadata} (ha : a.InWords) (hb : b.InWords)
    (h : errorDiagnosticMetadataToJsonValue (.workflowDeadlock a) =
      errorDiagnosticMetadataToJsonValue (.workflowDeadlock b)) : a = b := by
  simp only [errorDiagnosticMetadataToJsonValue, Value.object.injEq, List.cons.injEq,
    Prod.mk.injEq, true_and, and_true, usizeValue_inj ha.edges hb.edges,
    usizeValue_inj ha.cancelled hb.cancelled, usizeValue_inj ha.completed hb.completed,
    usizeValue_inj ha.failed hb.failed, usizeValue_inj ha.pending hb.pending,
    usizeValue_inj ha.scheduled hb.scheduled, Value.string.injEq, orNull_string_inj,
    Value.number.injEq, Number.posInt.injEq] at h
  obtain ⟨hedges, hcancelled, hcompleted, hpolicy, hfailed, hstartup, htermination, htimeout,
    hpending, hscheduled⟩ := h
  cases a
  cases b
  simp_all

lemma orNull_diagnostic_inj {o p : Option ErrorDiagnosticMetadata}
    (ho : ∀ d, o = some (.workflowDeadlock d) → d.InWords)
    (hp : ∀ d, p = some (.workflowDeadlock d) → d.InWords)
    (h : orNull errorDiagnosticMetadataToJsonValue o =
      orNull errorDiagnosticMetadataToJsonValue p) : o = p := by
  cases o with
  | none =>
    cases p with
    | none => rfl
    | some e => cases e; cases h
  | some d =>
    obtain ⟨d⟩ := d
    cases p with
    | none => cases h
    | some e =>
      obtain ⟨e⟩ := e
      rw [errorDiagnostic_inj (ho d rfl) (hp e rfl) h]

end Words

/-- The label of the kind of a record. -/
def recordType : MetadataRecord → String
  | .executionContext _ => "execution_context"
  | .lifecycle _ => "lifecycle"
  | .message _ => "message"
  | .queuePressure _ => "queue_pressure"
  | .error _ => "error"
  | .externalEffect _ => "external_effect"
  | .ruleEval _ => "rule_eval"

lemma get_record_type (r : MetadataRecord) :
    (metadataRecordToJsonValue r).get "record_type" = some (.string (recordType r)) := by
  cases r <;> rfl

/-- **The projection loses nothing**: records with the same JSON are the same, contexts being
the same when they are cancelled alike. -/
theorem metadataRecordToJsonValue_injective {a b : MetadataRecord} (ha : a.InWords)
    (hb : b.InWords) (h : metadataRecordToJsonValue a = metadataRecordToJsonValue b) : a = b := by
  have htype : recordType a = recordType b := by
    have hget := congrArg (·.get "record_type") h
    simpa [get_record_type] using hget
  cases a <;> cases b <;> simp only [recordType, String.reduceEq] at htype
  case executionContext.executionContext context context' =>
    simpa [metadataRecordToJsonValue] using h
  case lifecycle.lifecycle event event' =>
    obtain ⟨kind, context⟩ := event
    obtain ⟨kind', context'⟩ := event'
    simp_all [metadataRecordToJsonValue]
  case message.message record record' =>
    obtain ⟨kind, metadata⟩ := record
    obtain ⟨kind', metadata'⟩ := record'
    simp_all [metadataRecordToJsonValue]
  case queuePressure.queuePressure q q' =>
    simp only [metadataRecordToJsonValue, Value.object.injEq, List.cons.injEq, Prod.mk.injEq,
      true_and, and_true, Value.string.injEq, orNull_context_inj, queuePortDirectionLabel_inj,
      queuePressureBoundaryKindLabel_inj, asStr_inj] at h
    obtain ⟨hcapacity, hedges, hcontext, hdirection, hkind, hport, hqueued⟩ := h
    have hcapacity := orNull_usizeValue_inj ha.capacity hb.capacity hcapacity
    have hedges := (usizeValue_inj ha.edges hb.edges).mp hedges
    have hqueued := orNull_usizeValue_inj ha.queued hb.queued hqueued
    cases q
    cases q'
    simp_all
  case error.error e e' =>
    simp only [metadataRecordToJsonValue, Value.object.injEq, List.cons.injEq, Prod.mk.injEq,
      true_and, and_true, Value.string.injEq, pureflowErrorToJsonValue_inj,
      executionMetadataToJsonValue_inj, errorMetadataKindLabel_inj, orNull_identifier_inj,
      asStr_inj] at h
    obtain ⟨hdiagnostic, herror, hexecution, hkind, hnode, hworkflow⟩ := h
    have hdiagnostic := orNull_diagnostic_inj ha hb hdiagnostic
    cases e
    cases e'
    simp_all
  case externalEffect.externalEffect effect effect' =>
    cases effect
    cases effect'
    simp_all [metadataRecordToJsonValue]
  case ruleEval.ruleEval r r' =>
    simp only [metadataRecordToJsonValue, Value.object.injEq, List.cons.injEq, Prod.mk.injEq,
      true_and, and_true, Value.string.injEq, Value.array.injEq,
      ruleEvalActionToJsonValue_injective.eq_iff, orNull_identifier_inj, orNull_string_inj,
      conditionTraceToJsonValue_injective.list_map.eq_iff, executionMetadataToJsonValue_inj,
      Value.number.injEq, Number.posInt.injEq, UInt32.toUInt64_inj, asStr_inj,
      ruleEvalStrategyLabel_inj, tagToJsonValue_injective.list_map.eq_iff] at h
    cases r
    cases r'
    simp_all

/-- The context of a node whose token has the given content. -/
def tokenContext (token : CancellationToken) : NodeContext :=
  (NodeContext.new ⟨"flow", workflow_flow_valid⟩ ⟨"a", node_a_valid⟩
    (.firstAttempt ⟨"run-1", execution_run_valid⟩)).withCancellationToken token

/-- The record of an empty receive in this context, on a port with two edges. -/
def pressureRecord (context : NodeContext) : MetadataRecord := .queuePressure {
  context := some context
  direction := .input
  portId := ⟨"in", port_in_valid⟩
  kind := .receiveEmpty
  connectedEdgeCount := 2
  capacity := some 8
  queuedCount := some 0 }

lemma pressureRecord_inWords (context : NodeContext) : (pressureRecord context).InWords := by
  refine ⟨show 2 < 2 ^ 64 by decide, fun n hn => ?_, fun n hn => ?_⟩
  · obtain rfl := Option.some.inj hn
    decide
  · obtain rfl := Option.some.inj hn
    decide

/-- A queue is recorded alike in a context that was asked to stop twice and in one that was asked
once, and the records are the same. -/
theorem metadataRecordToJsonValue_injective_cancelled :
    let once := tokenContext (.cancelled ⟨"stop"⟩)
    let twice := tokenContext ((CancellationToken.cancelled ⟨"stop"⟩).requestCancellation
      ⟨"again"⟩).2
    metadataRecordToJsonValue (pressureRecord once) =
        metadataRecordToJsonValue (pressureRecord twice) ∧
      pressureRecord once = pressureRecord twice :=
  ⟨rfl, metadataRecordToJsonValue_injective (pressureRecord_inWords _) (pressureRecord_inWords _)
    rfl⟩

end Pureflow.Core
