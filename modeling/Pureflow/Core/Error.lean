import Pureflow.Types

/-!
Shared error types for runtime-facing APIs, their codes and their texts.
-/

namespace Pureflow.Core

open Pureflow.Types

inductive PortCapabilityDirection
  | receive | emit
  deriving DecidableEq

def PortCapabilityDirection.label : PortCapabilityDirection → String
  | .receive => "receive"
  | .emit => "emit"

/-- External effect a node may request from the runtime boundary. -/
inductive EffectCapability
  | fileSystemRead | fileSystemWrite | networkOutbound | externalEffect | processSpawn
  | environmentRead | environmentWrite | clock
  deriving DecidableEq

/-- Stable machine-facing label. -/
def EffectCapability.asStr : EffectCapability → String
  | .fileSystemRead => "filesystem_read"
  | .fileSystemWrite => "filesystem_write"
  | .networkOutbound => "network_outbound"
  | .externalEffect => "external_effect"
  | .processSpawn => "process_spawn"
  | .environmentRead => "environment_read"
  | .environmentWrite => "environment_write"
  | .clock => "clock"

def EffectCapability.debug : EffectCapability → String
  | .fileSystemRead => "FileSystemRead"
  | .fileSystemWrite => "FileSystemWrite"
  | .networkOutbound => "NetworkOutbound"
  | .externalEffect => "ExternalEffect"
  | .processSpawn => "ProcessSpawn"
  | .environmentRead => "EnvironmentRead"
  | .environmentWrite => "EnvironmentWrite"
  | .clock => "Clock"

inductive CapabilityValidationError
  | duplicateEffect (nodeId : NodeId) (effect : EffectCapability)
  | duplicatePortCapability (nodeId : NodeId) (portId : PortId)
      (direction : PortCapabilityDirection)
  | conflictingPortDirection (nodeId : NodeId) (portId : PortId)
  | unknownCapabilityNode (nodeId : NodeId)
  | unknownCapabilityPort (nodeId : NodeId) (portId : PortId)
  | capabilityDirectionMismatch (nodeId : NodeId) (portId : PortId)
      (claimed declared : PortCapabilityDirection)
  | unenforceableEffectCapability (nodeId : NodeId) (effect : EffectCapability)
  deriving DecidableEq

instance : ToString CapabilityValidationError where
  toString
    | .duplicateEffect nodeId effect =>
      s!"node `{nodeId}` declares duplicate effect capability `{effect.debug}`"
    | .duplicatePortCapability nodeId portId direction =>
      s!"node `{nodeId}` declares duplicate {direction.label} capability for port `{portId}`"
    | .conflictingPortDirection nodeId portId =>
      s!"node `{nodeId}` declares port `{portId}` for both receive and emit"
    | .unknownCapabilityNode nodeId =>
      s!"capability descriptor references unknown workflow node `{nodeId}`"
    | .unknownCapabilityPort nodeId portId =>
      s!"node `{nodeId}` capability references unknown workflow port `{portId}`"
    | .capabilityDirectionMismatch nodeId portId claimed declared =>
      s!"node `{nodeId}` capability claims port `{portId}` may {claimed.label} " ++
        s!"but workflow declares {declared.label}"
    | .unenforceableEffectCapability nodeId effect =>
      s!"node `{nodeId}` declares effect capability `{effect.debug}` " ++
        "that is not enforceable by its execution boundary"

/-- Whether an error should be surfaced directly to a human. -/
inductive ErrorVisibility
  | user | internal
  deriving DecidableEq

/-- Retry guidance for one error condition. -/
inductive RetryDisposition
  | never | safe | unknown
  deriving DecidableEq

inductive ErrorCode
  | invalidIdentifier | invalidCapabilities | nodeExecutionFailed | executionCancelled
  | lifecycleObservationFailed | metadataCollectionFailed
  deriving DecidableEq

def ErrorCode.asStr : ErrorCode → String
  | .invalidIdentifier => "CDT-VAL-001"
  | .invalidCapabilities => "CDT-VAL-002"
  | .nodeExecutionFailed => "CDT-EXEC-001"
  | .executionCancelled => "CDT-CANCEL-001"
  | .lifecycleObservationFailed => "CDT-LIFE-001"
  | .metadataCollectionFailed => "CDT-META-001"

inductive ValidationError
  | identifier (err : IdentifierError)
  | capability (err : CapabilityValidationError)
  deriving DecidableEq

def ValidationError.code : ValidationError → ErrorCode
  | .identifier _ => .invalidIdentifier
  | .capability _ => .invalidCapabilities

inductive PureflowError
  | validation (err : ValidationError)
  | execution (message : String)
  | cancellation (reason : String)
  | lifecycle (message : String)
  | metadata (message : String)
  deriving DecidableEq

namespace PureflowError

def code : PureflowError → ErrorCode
  | .validation err => err.code
  | .execution _ => .nodeExecutionFailed
  | .cancellation _ => .executionCancelled
  | .lifecycle _ => .lifecycleObservationFailed
  | .metadata _ => .metadataCollectionFailed

def visibility : PureflowError → ErrorVisibility
  | .validation _ | .cancellation _ => .user
  | .execution _ | .lifecycle _ | .metadata _ => .internal

def retryDisposition : PureflowError → RetryDisposition
  | .validation _ => .never
  | .execution _ | .lifecycle _ | .metadata _ => .unknown
  | .cancellation _ => .safe

/-- The text of the error without its code. -/
def detail : PureflowError → String
  | .validation (.identifier err) => s!"identifier validation failed: {err}"
  | .validation (.capability err) => s!"capability validation failed: {err}"
  | .execution message => s!"node execution failed: {message}"
  | .cancellation reason => s!"execution cancelled: {reason}"
  | .lifecycle message => s!"lifecycle observation failed: {message}"
  | .metadata message => s!"metadata collection failed: {message}"

instance : ToString PureflowError := ⟨fun err => s!"{err.code.asStr}: {err.detail}"⟩

def ofIdentifier (err : IdentifierError) : PureflowError := .validation (.identifier err)

end PureflowError

end Pureflow.Core
