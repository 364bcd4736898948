import Pureflow.Core.Context
import Pureflow.Lib.Json

/-!
Message envelopes: the payload a packet carries and the metadata it is routed by.
-/

namespace Pureflow.Core

open Pureflow.Types Pureflow.Lib

/-- First-class payload carried by ports. -/
inductive PacketPayload
  | bytes (bytes : List UInt8)
  | control (value : Json.Value)

structure MessageEndpoint where
  nodeId : NodeId
  portId : PortId
  deriving DecidableEq

structure MessageRoute where
  source : Option MessageEndpoint
  target : MessageEndpoint
  deriving DecidableEq

structure MessageMetadata where
  messageId : MessageId
  workflowId : WorkflowId
  execution : ExecutionMetadata
  route : MessageRoute
  deriving DecidableEq

/-- A payload with its routing metadata. -/
structure PortPacket where
  metadata : MessageMetadata
  payload : PacketPayload

end Pureflow.Core
