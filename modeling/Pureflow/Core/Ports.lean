import Pureflow.Core.Metadata
import Pureflow.Lib.Mpsc
import Pureflow.Lib.Prog

/-!
Port handles for the executor boundary.

A channel end is the number of its channel and the capacity the channel was made with. Port
operations are programs over the channel operations, the cancellation token the caller passes
and the metadata sink; an asynchronous operation is the program of one poll. Dropping the
permits of a channel gives their reservations back.
-/

namespace Pureflow.Core

open Std Pureflow.Types Pureflow.Lib

inductive PortSendError
  | unknownPort (portId : PortId)
  | disconnected (portId : PortId)
  | full (portId : PortId)
  | cancelled (portId : PortId)
  | rejected (portId : PortId) (reason : String)
  deriving DecidableEq

instance : ToString PortSendError where
  toString
    | .unknownPort portId => s!"output port `{portId}` is not declared"
    | .disconnected portId => s!"output port `{portId}` is disconnected"
    | .full portId => s!"output port `{portId}` is full"
    | .cancelled portId => s!"output port `{portId}` send cancelled"
    | .rejected portId reason => s!"output port `{portId}` rejected packet: {reason}"

inductive PortRecvError
  | unknownPort (portId : PortId)
  | disconnected (portId : PortId)
  | cancelled (portId : PortId)
  deriving DecidableEq

instance : ToString PortRecvError where
  toString
    | .unknownPort portId => s!"input port `{portId}` is not declared"
    | .disconnected portId => s!"input port `{portId}` is disconnected"
    | .cancelled portId => s!"input port `{portId}` receive cancelled"

namespace PureflowError

/-- `From<PortSendError>`. -/
def ofPortSendError (value : PortSendError) : PureflowError :=
  match value with
  | .cancelled _ => .cancellation (toString value)
  | _ => .execution (toString value)

/-- `From<PortRecvError>`. -/
def ofPortRecvError (value : PortRecvError) : PureflowError :=
  match value with
  | .cancelled _ => .cancellation (toString value)
  | _ => .execution (toString value)

end PureflowError

/-- The calls a port operation makes. -/
inductive PortOp
  | tryReserve (channel : ℕ)
  | permitSend (channel : ℕ) (packet : PortPacket)
  | permitAbort (channel : ℕ)
  | tryRecv (channel : ℕ)
  | pollRecv (channel : ℕ)
  | len (channel : ℕ)
  | isCancelled
  | record (record : MetadataRecord)

def PortOp.Answer : PortOp → Type
  | .tryReserve _ => Except SendError Unit
  | .permitSend _ _ => Unit
  | .permitAbort _ => Unit
  | .tryRecv _ => Except RecvError PortPacket
  | .pollRecv _ => Poll (Except RecvError PortPacket)
  | .len _ => ℕ
  | .isCancelled => Bool
  | .record _ => Except PureflowError Unit

abbrev PortM := Prog PortOp PortOp.Answer

namespace PortM

def tryReserve (channel : ℕ) : PortM (Except SendError Unit) := .perform (PortOp.tryReserve channel)

def permitSend (channel : ℕ) (packet : PortPacket) : PortM Unit :=
  .perform (PortOp.permitSend channel packet)

def permitAbort (channel : ℕ) : PortM Unit := .perform (PortOp.permitAbort channel)

def tryRecv (channel : ℕ) : PortM (Except RecvError PortPacket) := .perform (PortOp.tryRecv channel)

def pollRecv (channel : ℕ) : PortM (Poll (Except RecvError PortPacket)) :=
  .perform (PortOp.pollRecv channel)

def len (channel : ℕ) : PortM ℕ := .perform (PortOp.len channel)

def isCancelled : PortM Bool := .perform PortOp.isCancelled

/-- Hand a record to the sink, if there is one, and ignore the answer. -/
def record (metadataSink : Bool) (r : MetadataRecord) : PortM Unit := do
  if metadataSink then
    let _ ← (.perform (PortOp.record r) : PortM (Except PureflowError Unit))

end PortM

/-- The end of a channel held by an output port. -/
structure Sender where
  channel : ℕ
  capacity : ℕ
  deriving DecidableEq

/-- The end of a channel held by an input port. -/
structure Receiver where
  channel : ℕ
  capacity : ℕ
  deriving DecidableEq

/-- Channel-backed endpoint for one declared port: the ends of its edges. -/
structure PortHandle (End : Type) where
  portId : PortId
  ends : List End
  deriving DecidableEq

abbrev InputPortHandle := PortHandle Receiver

abbrev OutputPortHandle := PortHandle Sender

namespace PortHandle

variable {End : Type}

def disconnected (portId : PortId) : PortHandle End := ⟨portId, []⟩

def connected (portId : PortId) (e : End) : PortHandle End := ⟨portId, [e]⟩

def append (h other : PortHandle End) : PortHandle End := { h with ends := h.ends ++ other.ends }

def connectedEdgeCount (h : PortHandle End) : ℕ := h.ends.length

/-- One handle: appended to the handle of its port, or the first of its port. -/
def collect (byPort : ExtTreeMap PortId (PortHandle End)) (handle : PortHandle End) :
    ExtTreeMap PortId (PortHandle End) :=
  match byPort[handle.portId]? with
  | some existing => byPort.insert handle.portId (existing.append handle)
  | none => byPort.insert handle.portId handle

def takePorts : List PortId → ExtTreeMap PortId (PortHandle End) → List (PortHandle End)
  | [], _ => []
  | portId :: rest, byPort =>
    byPort[portId]?.getD (disconnected portId) :: takePorts rest (byPort.erase portId)

/-- The handles of the declared ports, in their order. -/
def fromHandles (portIds : List PortId) (handles : List (PortHandle End)) :
    List (PortHandle End) :=
  takePorts portIds (handles.foldl collect ∅)

def find (ports : List (PortHandle End)) (portId : PortId) : Option (PortHandle End) :=
  ports.find? (·.portId == portId)

end PortHandle

/-- Create one bounded edge channel between an output port and an input port. -/
def boundedEdgeChannel (channel : ℕ) (outputPortId inputPortId : PortId) (capacity : ℕ+) :
    OutputPortHandle × InputPortHandle :=
  (.connected outputPortId ⟨channel, capacity⟩, .connected inputPortId ⟨channel, capacity⟩)

namespace InputPortHandle

def totalCapacity (h : InputPortHandle) : Option ℕ :=
  if h.ends.isEmpty then none else some (h.ends.map Receiver.capacity).sum

def queuedCount.go : List Receiver → PortM ℕ
  | [] => return 0
  | receiver :: rest => return (← PortM.len receiver.channel) + (← go rest)

def queuedCount (h : InputPortHandle) : PortM ℕ := queuedCount.go h.ends

def tryRecv.go (h : InputPortHandle) :
    List Receiver → ℕ → PortM (Except PortRecvError (Option PortPacket))
  | [], disconnectedCount =>
    if !h.ends.isEmpty && disconnectedCount == h.ends.length then
      return .error (.disconnected h.portId)
    else return .ok none
  | receiver :: rest, disconnectedCount => do
    match ← PortM.tryRecv receiver.channel with
    | .ok packet => return .ok (some packet)
    | .error .empty => go h rest disconnectedCount
    | .error .disconnected => go h rest (disconnectedCount + 1)
    | .error .cancelled => return .error (.cancelled h.portId)

def tryRecv (h : InputPortHandle) : PortM (Except PortRecvError (Option PortPacket)) :=
  tryRecv.go h h.ends 0

inductive InputPollResult
  | packet (packet : PortPacket)
  | pending
  | closed
  | cancelled

def pollAny.go (h : InputPortHandle) : List Receiver → ℕ → PortM InputPollResult
  | [], disconnectedCount =>
    if disconnectedCount == h.ends.length then return .closed else return .pending
  | receiver :: rest, disconnectedCount => do
    match ← PortM.pollRecv receiver.channel with
    | .ready (.ok packet) => return .packet packet
    | .ready (.error .disconnected) => go h rest (disconnectedCount + 1)
    | .ready (.error .cancelled) => return .cancelled
    | .ready (.error .empty) => go h rest disconnectedCount
    | .pending => go h rest disconnectedCount

def pollAny (h : InputPortHandle) : PortM InputPollResult :=
  if h.ends.isEmpty then return .closed else pollAny.go h h.ends 0

/-- One poll of `recv`. Its loop over the receivers is the one of `pollAny`. -/
def recv (h : InputPortHandle) : PortM (Poll (Except PortRecvError (Option PortPacket))) := do
  if h.ends.isEmpty then return .ready (.ok none)
  if ← PortM.isCancelled then return .ready (.error (.cancelled h.portId))
  match ← pollAny.go h h.ends 0 with
  | .packet packet => return .ready (.ok (some packet))
  | .cancelled => return .ready (.error (.cancelled h.portId))
  | .closed => return .ready (.error (.disconnected h.portId))
  | .pending => return .pending

end InputPortHandle

/-- Validator invoked before output packets enter downstream graph edges. -/
abbrev OutputPacketValidator := PortId → PortPacket → Except PortSendError Unit

/-- Reserved output capacity for one declared output port: the channels it holds a reservation
of, and what the send records and checks. -/
structure OutputPortSendPermit where
  portId : PortId
  permits : List ℕ
  metadataSink : Bool
  validator : Option OutputPacketValidator
  context : Option NodeContext
  connectedEdgeCount : ℕ
  capacity : Option ℕ

/-- Dropping permits, and aborting them: each gives its reservation back. -/
def dropPermits : List ℕ → PortM Unit
  | [] => return ()
  | channel :: rest => do
    PortM.permitAbort channel
    dropPermits rest

namespace OutputPortSendPermit

def abort (permit : OutputPortSendPermit) : PortM Unit := dropPermits permit.permits

def sendAll (packet : PortPacket) : List ℕ → PortM Unit
  | [] => return ()
  | channel :: rest => do
    PortM.permitSend channel packet
    sendAll packet rest

def validate (permit : OutputPortSendPermit) (packet : PortPacket) : Except PortSendError Unit :=
  match permit.validator with
  | some validator => validator permit.portId packet
  | none => .ok ()

def send (permit : OutputPortSendPermit) (packet : PortPacket) :
    PortM (Except PortSendError Unit) := do
  match permit.validate packet with
  | .error err =>
    permit.abort
    return .error err
  | .ok () =>
    let dropped := permit.permits.isEmpty
    PortM.record permit.metadataSink (.queuePressure
      { context := permit.context
        direction := .output
        portId := permit.portId
        kind := if dropped then .sendDropped else .sendCommitted
        connectedEdgeCount := permit.connectedEdgeCount
        capacity := permit.capacity
        queuedCount := none })
    PortM.record permit.metadataSink (.message
      { kind := if dropped then .dropped else .enqueued
        metadata := packet.metadata })
    sendAll packet permit.permits
    return .ok ()

end OutputPortSendPermit

namespace OutputPortHandle

def totalCapacity (h : OutputPortHandle) : Option ℕ :=
  if h.ends.isEmpty then none else some (h.ends.map Sender.capacity).sum

def recordQueuePressure (metadataSink : Bool) (context : Option NodeContext)
    (h : OutputPortHandle) (kind : QueuePressureBoundaryKind) : PortM Unit :=
  PortM.record metadataSink (.queuePressure
    { context := context
      direction := .output
      portId := h.portId
      kind := kind
      connectedEdgeCount := h.connectedEdgeCount
      capacity := h.totalCapacity
      queuedCount := none })

def mapSendError (h : OutputPortHandle) : SendError → PortSendError
  | .disconnected => .disconnected h.portId
  | .cancelled => .cancelled h.portId
  | .full => .full h.portId

section TryReserve

variable (h : OutputPortHandle) (metadataSink : Bool) (validator : Option OutputPacketValidator)
  (context : Option NodeContext)

/-- Reserve a slot on one edge after the other. The source treats the last edge apart, with the
same body. A failure drops the permits taken so far. -/
def tryReserve.go : List Sender → List ℕ → PortM (Except PortSendError OutputPortSendPermit)
  | [], permits => do
    recordQueuePressure metadataSink context h .reserveReady
    return .ok ⟨h.portId, permits, metadataSink, validator, context, h.connectedEdgeCount,
      h.totalCapacity⟩
  | sender :: rest, permits => do
    match ← PortM.tryReserve sender.channel with
    | .ok () => go rest (permits ++ [sender.channel])
    | .error err =>
      if err = .full then recordQueuePressure metadataSink context h .reserveFull
      dropPermits permits
      return .error (h.mapSendError err)

def tryReserve : PortM (Except PortSendError OutputPortSendPermit) := do
  recordQueuePressure metadataSink context h .reserveAttempted
  tryReserve.go h metadataSink validator context h.ends []

/-- One poll of `reserve`: a full edge yields, and the next poll starts over. -/
def reserve : PortM (Poll (Except PortSendError OutputPortSendPermit)) := do
  if ← PortM.isCancelled then return .ready (.error (.cancelled h.portId))
  match ← tryReserve h metadataSink validator context with
  | .ok permit => return .ready (.ok permit)
  | .error (.full _) => return .pending
  | .error err => return .ready (.error err)

end TryReserve

end OutputPortHandle

/-- Declared input ports available to a node execution boundary. -/
structure PortsIn where
  portIds : List PortId
  ports : List InputPortHandle
  metadataSink : Bool
  context : Option NodeContext
  deriving DecidableEq

namespace PortsIn

def fromHandles (portIds : List PortId) (handles : List InputPortHandle) : PortsIn :=
  ⟨portIds, PortHandle.fromHandles portIds handles, false, none⟩

def connectedEdgeCount (ports : PortsIn) (portId : PortId) : Option ℕ :=
  (PortHandle.find ports.ports portId).map (·.connectedEdgeCount)

def recordQueuePressure (ports : PortsIn) (port : InputPortHandle)
    (kind : QueuePressureBoundaryKind) : PortM Unit := do
  if ports.metadataSink then
    let queuedCount ← InputPortHandle.queuedCount port
    PortM.record ports.metadataSink (.queuePressure
      { context := ports.context
        direction := .input
        portId := port.portId
        kind := kind
        connectedEdgeCount := port.connectedEdgeCount
        capacity := InputPortHandle.totalCapacity port
        queuedCount := some queuedCount })

def recordMessageBoundary (ports : PortsIn) (kind : MessageBoundaryKind)
    (metadata : MessageMetadata) : PortM Unit :=
  PortM.record ports.metadataSink (.message ⟨kind, metadata⟩)

/-- What `try_recv` and `recv` record of an answer before they return it. -/
def recordReceived (ports : PortsIn) (port : InputPortHandle) :
    Except PortRecvError (Option PortPacket) → PortM Unit
  | .error (.disconnected _) => ports.recordQueuePressure port .receiveClosed
  | .error _ => return ()
  | .ok (some packet) => do
    ports.recordQueuePressure port .receiveReady
    ports.recordMessageBoundary .dequeued packet.metadata
  | .ok none => ports.recordQueuePressure port .receiveEmpty

def tryRecv (ports : PortsIn) (portId : PortId) :
    PortM (Except PortRecvError (Option PortPacket)) := do
  match PortHandle.find ports.ports portId with
  | none => return .error (.unknownPort portId)
  | some port =>
    ports.recordQueuePressure port .receiveAttempted
    let answer ← InputPortHandle.tryRecv port
    ports.recordReceived port answer
    return answer

/-- One poll of `recv` once its port is known. -/
def recvPoll (ports : PortsIn) (port : InputPortHandle) :
    PortM (Poll (Except PortRecvError (Option PortPacket))) := do
  match ← InputPortHandle.recv port with
  | .pending => return .pending
  | .ready answer =>
    ports.recordReceived port answer
    return .ready answer

/-- The first poll of `recv`; the later ones are `recvPoll`. -/
def recv (ports : PortsIn) (portId : PortId) :
    PortM (Poll (Except PortRecvError (Option PortPacket))) := do
  match PortHandle.find ports.ports portId with
  | none => return .ready (.error (.unknownPort portId))
  | some port =>
    ports.recordQueuePressure port .receiveAttempted
    ports.recvPoll port

def recvAnyPoll.go (ports : PortsIn) : List InputPortHandle → ℕ →
    PortM (Poll (Except PortRecvError (Option (PortId × PortPacket))))
  | [], closedPortCount =>
    if closedPortCount == ports.ports.length then return .ready (.ok none) else return .pending
  | port :: rest, closedPortCount => do
    match ← InputPortHandle.pollAny port with
    | .packet packet =>
      ports.recordQueuePressure port .receiveReady
      ports.recordMessageBoundary .dequeued packet.metadata
      return .ready (.ok (some (port.portId, packet)))
    | .closed =>
      ports.recordQueuePressure port .receiveClosed
      go ports rest (closedPortCount + 1)
    | .cancelled => return .ready (.error (.cancelled port.portId))
    | .pending => go ports rest closedPortCount

/-- One poll of `recv_any`. -/
def recvAnyPoll (ports : PortsIn) :
    PortM (Poll (Except PortRecvError (Option (PortId × PortPacket)))) := do
  if ← PortM.isCancelled then
    match ports.ports with
    | [] => return .ready (.ok none)
    | first :: _ => return .ready (.error (.cancelled first.portId))
  else recvAnyPoll.go ports ports.ports 0

def recordAttempts (ports : PortsIn) : List InputPortHandle → PortM Unit
  | [] => return ()
  | port :: rest => do
    ports.recordQueuePressure port .receiveAttempted
    recordAttempts ports rest

/-- The first poll of `recv_any`; the later ones are `recvAnyPoll`. -/
def recvAny (ports : PortsIn) :
    PortM (Poll (Except PortRecvError (Option (PortId × PortPacket)))) := do
  if ports.ports.isEmpty then return .ready (.ok none)
  ports.recordAttempts ports.ports
  ports.recvAnyPoll

end PortsIn

/-- Declared output ports available to a node execution boundary. -/
structure PortsOut where
  portIds : List PortId
  ports : List OutputPortHandle
  metadataSink : Bool
  validator : Option OutputPacketValidator
  context : Option NodeContext

namespace PortsOut

def fromHandles (portIds : List PortId) (handles : List OutputPortHandle) : PortsOut :=
  ⟨portIds, PortHandle.fromHandles portIds handles, false, none, none⟩

def connectedEdgeCount (ports : PortsOut) (portId : PortId) : Option ℕ :=
  (PortHandle.find ports.ports portId).map (·.connectedEdgeCount)

def tryReserve (ports : PortsOut) (portId : PortId) :
    PortM (Except PortSendError OutputPortSendPermit) :=
  match PortHandle.find ports.ports portId with
  | none => return .error (.unknownPort portId)
  | some port => OutputPortHandle.tryReserve port ports.metadataSink ports.validator ports.context

/-- One poll of `reserve`. -/
def reserve (ports : PortsOut) (portId : PortId) :
    PortM (Poll (Except PortSendError OutputPortSendPermit)) :=
  match PortHandle.find ports.ports portId with
  | none => return .ready (.error (.unknownPort portId))
  | some port => OutputPortHandle.reserve port ports.metadataSink ports.validator ports.context

def trySend (ports : PortsOut) (portId : PortId) (packet : PortPacket) :
    PortM (Except PortSendError Unit) := do
  match ← ports.tryReserve portId with
  | .ok permit => permit.send packet
  | .error err => return .error err

/-- One poll of `send`. -/
def send (ports : PortsOut) (portId : PortId) (packet : PortPacket) :
    PortM (Poll (Except PortSendError Unit)) := do
  match ← ports.reserve portId with
  | .pending => return .pending
  | .ready (.error err) => return .ready (.error err)
  | .ready (.ok permit) => return .ready (← permit.send packet)

end PortsOut

end Pureflow.Core
