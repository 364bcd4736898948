import Pureflow.Core.Batch
import Pureflow.Lib.Result
import Pureflow.Wasm.Codec

/-!
The host side of the batch boundary: port batches encoded as component-model values for the
guest, and decoded from what it returns.

Every decoder is described by the shape of the values it accepts: which field holds what, with an
identifier where an identifier is read. Decoding succeeds on these values and no others, and the
encoders produce them, so a round trip is one case of it.
-/

namespace Pureflow.Wasm.Batch

open Std Pureflow.Types Pureflow.Core Pureflow.Lib

/-- The JSON library as the batch boundary uses it: the text a value is displayed as, and the
parser, which fails with a text. -/
structure JsonCodec where
  toString : Json.Value → String
  fromStr : String → Except String Json.Value

/-- WIT-facing packet payload representation. -/
inductive WitPayload
  | bytes (bytes : List UInt8)
  | control (value : String)
  deriving DecidableEq

/-- WIT-facing packet representation. -/
structure WitPacket where
  metadata : MessageMetadata
  payload : WitPayload
  deriving DecidableEq

/-- WIT-facing port batch representation. -/
structure WitPortBatch where
  portId : String
  packets : List WitPacket
  deriving DecidableEq

section Conversion

/-- Bytes and control values are all the payloads there are without the Arrow feature. -/
def toWitPacket (json : JsonCodec) (packet : PortPacket) : Except PureflowError WitPacket :=
  match packet.payload with
  | .bytes bytes => .ok ⟨packet.metadata, .bytes bytes⟩
  | .control value => .ok ⟨packet.metadata, .control (json.toString value)⟩

def fromWitPacket (json : JsonCodec) (packet : WitPacket) : Except PureflowError PortPacket :=
  match packet.payload with
  | .bytes bytes => .ok ⟨packet.metadata, .bytes bytes⟩
  | .control text =>
    match json.fromStr text with
    | .ok value => .ok ⟨packet.metadata, .control value⟩
    | .error err => .error (.execution s!"guest returned invalid control payload: {err}")

/-- Convert batch inputs to the WIT-facing ordered port batch shape. -/
def toWitPortBatches (json : JsonCodec) (inputs : BatchInputs) :
    Except PureflowError (List WitPortBatch) :=
  inputs.packetsByPort.toList.mapM fun (portId, packets) => do
    return ⟨toString portId, ← packets.mapM (toWitPacket json)⟩

/-- An identifier, or the validation error of its text. -/
def identifier (kind : IdentifierKind) (value : String) :
    Except PureflowError (Identifier kind) :=
  (Identifier.new kind value).mapError .ofIdentifier

/-- The loop over the packets of one port. -/
def fromWitPackets (json : JsonCodec) (portId : PortId) (packets : List WitPacket)
    (outputs : BatchOutputs) : Except PureflowError BatchOutputs :=
  packets.foldlM (fun outputs packet => do
    return outputs.push portId (← fromWitPacket json packet)) outputs

/-- Convert WIT-facing ordered port batches back to batch outputs. -/
def fromWitPortBatches (json : JsonCodec) (portBatches : List WitPortBatch) :
    Except PureflowError BatchOutputs :=
  portBatches.foldlM (fun outputs portBatch => do
    let portId ← identifier .port portBatch.portId
    fromWitPackets json portId portBatch.packets outputs) .new

end Conversion

section Encoding

def endpointToVal (endpoint : MessageEndpoint) : Val :=
  .record
    [("node-id", .string (toString endpoint.nodeId)),
      ("port-id", .string (toString endpoint.portId))]

def routeToVal (route : MessageRoute) : Val :=
  .record [("source", .option (route.source.map endpointToVal)),
    ("target", endpointToVal route.target)]

def metadataToVal (metadata : MessageMetadata) : Val :=
  .record
    [("message-id", .string (toString metadata.messageId)),
      ("workflow-id", .string (toString metadata.workflowId)),
      ("execution", .record
        [("execution-id", .string (toString metadata.execution.executionId)),
          ("attempt", .u32 metadata.execution.attempt.value)]),
      ("route", routeToVal metadata.route)]

def bytesToListVal (bytes : List UInt8) : Val := .list (bytes.map .u8)

def payloadToVal : WitPayload → Val
  | .bytes bytes => .variant "bytes" (some (bytesToListVal bytes))
  | .control value => .variant "control" (some (.string value))

def packetToVal (packet : WitPacket) : Val :=
  .record [("metadata", metadataToVal packet.metadata), ("payload", payloadToVal packet.payload)]

def portBatchToVal (portBatch : WitPortBatch) : Val :=
  .record
    [("port-id", .string portBatch.portId), ("packets", .list (portBatch.packets.map packetToVal))]

def batchInputsToVal (json : JsonCodec) (inputs : BatchInputs) : Except PureflowError Val := do
  let portBatches ← toWitPortBatches json inputs
  return .list (portBatches.map portBatchToVal)

end Encoding

section Decoding

def requiredU32Field (fields : List (String × Val)) (name context : String) :
    Except PureflowError UInt32 := do
  match ← requiredField fields name context with
  | .u32 value => .ok value
  | _ => .error (.execution s!"guest returned non-u32 {context} field {name}")

def endpointFromVal (value : Val) : Except PureflowError MessageEndpoint := do
  let fields ← recordFields value "message endpoint"
  let nodeId ← identifier .node (← requiredStringField fields "node-id" "message endpoint")
  let portId ← identifier .port (← requiredStringField fields "port-id" "message endpoint")
  return ⟨nodeId, portId⟩

def routeSourceFromVal : Val → Except PureflowError (Option MessageEndpoint)
  | .option (some source) => return some (← endpointFromVal source)
  | .option none => .ok none
  | _ => .error (.execution "guest returned non-option route source")

def routeFromVal (value : Val) : Except PureflowError MessageRoute := do
  let fields ← recordFields value "message route"
  let source ← routeSourceFromVal (← requiredField fields "source" "message route")
  let target ← endpointFromVal (← requiredField fields "target" "message route")
  return ⟨source, target⟩

def attemptFromVal (attempt : UInt32) : Except PureflowError ExecutionAttempt :=
  if h : attempt ≠ 0 then .ok ⟨attempt, h⟩
  else .error (.execution "guest returned zero execution attempt")

def executionFromVal (value : Val) : Except PureflowError ExecutionMetadata := do
  let fields ← recordFields value "execution metadata"
  let executionId ←
    identifier .execution (← requiredStringField fields "execution-id" "execution metadata")
  let attempt ← attemptFromVal (← requiredU32Field fields "attempt" "execution metadata")
  return ⟨executionId, attempt⟩

def metadataFromVal (value : Val) : Except PureflowError MessageMetadata := do
  let fields ← recordFields value "message metadata"
  let messageId ← identifier .message (← requiredStringField fields "message-id" "message metadata")
  let workflowId ←
    identifier .workflow (← requiredStringField fields "workflow-id" "message metadata")
  let execution ← executionFromVal (← requiredField fields "execution" "message metadata")
  let route ← routeFromVal (← requiredField fields "route" "message metadata")
  return ⟨messageId, workflowId, execution, route⟩

def byteFromVal : Val → Except PureflowError UInt8
  | .u8 byte => .ok byte
  | _ => .error (.execution "guest returned non-u8 byte payload element")

def bytesFromVal : Val → Except PureflowError (List UInt8)
  | .list values => values.mapM byteFromVal
  | _ => .error (.execution "guest returned non-list bytes payload")

def payloadFromVal (value : Val) : Except PureflowError WitPayload := do
  match ← asVariant value "payload" with
  | ("bytes", some value) => return .bytes (← bytesFromVal value)
  | ("control", some value) =>
    match value with
    | .string value => .ok (.control value)
    | _ => .error (.execution "guest returned non-string control payload")
  | (kind, _) => .error (.execution s!"guest returned unsupported payload variant: {kind}")

def packetFromVal (value : Val) : Except PureflowError WitPacket := do
  let fields ← recordFields value "packet"
  let metadata ← metadataFromVal (← requiredField fields "metadata" "packet")
  let payload ← payloadFromVal (← requiredField fields "payload" "packet")
  return ⟨metadata, payload⟩

def portBatchFromVal (value : Val) : Except PureflowError WitPortBatch := do
  let fields ← recordFields value "port batch"
  let portId ← requiredStringField fields "port-id" "port batch"
  let packets ← requiredListField fields "packets" "port batch"
  return ⟨portId, ← packets.mapM packetFromVal⟩

def portBatchesFromVal : Val → Except PureflowError (List WitPortBatch)
  | .list values => values.mapM portBatchFromVal
  | _ => .error (.execution "guest returned non-list batch output")

/-- What the guest returned, as the outputs of the batch. -/
def batchOutputsFromVal (json : JsonCodec) (value : Val) : Except PureflowError BatchOutputs := do
  fromWitPortBatches json (← portBatchesFromVal value)

def batchErrorFromVal : Val → PureflowError
  | .variant name (some (.string message)) => .execution s!"guest returned {name}: {message}"
  | .variant name (some _) => .execution s!"guest returned malformed {name} error"
  | .variant name none => .execution s!"guest returned {name} without detail"
  | _ => .execution "guest returned malformed batch error"

def batchOutputsFromResultVal (json : JsonCodec) : Val → Except PureflowError BatchOutputs
  | .result (.ok (some value)) => batchOutputsFromVal json value
  | .result (.ok none) => .error (.execution "guest returned empty ok result from batch.invoke")
  | .result (.error (some value)) => .error (batchErrorFromVal value)
  | .result (.error none) => .error (.execution "guest returned empty error from batch.invoke")
  | _ => .error (.execution "guest returned non-result from batch.invoke")

end Decoding

section Fields

variable {fields : List (String × Val)} {name context : String}

/-- The first field of this name has this value. -/
def HasField (fields : List (String × Val)) (name : String) (value : Val) : Prop :=
  ∃ before after, fields = before ++ (name, value) :: after ∧ ∀ field ∈ before, field.1 ≠ name

lemma lookup_eq_some {value : Val} :
    fields.lookup name = some value ↔ HasField fields name value := by
  simp [List.lookup_eq_some_iff, HasField, ne_comm]

lemma hasField_head {value : Val} {rest : List (String × Val)} :
    HasField ((name, value) :: rest) name value :=
  ⟨[], rest, rfl, by simp⟩

lemma HasField.tail {value other : Val} {name' : String} (h : HasField fields name value)
    (hne : name' ≠ name) : HasField ((name', other) :: fields) name value := by
  obtain ⟨before, after, rfl, hbefore⟩ := h
  refine ⟨(name', other) :: before, after, rfl, ?_⟩
  rw [List.forall_mem_cons]
  exact ⟨hne, hbefore⟩

lemma recordFields_ok {value : Val} :
    recordFields value context = .ok fields ↔ value = .record fields := by
  cases value with
  | record fields' => simp [recordFields]
  | _ => simp [recordFields]

lemma requiredField_ok {value : Val} :
    requiredField fields name context = .ok value ↔ HasField fields name value := by
  rw [← lookup_eq_some]
  unfold requiredField
  cases fields.lookup name with
  | none => simp
  | some found => simp

lemma requiredStringField_ok {text : String} :
    requiredStringField fields name context = .ok text ↔ HasField fields name (.string text) := by
  simp only [requiredStringField, Result.bind_eq_ok, requiredField_ok]
  constructor
  · rintro ⟨value, hvalue, htext⟩
    cases value with
    | string s =>
      obtain rfl := Except.ok.inj htext
      exact hvalue
    | _ => cases htext
  · intro h
    exact ⟨_, h, rfl⟩

lemma requiredListField_ok {values : List Val} :
    requiredListField fields name context = .ok values ↔ HasField fields name (.list values) := by
  simp only [requiredListField, Result.bind_eq_ok, requiredField_ok]
  constructor
  · rintro ⟨value, hvalue, hvalues⟩
    cases value with
    | list items =>
      obtain rfl := Except.ok.inj hvalues
      exact hvalue
    | _ => cases hvalues
  · intro h
    exact ⟨_, h, rfl⟩

lemma requiredU32Field_ok {n : UInt32} :
    requiredU32Field fields name context = .ok n ↔ HasField fields name (.u32 n) := by
  simp only [requiredU32Field, Result.bind_eq_ok, requiredField_ok]
  constructor
  · rintro ⟨value, hvalue, hn⟩
    cases value with
    | u32 m =>
      obtain rfl := Except.ok.inj hn
      exact hvalue
    | _ => cases hn
  · intro h
    exact ⟨_, h, rfl⟩

end Fields

section Shapes

/-- The record of a message endpoint: two identifiers. -/
def IsEndpoint (value : Val) (endpoint : MessageEndpoint) : Prop :=
  ∃ fields, value = .record fields ∧ HasField fields "node-id" (.string endpoint.nodeId.value) ∧
    HasField fields "port-id" (.string endpoint.portId.value)

/-- The source of a route, which may be missing. -/
def IsRouteSource (value : Val) : Option MessageEndpoint → Prop
  | none => value = .option none
  | some source => ∃ inner, value = .option (some inner) ∧ IsEndpoint inner source

def IsRoute (value : Val) (route : MessageRoute) : Prop :=
  ∃ fields source target, value = .record fields ∧ HasField fields "source" source ∧
    IsRouteSource source route.source ∧ HasField fields "target" target ∧
    IsEndpoint target route.target

/-- The record of an execution: an identifier, and an attempt that is not zero. -/
def IsExecution (value : Val) (execution : ExecutionMetadata) : Prop :=
  ∃ fields, value = .record fields ∧
    HasField fields "execution-id" (.string execution.executionId.value) ∧
    HasField fields "attempt" (.u32 execution.attempt.value)

def IsMetadata (value : Val) (metadata : MessageMetadata) : Prop :=
  ∃ fields execution route, value = .record fields ∧
    HasField fields "message-id" (.string metadata.messageId.value) ∧
    HasField fields "workflow-id" (.string metadata.workflowId.value) ∧
    HasField fields "execution" execution ∧ IsExecution execution metadata.execution ∧
    HasField fields "route" route ∧ IsRoute route metadata.route

/-- A payload is a list of bytes, or the text of a JSON value. -/
def IsPayload (json : JsonCodec) (value : Val) : PacketPayload → Prop
  | .bytes bytes => value = .variant "bytes" (some (.list (bytes.map .u8)))
  | .control content =>
    ∃ text, value = .variant "control" (some (.string text)) ∧ json.fromStr text = .ok content

def IsPacket (json : JsonCodec) (value : Val) (packet : PortPacket) : Prop :=
  ∃ fields metadata payload, value = .record fields ∧ HasField fields "metadata" metadata ∧
    IsMetadata metadata packet.metadata ∧ HasField fields "payload" payload ∧
    IsPayload json payload packet.payload

/-- The record of the packets of one port. -/
def IsPortBatch (json : JsonCodec) (value : Val) (batch : PortId × List PortPacket) : Prop :=
  ∃ fields packets, value = .record fields ∧
    HasField fields "port-id" (.string batch.1.value) ∧
    HasField fields "packets" (.list packets) ∧ List.Forall₂ (IsPacket json) packets batch.2

/-- A list of port batches; ports may repeat. -/
def IsPortBatches (json : JsonCodec) (value : Val)
    (batches : List (PortId × List PortPacket)) : Prop :=
  ∃ values, value = .list values ∧ List.Forall₂ (IsPortBatch json) values batches

lemma identifier_ok {kind : IdentifierKind} {text : String} {id : Identifier kind} :
    identifier kind text = .ok id ↔ id.value = text := by
  unfold identifier
  rw [Result.mapError_eq_ok]
  constructor
  · exact Identifier.value_of_new
  · rintro rfl
    exact Identifier.new_value id

lemma endpointFromVal_ok {value : Val} {endpoint : MessageEndpoint} :
    endpointFromVal value = .ok endpoint ↔ IsEndpoint value endpoint := by
  obtain ⟨nodeId, portId⟩ := endpoint
  simp only [endpointFromVal, IsEndpoint, Result.bind_eq_ok, recordFields_ok,
    requiredStringField_ok, identifier_ok, pure, Except.pure, Except.ok.injEq,
    MessageEndpoint.mk.injEq]
  constructor
  · rintro ⟨fields, hfields, _, hnode, _, rfl, _, hport, _, rfl, rfl, rfl⟩
    exact ⟨fields, hfields, hnode, hport⟩
  · rintro ⟨fields, hfields, hnode, hport⟩
    exact ⟨fields, hfields, _, hnode, nodeId, rfl, _, hport, portId, rfl, rfl, rfl⟩

lemma routeSourceFromVal_ok {value : Val} {source : Option MessageEndpoint} :
    routeSourceFromVal value = .ok source ↔ IsRouteSource value source := by
  cases value with
  | option inner =>
    cases inner with
    | none => cases source <;> simp [routeSourceFromVal, IsRouteSource]
    | some inner =>
      cases source <;> simp [routeSourceFromVal, IsRouteSource, endpointFromVal_ok, pure,
        Except.pure]
  | _ => cases source <;> simp [routeSourceFromVal, IsRouteSource]

lemma routeFromVal_ok {value : Val} {route : MessageRoute} :
    routeFromVal value = .ok route ↔ IsRoute value route := by
  obtain ⟨source, target⟩ := route
  simp only [routeFromVal, IsRoute, Result.bind_eq_ok, recordFields_ok, requiredField_ok,
    routeSourceFromVal_ok, endpointFromVal_ok, pure, Except.pure, Except.ok.injEq,
    MessageRoute.mk.injEq]
  constructor
  · rintro ⟨fields, hfields, sourceVal, hsource, _, hs, targetVal, htarget, _, ht, rfl, rfl⟩
    exact ⟨fields, sourceVal, targetVal, hfields, hsource, hs, htarget, ht⟩
  · rintro ⟨fields, sourceVal, targetVal, hfields, hsource, hs, htarget, ht⟩
    exact ⟨fields, hfields, sourceVal, hsource, source, hs, targetVal, htarget, target, ht, rfl, rfl⟩

lemma attemptFromVal_ok {n : UInt32} {attempt : ExecutionAttempt} :
    attemptFromVal n = .ok attempt ↔ attempt.value = n := by
  obtain ⟨value, hvalue⟩ := attempt
  unfold attemptFromVal
  split_ifs with hn
  · simp [eq_comm]
  · simp only [false_iff]
    rintro rfl
    exact hn hvalue

lemma executionFromVal_ok {value : Val} {execution : ExecutionMetadata} :
    executionFromVal value = .ok execution ↔ IsExecution value execution := by
  obtain ⟨executionId, attempt⟩ := execution
  simp only [executionFromVal, IsExecution, Result.bind_eq_ok, recordFields_ok,
    requiredStringField_ok, requiredU32Field_ok, identifier_ok, attemptFromVal_ok, pure,
    Except.pure, Except.ok.injEq, ExecutionMetadata.mk.injEq]
  constructor
  · rintro ⟨fields, hfields, _, hid, _, rfl, _, hattempt, _, rfl, rfl, rfl⟩
    exact ⟨fields, hfields, hid, hattempt⟩
  · rintro ⟨fields, hfields, hid, hattempt⟩
    exact ⟨fields, hfields, _, hid, executionId, rfl, _, hattempt, attempt, rfl, rfl, rfl⟩

lemma metadataFromVal_ok {value : Val} {metadata : MessageMetadata} :
    metadataFromVal value = .ok metadata ↔ IsMetadata value metadata := by
  obtain ⟨messageId, workflowId, execution, route⟩ := metadata
  simp only [metadataFromVal, IsMetadata, Result.bind_eq_ok, recordFields_ok, requiredField_ok,
    requiredStringField_ok, identifier_ok, executionFromVal_ok, routeFromVal_ok, pure,
    Except.pure, Except.ok.injEq, MessageMetadata.mk.injEq]
  constructor
  · rintro ⟨fields, hfields, _, hmessage, _, rfl, _, hworkflow, _, rfl, executionVal, hexecution,
      _, he, routeVal, hroute, _, hr, rfl, rfl, rfl, rfl⟩
    exact ⟨fields, executionVal, routeVal, hfields, hmessage, hworkflow, hexecution, he, hroute, hr⟩
  · rintro ⟨fields, executionVal, routeVal, hfields, hmessage, hworkflow, hexecution, he, hroute,
      hr⟩
    exact ⟨fields, hfields, _, hmessage, messageId, rfl, _, hworkflow, workflowId, rfl,
      executionVal, hexecution, execution, he, routeVal, hroute, route, hr, rfl, rfl, rfl, rfl⟩

lemma bytesFromVal_ok {value : Val} {bytes : List UInt8} :
    bytesFromVal value = .ok bytes ↔ value = .list (bytes.map .u8) := by
  have hbyte (v : Val) (byte : UInt8) : byteFromVal v = .ok byte ↔ v = .u8 byte := by
    cases v with
    | u8 n => simp [byteFromVal]
    | _ => simp [byteFromVal]
  cases value with
  | list values =>
    simp only [bytesFromVal, Result.mapM_eq_ok, hbyte, Val.list.injEq]
    rw [← List.forall₂_eq_eq_eq, List.forall₂_map_right_iff]
  | _ => simp [bytesFromVal]

lemma asVariant_ok {value : Val} {context name : String} {inner : Option Val} :
    asVariant value context = .ok (name, inner) ↔ value = .variant name inner := by
  cases value with
  | variant name' inner' => simp [asVariant]
  | _ => simp [asVariant]

lemma payloadFromVal_ok {value : Val} {payload : WitPayload} :
    payloadFromVal value = .ok payload ↔ value = payloadToVal payload := by
  simp only [payloadFromVal, Result.bind_eq_ok, Prod.exists, asVariant_ok]
  constructor
  · rintro ⟨name, inner, rfl, hpayload⟩
    split at hpayload
    · next bytesVal heq =>
      obtain ⟨rfl, rfl⟩ := Prod.mk.inj heq
      obtain ⟨bytes, hbytes, hret⟩ := Result.bind_eq_ok.mp hpayload
      obtain rfl := Except.ok.inj hret
      rw [bytesFromVal_ok.mp hbytes]
      rfl
    · next textVal heq =>
      obtain ⟨rfl, rfl⟩ := Prod.mk.inj heq
      split at hpayload
      · obtain rfl := Except.ok.inj hpayload
        rfl
      · cases hpayload
    · cases hpayload
  · rintro rfl
    cases payload with
    | bytes bytes =>
      refine ⟨"bytes", _, rfl, ?_⟩
      have hbytes : bytesFromVal (bytesToListVal bytes) = .ok bytes := bytesFromVal_ok.mpr rfl
      simp [hbytes, pure, Except.pure, bind, Except.bind]
    | control text => exact ⟨"control", _, rfl, rfl⟩

lemma packet_decodes {json : JsonCodec} {value : Val} {packet : PortPacket} :
    (∃ wit, packetFromVal value = .ok wit ∧ fromWitPacket json wit = .ok packet) ↔
      IsPacket json value packet := by
  obtain ⟨metadata, payload⟩ := packet
  simp only [packetFromVal, IsPacket, Result.bind_eq_ok, recordFields_ok, requiredField_ok,
    metadataFromVal_ok, payloadFromVal_ok, pure, Except.pure, Except.ok.injEq]
  constructor
  · rintro ⟨_, ⟨fields, hfields, metadataVal, hmetadata, metadata', hm, payloadVal, hpayload,
      wit, rfl, rfl⟩, hpacket⟩
    refine ⟨fields, metadataVal, payloadToVal wit, hfields, hmetadata, ?_, hpayload, ?_⟩
    · cases wit with
      | bytes bytes =>
        cases hpacket
        exact hm
      | control text =>
        unfold fromWitPacket at hpacket
        dsimp only at hpacket
        split at hpacket
        · cases hpacket
          exact hm
        · cases hpacket
    · cases wit with
      | bytes bytes =>
        cases hpacket
        rfl
      | control text =>
        unfold fromWitPacket at hpacket
        dsimp only at hpacket
        split at hpacket
        · next content hcontent =>
          cases hpacket
          exact ⟨text, rfl, hcontent⟩
        · cases hpacket
  · rintro ⟨fields, metadataVal, payloadVal, hfields, hmetadata, hm, hpayload, hp⟩
    cases payload with
    | bytes bytes =>
      exact ⟨_, ⟨fields, hfields, metadataVal, hmetadata, metadata, hm, payloadVal, hpayload,
        .bytes bytes, hp, rfl⟩, rfl⟩
    | control content =>
      obtain ⟨text, htext, hcontent⟩ := hp
      refine ⟨_, ⟨fields, hfields, metadataVal, hmetadata, metadata, hm, payloadVal, hpayload,
        .control text, htext, rfl⟩, ?_⟩
      simp only [fromWitPacket, hcontent]

end Shapes

section Decoded

variable {json : JsonCodec}

/-- The packets of a batch, pushed under their port one after the other. -/
def pushBatch (outputs : BatchOutputs) (batch : PortId × List PortPacket) : BatchOutputs :=
  batch.2.foldl (fun outputs packet => outputs.push batch.1 packet) outputs

lemma fromWitPackets_ok {portId : PortId} {packets : List WitPacket}
    {outputs outputs' : BatchOutputs} :
    fromWitPackets json portId packets outputs = .ok outputs' ↔
      ∃ decoded, List.Forall₂ (fun wit packet => fromWitPacket json wit = .ok packet) packets
        decoded ∧ outputs' = pushBatch outputs (portId, decoded) := by
  unfold fromWitPackets pushBatch
  dsimp only
  refine Result.foldlM_eq_ok fun outputs packet outputs' => ?_
  simp only [Result.bind_eq_ok, pure, Except.pure, Except.ok.injEq]
  exact exists_congr fun decoded => and_congr_right fun _ => eq_comm

/-- What a port batch of the interface is converted to. -/
def Converts (json : JsonCodec) (wit : WitPortBatch) (batch : PortId × List PortPacket) : Prop :=
  batch.1.value = wit.portId ∧
    List.Forall₂ (fun wit packet => fromWitPacket json wit = .ok packet) wit.packets batch.2

lemma fromWitPortBatches_ok {portBatches : List WitPortBatch} {outputs : BatchOutputs} :
    fromWitPortBatches json portBatches = .ok outputs ↔
      ∃ batches, List.Forall₂ (Converts json) portBatches batches ∧
        outputs = batches.foldl pushBatch .new := by
  unfold fromWitPortBatches
  refine Result.foldlM_eq_ok fun outputs portBatch outputs' => ?_
  simp only [Result.bind_eq_ok, identifier_ok, fromWitPackets_ok, Converts]
  constructor
  · rintro ⟨portId, hport, decoded, hdecoded, rfl⟩
    exact ⟨(portId, decoded), ⟨hport, hdecoded⟩, rfl⟩
  · rintro ⟨⟨portId, decoded⟩, ⟨hport, hdecoded⟩, rfl⟩
    exact ⟨portId, hport, decoded, hdecoded, rfl⟩

lemma portBatch_decodes {value : Val} {batch : PortId × List PortPacket} :
    (∃ wit, portBatchFromVal value = .ok wit ∧ Converts json wit batch) ↔
      IsPortBatch json value batch := by
  simp only [portBatchFromVal, IsPortBatch, Converts, Result.bind_eq_ok, recordFields_ok,
    requiredStringField_ok, requiredListField_ok, Result.mapM_eq_ok, pure, Except.pure,
    Except.ok.injEq]
  constructor
  · rintro ⟨_, ⟨fields, hfields, _, hport, packets, hpackets, wits, hwits, rfl⟩, hid, hdecoded⟩
    dsimp only at hid hdecoded
    refine ⟨fields, packets, hfields, hid ▸ hport, hpackets, ?_⟩
    exact (Result.forall₂_comp.mp ⟨wits, hwits, hdecoded⟩).imp fun _ _ => packet_decodes.mp
  · rintro ⟨fields, packets, hfields, hport, hpackets, hdecoded⟩
    obtain ⟨wits, hwits, hconverted⟩ :=
      Result.forall₂_comp.mpr (hdecoded.imp fun _ _ => packet_decodes.mpr)
    exact ⟨⟨batch.1.value, wits⟩,
      ⟨fields, hfields, _, hport, packets, hpackets, wits, hwits, rfl⟩, rfl, hconverted⟩

/-- **What is decoded**: the port batches of a well shaped list, pushed in order. -/
lemma batchOutputsFromVal_ok {value : Val} {outputs : BatchOutputs} :
    batchOutputsFromVal json value = .ok outputs ↔
      ∃ batches, IsPortBatches json value batches ∧ outputs = batches.foldl pushBatch .new := by
  simp only [batchOutputsFromVal, IsPortBatches, Result.bind_eq_ok, fromWitPortBatches_ok]
  constructor
  · rintro ⟨wits, hwits, batches, hbatches, rfl⟩
    cases value with
    | list values =>
      rw [portBatchesFromVal, Result.mapM_eq_ok] at hwits
      refine ⟨batches, ⟨values, rfl, ?_⟩, rfl⟩
      exact (Result.forall₂_comp.mp ⟨wits, hwits, hbatches⟩).imp fun _ _ => portBatch_decodes.mp
    | _ => cases hwits
  · rintro ⟨batches, ⟨values, rfl, hbatches⟩, rfl⟩
    obtain ⟨wits, hwits, hconverted⟩ :=
      Result.forall₂_comp.mpr (hbatches.imp fun _ _ => portBatch_decodes.mpr)
    refine ⟨wits, ?_, batches, hconverted, rfl⟩
    rw [portBatchesFromVal, Result.mapM_eq_ok]
    exact hwits

lemma pushBatch_packets (outputs : BatchOutputs) (batch : PortId × List PortPacket)
    (portId : PortId) : (pushBatch outputs batch).packets portId =
      outputs.packets portId ++ if batch.1 = portId then batch.2 else [] := by
  obtain ⟨port, packets⟩ := batch
  unfold pushBatch
  dsimp only
  induction packets generalizing outputs with
  | nil => simp
  | cons packet rest ih =>
    rw [List.foldl_cons, ih, BatchOutputs.packets_push, List.append_assoc]
    by_cases h : port = portId
    · simp [h]
    · simp [h]

lemma foldl_pushBatch_packets (batches : List (PortId × List PortPacket)) (outputs : BatchOutputs)
    (portId : PortId) : (batches.foldl pushBatch outputs).packets portId =
      outputs.packets portId ++ (batches.filter (·.1 = portId)).flatMap Prod.snd := by
  induction batches generalizing outputs with
  | nil => simp
  | cons batch rest ih =>
    rw [List.foldl_cons, ih, pushBatch_packets, List.append_assoc]
    by_cases h : batch.1 = portId
    · simp [h]
    · simp [h]

lemma foldl_pushBatch_noEmpty (batches : List (PortId × List PortPacket)) {outputs : BatchOutputs}
    (h : Grouping.NoEmpty outputs.packetsByPort) :
    Grouping.NoEmpty (batches.foldl pushBatch outputs).packetsByPort := by
  have hpush (outputs : BatchOutputs) (batch : PortId × List PortPacket)
      (h : Grouping.NoEmpty outputs.packetsByPort) :
      Grouping.NoEmpty (pushBatch outputs batch).packetsByPort :=
    List.foldlRecOn (motive := fun o : BatchOutputs => Grouping.NoEmpty o.packetsByPort) batch.2 _ h
      fun _ hb packet _ => hb.push batch.1 packet
  exact List.foldlRecOn (motive := fun o : BatchOutputs => Grouping.NoEmpty o.packetsByPort) batches
    _ h fun outputs hb batch _ => hpush outputs batch hb

end Decoded

section Encoded

variable {json : JsonCodec}

/-- A payload whose JSON text parses back to the same value; bytes carry no JSON. -/
def JsonCodec.Faithful (json : JsonCodec) : PacketPayload → Prop
  | .bytes _ => True
  | .control value => json.fromStr (json.toString value) = .ok value

lemma endpointToVal_shape (endpoint : MessageEndpoint) :
    IsEndpoint (endpointToVal endpoint) endpoint :=
  ⟨_, rfl, hasField_head, hasField_head.tail (by decide)⟩

lemma routeToVal_shape (route : MessageRoute) : IsRoute (routeToVal route) route := by
  refine ⟨_, _, _, rfl, hasField_head, ?_, hasField_head.tail (by decide),
    endpointToVal_shape route.target⟩
  cases route.source with
  | none => rfl
  | some source => exact ⟨_, rfl, endpointToVal_shape source⟩

lemma metadataToVal_shape (metadata : MessageMetadata) :
    IsMetadata (metadataToVal metadata) metadata := by
  refine ⟨_, _, _, rfl, hasField_head, hasField_head.tail (by decide),
    (hasField_head.tail (by decide)).tail (by decide), ?_,
    ((hasField_head.tail (by decide)).tail (by decide)).tail (by decide),
    routeToVal_shape metadata.route⟩
  exact ⟨_, rfl, hasField_head, hasField_head.tail (by decide)⟩

lemma toWitPacket_shape {packet : PortPacket} (h : json.Faithful packet.payload) :
    ∃ wit, toWitPacket json packet = .ok wit ∧ IsPacket json (packetToVal wit) packet := by
  obtain ⟨metadata, payload⟩ := packet
  have hmetadata := metadataToVal_shape metadata
  cases payload with
  | bytes bytes =>
    exact ⟨⟨metadata, .bytes bytes⟩, rfl, _, _, _, rfl, hasField_head, hmetadata,
      hasField_head.tail (by decide), rfl⟩
  | control value =>
    exact ⟨⟨metadata, .control (json.toString value)⟩, rfl, _, _, _, rfl, hasField_head, hmetadata,
      hasField_head.tail (by decide), _, rfl, h⟩

lemma mapM_shape {α β : Type} {encode : α → Except PureflowError β} {toVal : β → Val}
    {Shape : Val → α → Prop} {xs : List α}
    (h : ∀ x ∈ xs, ∃ y, encode x = .ok y ∧ Shape (toVal y) x) :
    ∃ ys, xs.mapM encode = .ok ys ∧ List.Forall₂ Shape (ys.map toVal) xs := by
  obtain ⟨ys, hys⟩ := Result.exists_forall₂.mpr h
  refine ⟨ys, Result.mapM_eq_ok.mpr (hys.imp fun _ _ => And.left), ?_⟩
  rw [List.forall₂_map_left_iff]
  exact (hys.imp fun _ _ => And.right).flip

/-- **What is encoded** has the shape of the batches of the map. -/
lemma batchInputsToVal_shape {inputs : BatchInputs}
    (h : ∀ portId, ∀ packet ∈ inputs.packets portId, json.Faithful packet.payload) :
    ∃ value, batchInputsToVal json inputs = .ok value ∧
      IsPortBatches json value inputs.packetsByPort.toList := by
  have hbatch : ∀ batch ∈ inputs.packetsByPort.toList, ∃ wit : WitPortBatch,
      (do return ⟨toString batch.1, ← batch.2.mapM (toWitPacket json)⟩ :
        Except PureflowError WitPortBatch) = .ok wit ∧
      IsPortBatch json (portBatchToVal wit) batch := by
    rintro ⟨portId, packets⟩ hmem
    have hpackets : packets = inputs.packets portId := by
      rw [BatchInputs.packets, ExtTreeMap.mem_toList_iff_getElem?_eq_some.mp hmem,
        Option.getD_some]
    obtain ⟨wits, hwits, hshape⟩ : ∃ wits, packets.mapM (toWitPacket json) = .ok wits ∧
        List.Forall₂ (IsPacket json) (wits.map packetToVal) packets :=
      mapM_shape fun packet hpacket => toWitPacket_shape (h portId packet (hpackets ▸ hpacket))
    refine ⟨⟨portId.value, wits⟩, ?_, _, _, rfl, hasField_head, hasField_head.tail (by decide),
      hshape⟩
    dsimp only
    rw [hwits]
    rfl
  obtain ⟨wits, hwits, hshape⟩ := mapM_shape hbatch
  refine ⟨.list (wits.map portBatchToVal), ?_, _, rfl, hshape⟩
  have hconvert : toWitPortBatches json inputs = .ok wits := hwits
  rw [batchInputsToVal, hconvert]
  rfl

end Encoded

/-- **The batch codec.** Inputs whose control payloads survive their JSON text are encoded, and
decoding the encoding gives every port its packets in their order, and the same map if no port has
an empty list. A value is decoded if and only if it has the shape of port batches, its identifiers
are valid, its attempts are not zero and its control payloads are JSON texts; then the outputs hold
for every port the packets of its batches, one batch after the other, and nothing else. What the
call returned is decoded if it is an ok result with such a value. -/
theorem batch_codec_round_trip (json : JsonCodec) :
    (∀ inputs : BatchInputs,
      (∀ portId, ∀ packet ∈ inputs.packets portId, json.Faithful packet.payload) →
      ∃ value outputs, batchInputsToVal json inputs = .ok value ∧
        batchOutputsFromVal json value = .ok outputs ∧
        (∀ portId, outputs.packets portId = inputs.packets portId) ∧
        (Grouping.NoEmpty inputs.packetsByPort →
          outputs.packetsByPort = inputs.packetsByPort)) ∧
    (∀ value, (∃ outputs, batchOutputsFromVal json value = .ok outputs) ↔
      ∃ batches, IsPortBatches json value batches) ∧
    (∀ value batches, IsPortBatches json value batches →
      ∃ outputs, batchOutputsFromVal json value = .ok outputs ∧
        (∀ portId, outputs.packets portId =
          (batches.filter (·.1 = portId)).flatMap Prod.snd) ∧
        Grouping.NoEmpty outputs.packetsByPort) ∧
    (∀ result outputs, batchOutputsFromResultVal json result = .ok outputs ↔
      ∃ value, result = .result (.ok (some value)) ∧
        batchOutputsFromVal json value = .ok outputs) := by
  have hdecode (value : Val) (batches : List (PortId × List PortPacket))
      (hshape : IsPortBatches json value batches) :
      ∃ outputs, batchOutputsFromVal json value = .ok outputs ∧
        (∀ portId, outputs.packets portId =
          (batches.filter (·.1 = portId)).flatMap Prod.snd) ∧
        Grouping.NoEmpty outputs.packetsByPort := by
    refine ⟨_, batchOutputsFromVal_ok.mpr ⟨batches, hshape, rfl⟩, fun portId => ?_,
      foldl_pushBatch_noEmpty batches Grouping.noEmpty_empty⟩
    rw [foldl_pushBatch_packets, BatchOutputs.packets_new, List.nil_append]
  refine ⟨fun inputs hfaithful => ?_, fun value => ⟨?_, ?_⟩, hdecode, fun result outputs => ?_⟩
  · obtain ⟨value, hvalue, hshape⟩ := batchInputsToVal_shape hfaithful
    obtain ⟨outputs, houtputs, hpackets, hnoEmpty⟩ := hdecode value _ hshape
    have hsame (portId : PortId) : outputs.packets portId = inputs.packets portId := by
      rw [hpackets portId, Grouping.flatMap_filter_toList]
      rfl
    exact ⟨value, outputs, hvalue, houtputs, hsame, fun h => hnoEmpty.ext h hsame⟩
  · rintro ⟨outputs, houtputs⟩
    obtain ⟨batches, hshape, -⟩ := batchOutputsFromVal_ok.mp houtputs
    exact ⟨batches, hshape⟩
  · rintro ⟨batches, hshape⟩
    obtain ⟨outputs, houtputs, -⟩ := hdecode value batches hshape
    exact ⟨outputs, houtputs⟩
  · cases result with
    | result answer =>
      obtain (_ | value) | (_ | value) := answer
      · simp [batchOutputsFromResultVal]
      · simp [batchOutputsFromResultVal]
      · simp [batchOutputsFromResultVal]
      · simp [batchOutputsFromResultVal]
    | _ => simp [batchOutputsFromResultVal]

section Sample

/-- A writer and a parser that know two JSON values. -/
def sampleJson : JsonCodec where
  toString
    | .bool true => "true"
    | _ => "null"
  fromStr
    | "true" => .ok (.bool true)
    | "null" => .ok .null
    | _ => .error "expected value at line 1 column 1"

def samplePort : PortId := ⟨"in", port_in_valid⟩

def samplePacket (payload : PacketPayload) : PortPacket where
  metadata :=
    ⟨⟨"m", by decide⟩, ⟨"w", by decide⟩, .firstAttempt ⟨"e", by decide⟩,
      ⟨none, ⟨⟨"n", by decide⟩, samplePort⟩⟩⟩
  payload := payload

/-- Two packets on one port, bytes and a control value. -/
def sampleInputs : BatchInputs :=
  (BatchInputs.new.push samplePort (samplePacket (.bytes [1, 2]))).push samplePort
    (samplePacket (.control (.bool true)))

theorem batch_codec_round_trip_sample :
    ∃ value outputs, batchInputsToVal sampleJson sampleInputs = .ok value ∧
      batchOutputsFromVal sampleJson value = .ok outputs ∧
      ∀ portId, outputs.packets portId = sampleInputs.packets portId := by
  have hfaithful : ∀ portId, ∀ packet ∈ sampleInputs.packets portId,
      sampleJson.Faithful packet.payload := by
    intro portId packet hpacket
    simp only [sampleInputs, BatchInputs.packets_push, BatchInputs.packets_new] at hpacket
    split_ifs at hpacket
    · obtain rfl | rfl : packet = samplePacket (.bytes [1, 2]) ∨
          packet = samplePacket (.control (.bool true)) := by simpa using hpacket
      · exact trivial
      · rfl
    · cases hpacket
  obtain ⟨value, outputs, hvalue, houtputs, hpackets, -⟩ :=
    (batch_codec_round_trip sampleJson).1 sampleInputs hfaithful
  exact ⟨value, outputs, hvalue, houtputs, hpackets⟩

end Sample

end Pureflow.Wasm.Batch
