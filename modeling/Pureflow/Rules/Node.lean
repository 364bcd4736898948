import Pureflow.Core.Ports
import Pureflow.Rules.Eval

/-!
The native rule node: it receives a packet, evaluates the rule set on it, and sends it where the
decision says, packet after packet.

Its future is a state machine. A stage is what the future waits for or does next, and a step is
the program it runs from one stage to the next one. The text of a JSON value in audit records is
left to the JSON library.
-/

namespace Pureflow.Rules

open Std Pureflow.Types Pureflow.Core Pureflow.Lib

/-- Native executor that evaluates a rule set against each incoming packet. -/
structure RuleNode where
  ruleSet : RuleSet
  metadataSink : Bool
  jsonText : Json.Value → String

def inPort : PortId := ⟨"in", port_in_valid⟩

def deadLetterPort : PortId := ⟨"dead_letter", by decide⟩

def strategyToEval : EvaluationStrategy → RuleEvalStrategy
  | .firstMatch => .firstMatch
  | .allMatches => .allMatches
  | .score => .score

def scalarToJson : ScalarValue → Json.Value
  | .string s => .string s
  | .integer n => .ofInt64 n
  | .float x => .ofF64 x
  | .boolean b => .bool b
  | .null => .null

def actionToEval (jsonText : Json.Value → String) : RuleAction → RuleEvalAction
  | .route port => .route port
  | .drop => .drop
  | .deadLetter reason => .deadLetter reason
  | .tag key value => .tag key (jsonText (scalarToJson value))
  | .halt message => .halt message

/-- The context a packet is evaluated in: no tags, no hops, and where the packet came from. -/
def evalContext (ctx : NodeContext) (packet : PortPacket) : EvalContext where
  tags := ∅
  sourceNode := packet.metadata.route.source.map (·.nodeId)
  arrivalPort := some packet.metadata.route.target.portId
  hopCount := 0
  workflowId := ctx.workflowId
  executionMetadata := ∅

def RuleNode.buildRuleEvalRecord (node : RuleNode) (ctx : NodeContext) (packet : PortPacket)
    (decision : RuleDecision) (tagsAtEval : ExtTreeMap String ScalarValue) : RuleEvalRecord where
  nodeId := ctx.nodeId
  workflowId := ctx.workflowId
  execution := ctx.execution
  ruleSetId := node.ruleSet.id
  strategy := strategyToEval node.ruleSet.strategy
  matchedRule := decision.matchedRule
  actionTaken := actionToEval node.jsonText decision.action
  rulesEvaluated := .ofNat node.ruleSet.rules.length
  tagsApplied := decision.tagsApplied.map fun (k, v) => (k, scalarToJson v)
  sourceNode := packet.metadata.route.source.map (·.nodeId)
  arrivalPort := some packet.metadata.route.target.portId
  hopCount := 0
  tagsPresentAtEval := tagsAtEval.toList.map fun (k, v) => (k, scalarToJson v)
  conditionsEvaluated := decision.conditionsEvaluated

/-- The text of the message id a forwarded packet is given. -/
def mintedId (ctx : NodeContext) (outputPort : PortId) (seq : UInt64) : String :=
  s!"{ctx.nodeId}-rule-{outputPort}-{seq}"

/-- Forward an incoming packet to a new output port, updating its routing metadata. -/
def forwardPacket (ctx : NodeContext) (outputPort : PortId) (seq : UInt64)
    (incoming : PortPacket) : Except PureflowError PortPacket :=
  match Identifier.new .message (mintedId ctx outputPort seq) with
  | .error e => .error (.execution s!"rule node message id error: {e}")
  | .ok messageId => .ok
    { metadata :=
        { messageId := messageId
          workflowId := ctx.workflowId
          execution := ctx.execution
          route := ⟨some ⟨ctx.nodeId, outputPort⟩, ⟨ctx.nodeId, outputPort⟩⟩ }
      payload := incoming.payload }

/-- A send that is waited for; a dead letter has a reason, which its errors name. -/
structure PendingSend where
  portId : PortId
  packet : PortPacket
  reason : Option String

def PendingSend.error (send : PendingSend) (e : PortSendError) : PureflowError :=
  match send.reason with
  | none => .execution (toString e)
  | some reason => .execution s!"dead-letter send failed ({reason}): {e}"

/-- What the future does next: poll the receive, for the first time or again; poll the send of a
packet; check for cancellation between two packets; or nothing more. -/
inductive Stage
  | receiving (polled : Bool)
  | sending (send : PendingSend)
  | between
  | returned (result : Except PureflowError Unit)

/-- Send a packet on: its id is minted before the send is first polled. -/
def startSend (ctx : NodeContext) (portId : PortId) (seq : UInt64) (packet : PortPacket)
    (reason : Option String) : Stage :=
  match forwardPacket ctx portId seq packet with
  | .error e => .returned (.error e)
  | .ok forwarded => .sending ⟨portId, forwarded, reason⟩

/-- Execute one routing action, up to the wait for its send. -/
def executeAction (action : RuleAction) (ctx : NodeContext) (seq : UInt64)
    (packet : PortPacket) : Stage :=
  match action with
  | .route portId => startSend ctx portId seq packet none
  | .drop => .between
  | .tag _ _ => .between
  | .deadLetter reason => startSend ctx deadLetterPort seq packet (some reason)
  | .halt message => .returned (.error (.execution s!"rule halted: {message}"))

/-- The port an action sends to. -/
def RuleAction.target : RuleAction → Option PortId
  | .route portId => some portId
  | .deadLetter _ => some deadLetterPort
  | _ => none

namespace RuleNode

variable (node : RuleNode) (ctx : NodeContext) (inputs : PortsIn) (outputs : PortsOut)

/-- A packet was received: evaluate it, record the decision and act on it. -/
def process (counter : UInt64) (packet : PortPacket) : PortM (UInt64 × Stage) := do
  match evaluate node.ruleSet packet (evalContext ctx packet) with
  | .error e => return (counter, .returned (.error (.execution s!"rule evaluation error: {e}")))
  | .ok decision =>
    PortM.record node.metadataSink (.ruleEval (node.buildRuleEvalRecord ctx packet decision ∅))
    return (counter + 1, executeAction decision.action ctx counter packet)

/-- One poll of the receive. -/
def pollInput (polled : Bool) : PortM (Poll (Except PortRecvError (Option PortPacket))) :=
  match polled, PortHandle.find inputs.ports inPort with
  | true, some port => inputs.recvPoll port
  | _, _ => inputs.recv inPort

/-- From one stage to the next one. -/
def step (counter : UInt64) : Stage → PortM (UInt64 × Stage)
  | .receiving polled => do
    match ← pollInput inputs polled with
    | .pending => return (counter, .receiving true)
    | .ready (.ok (some packet)) => node.process ctx counter packet
    | .ready (.ok none) => return (counter, .returned (.ok ()))
    | .ready (.error (.disconnected _)) => return (counter, .returned (.ok ()))
    | .ready (.error (.unknownPort portId)) =>
      return (counter,
        .returned (.error (.execution s!"rule node: input port `{portId}` not declared")))
    | .ready (.error (.cancelled _)) =>
      return (counter,
        .returned (.error (.cancellation "rule node cancelled while waiting for input")))
  | .sending send => do
    match ← outputs.send send.portId send.packet with
    | .pending => return (counter, .sending send)
    | .ready (.ok ()) => return (counter, .between)
    | .ready (.error e) => return (counter, .returned (.error (send.error e)))
  | .between => do
    if ← PortM.isCancelled then
      return (counter,
        .returned (.error (.cancellation "rule node cancelled after processing packet")))
    else return (counter, .receiving false)
  | .returned result => return (counter, .returned result)

end RuleNode

end Pureflow.Rules
