import Pureflow.Rules.Loop
import Pureflow.Wasm.Transport

/-!
The WASM rule node: it evaluates the rule set on each packet in a guest, and sends the packet
where the decision says.

What the guest does is a parameter, as is what Wasmtime does before the guest is called. The
watcher of a call looks at the token again and again until it sees a request or the call is over;
as a request is never taken back, the last look decides, and it is the only one modelled.
-/

namespace Pureflow.Wasm

open Std Pureflow.Types Pureflow.Core Pureflow.Lib Pureflow.Rules

/-- How a guest call ends that is not cancelled: its result or the text of a Wasmtime error, and
the fuel left. -/
structure CallOutcome where
  result : Except String Val
  remainingFuel : Option UInt64

/-- Map a failed guest call: fuel is named by what is left of it or by the text of the error. -/
def mapGuestCallError (err : String) (fuel : UInt64) (remainingFuel : Option UInt64) :
    PureflowError :=
  if remainingFuel = some 0 ∨ "fuel".toList <:+: (err.map Char.toLower).toList then
    .execution s!"guest exceeded Wasmtime fuel limit of {fuel} units"
  else .execution s!"guest invoke failed: {err}"

/-- A compiled rule guest with its limits: what goes wrong before a call, if anything does, and
how a call ends that is not interrupted. -/
structure RuleComponent where
  fuel : UInt64
  instantiate : Except PureflowError Unit
  call : Val → Val → CallOutcome
  jsonText : Json.Value → Except String String

namespace RuleComponent

variable (component : RuleComponent)

/-- What the guest is called with. -/
def params (ruleSet : Rules.RuleSet) (context : HostEvalContext) :
    Except PureflowError (Val × Val) := do
  component.instantiate
  return (← ruleSetToVal ruleSet, ← evalContextToVal component.jsonText context)

/-- What a call that was not interrupted returns. -/
def answer (params : Val × Val) : Except PureflowError Rules.RuleDecision :=
  let outcome := component.call params.1 params.2
  match outcome.result with
  | .error err => .error (mapGuestCallError err component.fuel outcome.remainingFuel)
  | .ok result => decisionFromResultVal result

/-- Evaluate a rule set against one packet context, interrupting the guest if cancellation is
requested while the call is in flight. -/
def evaluateWithCancellation (request : CancellationRequest) (ruleSet : Rules.RuleSet)
    (context : HostEvalContext) : PortM (Except PureflowError Rules.RuleDecision) := do
  if ← PortM.isCancelled then return .error (.cancellation request.reason)
  match component.params ruleSet context with
  | .error err => return .error err
  | .ok params =>
    -- the watcher's last look, while the guest runs or just after
    if ← PortM.isCancelled then return .error (.cancellation request.reason)
    return component.answer params

/-- An evaluation during which no cancellation is seen. -/
def evaluate (ruleSet : Rules.RuleSet) (context : HostEvalContext) :
    Except PureflowError Rules.RuleDecision := do
  component.answer (← component.params ruleSet context)

end RuleComponent

/-- A node that evaluates a rule set inside a WASM guest and routes each incoming packet. The
token of its run holds `request` once it is cancelled. -/
structure WasmRuleNode where
  ruleSet : Rules.RuleSet
  component : RuleComponent
  metadataSink : Bool
  jsonText : Json.Value → String
  request : CancellationRequest

/-- Build an owned evaluation context from packet routing metadata. -/
def buildHostContext (ctx : NodeContext) (packet : PortPacket) : HostEvalContext where
  payload := packet.payload
  tags := ∅
  sourceNode := packet.metadata.route.source.map fun ep => toString ep.nodeId
  arrivalPort := some (toString packet.metadata.route.target.portId)
  hopCount := 0
  workflowId := toString ctx.workflowId
  executionMetadata := ∅

namespace WasmRuleNode

variable (node : WasmRuleNode) (ctx : NodeContext)

def buildRuleEvalRecord (packet : PortPacket) (decision : Rules.RuleDecision) : RuleEvalRecord where
  nodeId := ctx.nodeId
  workflowId := ctx.workflowId
  execution := ctx.execution
  ruleSetId := node.ruleSet.id
  strategy := strategyToEval node.ruleSet.strategy
  matchedRule := decision.matchedRule
  actionTaken := actionToEval node.jsonText decision.action
  rulesEvaluated := .ofNat node.ruleSet.rules.length
  tagsApplied := decision.tagsApplied.map fun (k, v) => (k, scalarToJson v)
  sourceNode := packet.metadata.route.source.map (·.nodeId)
  arrivalPort := some packet.metadata.route.target.portId
  hopCount := 0
  tagsPresentAtEval := []
  conditionsEvaluated := decision.conditionsEvaluated

/-- What follows the evaluation of a packet. Forwarding and the actions are those of the native
node, text by text. -/
def act (counter : UInt64) (packet : PortPacket) :
    Except PureflowError Rules.RuleDecision → PortM LoopState
  | .error e =>
    return (counter, .returned (.error (.execution s!"wasm rule evaluation error: {e}")))
  | .ok decision => do
    PortM.record node.metadataSink (.ruleEval (node.buildRuleEvalRecord ctx packet decision))
    return (counter + 1, executeAction decision.action ctx counter packet)

/-- A packet was received: evaluate it in the guest, record the decision and act on it. -/
def process (counter : UInt64) (packet : PortPacket) : PortM LoopState := do
  let answer ← node.component.evaluateWithCancellation node.request node.ruleSet
    (buildHostContext ctx packet)
  node.act ctx counter packet answer

def loop : RuleLoop where
  process := node.process ctx
  undeclared portId := .execution s!"wasm rule node: input port `{portId}` not declared"
  cancelledWaiting := .cancellation "wasm rule node cancelled while waiting for input"
  cancelledAfter := .cancellation "wasm rule node cancelled after processing packet"

end WasmRuleNode

/-- A rule node of either kind. -/
inductive RuleExecutor
  | native (node : RuleNode)
  | wasm (node : WasmRuleNode)

def RuleExecutor.loop (ctx : NodeContext) : RuleExecutor → RuleLoop
  | .native node => node.loop ctx
  | .wasm node => node.loop ctx

/-- What a packet that was received leads to: its evaluation fails, or the counter moves on and an
action is executed. -/
inductive Handled (ctx : NodeContext) (counter : UInt64) (packet : PortPacket) : LoopState → Prop
  | failed (err : PureflowError) : Handled ctx counter packet (counter, .returned (.error err))
  | acted (action : RuleAction) :
    Handled ctx counter packet (counter + 1, executeAction action ctx counter packet)

lemma Handled.counter {ctx : NodeContext} {counter : UInt64} {packet : PortPacket} {s : LoopState}
    (h : Handled ctx counter packet s) : s.1 = counter ∨ s.1 = counter + 1 := by
  cases h with
  | failed err => exact .inl rfl
  | acted action => exact .inr rfl

lemma Handled.sending {ctx : NodeContext} {counter counter' : UInt64} {packet : PortPacket}
    {send : PendingSend} (h : Handled ctx counter packet (counter', .sending send)) :
    counter' = counter + 1 ∧ forwardPacket ctx send.portId counter packet = .ok send.packet := by
  generalize hs : (counter', Stage.sending send) = s at h
  cases h with
  | failed err => cases hs
  | acted action =>
    obtain ⟨rfl, hsend⟩ := Prod.mk.inj hs
    exact ⟨rfl, executeAction_sending hsend.symm⟩

/-- **Both kinds of node** evaluate a packet and act on it. -/
lemma RuleExecutor.process_cases (node : RuleExecutor) (ctx : NodeContext) (counter : UInt64)
    (packet : PortPacket) :
    ((node.loop ctx).process counter packet).Ends (Handled ctx counter packet) := by
  cases node with
  | native node =>
    show (node.process ctx counter packet).Ends _
    unfold RuleNode.process
    split
    · exact .failed _
    · rw [Prog.ends_bind]
      exact Prog.ends_of_forall (fun _ => .acted _) _
  | wasm node =>
    show (node.process ctx counter packet).Ends _
    unfold WasmRuleNode.process
    rw [Prog.ends_bind]
    refine Prog.ends_of_forall (fun answer => ?_) _
    rcases answer with e | decision
    · exact .failed _
    · rw [WasmRuleNode.act, Prog.ends_bind]
      exact Prog.ends_of_forall (fun _ => .acted _) _

lemma buildHostContext_eq (ctx : NodeContext) (packet : PortPacket) :
    buildHostContext ctx packet = .ofNative packet.payload (evalContext ctx packet) := by
  unfold buildHostContext HostEvalContext.ofNative evalContext
  rw [Option.map_map]
  rfl

end Pureflow.Wasm
