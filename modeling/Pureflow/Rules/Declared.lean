import Pureflow.Contract.RuleSets
import Pureflow.Contract.Validation
import Pureflow.Core.Guards
import Pureflow.Engine.Contracts
import Pureflow.Rules.Node

/-!
Validated rule sets name only declared ports.

The validator looks at the actions of all rules and at the default action, and the evaluator takes
one of these. The port an action is executed on is then one the host declares, and a send on a
declared port finds it.
-/

namespace Pureflow.Rules

open Std Pureflow.Types Pureflow.Core Pureflow.Lib Pureflow.Workflow Pureflow.Contract
  Pureflow.Engine

variable {workflow : WorkflowDefinition} {host : NodeDefinition} {ruleSet : RuleSet}

lemma target_declared {site : ActionSite} {action : RuleAction}
    (h : validateAction ruleSet host site action = []) {portId : PortId}
    (htarget : action.target = some portId) : portId ∈ host.outputPorts := by
  cases action with
  | route port =>
    cases htarget
    by_contra hmem
    simp [validateAction, hmem] at h
  | deadLetter reason =>
    cases htarget
    have hany : ∃ port ∈ host.outputPorts, port.value = deadLetterPortName := by
      simpa [validateAction] using h
    obtain ⟨port, hmem, hname⟩ := hany
    -- both crates write the same name
    have hsame : port = deadLetterPort := by
      cases port
      cases hname
      rfl
    exact hsame ▸ hmem
  | drop => cases htarget
  | tag key value => cases htarget
  | halt message => cases htarget

lemma actions_valid (hhost : host ∈ workflow.nodes)
    (h : validateRuleSet workflow host.id ruleSet = .ok ()) {action : RuleAction}
    (haction : ruleSet.Takes action) : ∃ site, validateAction ruleSet host site action = [] := by
  have hnone : ruleSetViolations workflow host.id ruleSet = [] := by
    unfold validateRuleSet at h
    split at h
    · assumption
    · cases h
  rw [ruleSetViolations, find_node_eq_some.mpr ⟨hhost, rfl⟩] at hnone
  simp only [List.append_eq_nil_iff, List.flatMap_eq_nil_iff] at hnone
  obtain ⟨⟨hrules, hdefault⟩, -⟩ := hnone
  rcases haction with rfl | ⟨rule, hrule, rfl⟩
  · exact ⟨_, hdefault⟩
  · exact ⟨_, hrules rule hrule⟩

lemma executeAction_target {action : RuleAction} {ctx : NodeContext} {seq : UInt64}
    {packet : PortPacket} {send : PendingSend}
    (h : executeAction action ctx seq packet = .sending send) :
    action.target = some send.portId := by
  have hstart {portId : PortId} {reason : Option String}
      (hsend : startSend ctx portId seq packet reason = .sending send) :
      some portId = some send.portId := by
    unfold startSend at hsend
    split at hsend
    · cases hsend
    · cases hsend
      rfl
  cases action with
  | route portId => exact hstart h
  | deadLetter reason => exact hstart h
  | drop => cases h
  | tag key value => cases h
  | halt message => cases h

section Sending

/-- The send does not say that its port is unknown. -/
def Known (answer : Except PortSendError Unit) : Prop :=
  ∀ portId, answer ≠ .error (.unknownPort portId)

lemma permit_send_known {permit : OutputPortSendPermit} {packet : PortPacket}
    (h : ∀ validator ∈ permit.validator, ∀ portId packet, Known (validator portId packet)) :
    (permit.send packet).Ends Known := by
  have hvalidate : Known (permit.validate packet) := by
    unfold OutputPortSendPermit.validate
    split
    · next validator hvalidator => exact h validator hvalidator _ _
    · exact fun portId => by simp
  unfold OutputPortSendPermit.send
  split
  · next err herr =>
    rw [Prog.ends_bind]
    exact Prog.ends_of_forall (fun _ portId => herr ▸ hvalidate portId) _
  · simp only [Prog.ends_bind]
    refine Prog.ends_of_forall (fun _ => Prog.ends_of_forall (fun _ => ?_) _) _
    exact Prog.ends_of_forall (fun _ portId => by simp) _

lemma send_known {outputs : PortsOut} {port : OutputPortHandle} {portId : PortId}
    (hport : PortHandle.find outputs.ports portId = some port)
    (hvalidator : ∀ validator ∈ outputs.validator, ∀ portId packet, Known (validator portId packet))
    (packet : PortPacket) :
    (outputs.send portId packet).Ends fun answer =>
      ∀ portId, answer ≠ .ready (.error (.unknownPort portId)) := by
  rw [PortsOut.send, PortsOut.reserve, hport, Prog.ends_bind]
  refine (reserve_issues port _ _ _).mono fun poll hpoll => ?_
  rcases poll with (err | permit) | _
  · rintro other ⟨⟩
    exact hpoll _ rfl other rfl
  · simp only [Prog.ends_bind]
    obtain ⟨-, -, hpermit, -⟩ := hpoll _ rfl
    refine (permit_send_known (hpermit ▸ hvalidator)).mono fun answer hknown other h => ?_
    cases h
    exact hknown other rfl
  · rintro other ⟨⟩

end Sending

/-- The outputs a node is run with: handles for its declared ports, and no validator or that of
its output contracts. -/
structure BuiltFor (host : NodeDefinition) (outputs : PortsOut) : Prop where
  ports : ∃ handles, outputs.ports = PortHandle.fromHandles host.outputPorts handles
  validator : ∀ validator ∈ outputs.validator,
    ∃ v : ContractOutputValidator, validator = v.validate

lemma contract_validator_known (v : ContractOutputValidator) (portId : PortId)
    (packet : PortPacket) : Known (v.validate portId packet) := by
  intro other h
  unfold ContractOutputValidator.validate ContractOutputValidator.reject at h
  split_ifs at h
  · cases h
  · cases h
  · split at h
    · cases h
    · split_ifs at h
      cases h
  · cases h

/-- **Validated rule sets do not hit an undeclared port.** Whatever the packet and the context it is
evaluated in, executing the decision on the outputs of the host never answers that a port is
unknown, in any poll of the send. -/
theorem validated_ports_declared (workflow : WorkflowDefinition) (host : NodeDefinition)
    (ruleSet : RuleSet) (hhost : host ∈ workflow.nodes)
    (h : validateRuleSet workflow host.id ruleSet = .ok ()) (packet : PortPacket)
    (context : EvalContext) (decision : RuleDecision)
    (hdecision : evaluate ruleSet packet context = .ok decision) (ctx : NodeContext) (seq : UInt64)
    (outputs : PortsOut) (houtputs : BuiltFor host outputs) (send : PendingSend)
    (hsend : executeAction decision.action ctx seq packet = .sending send) :
    (outputs.send send.portId send.packet).Ends fun answer =>
      ∀ portId, answer ≠ .ready (.error (.unknownPort portId)) := by
  obtain ⟨site, hvalid⟩ := actions_valid hhost h (evaluate_takes hdecision)
  have hdeclared := target_declared hvalid (executeAction_target hsend)
  obtain ⟨handles, hports⟩ := houtputs.ports
  have hnd : host.outputPorts.Nodup := (List.nodup_append.mp (ports_nodup host)).2.1
  have hfind : PortHandle.find outputs.ports send.portId =
      some ⟨send.portId, endsAt handles send.portId⟩ := by
    rw [hports, fromHandles_eq hnd]
    exact find_map hdeclared
  refine send_known hfind (fun validator hvalidator portId packet => ?_) _
  obtain ⟨v, rfl⟩ := houtputs.validator validator hvalidator
  exact contract_validator_known v portId packet

section Sample

/-- A node with a port for dead letters only. -/
def sampleHost : NodeDefinition :=
  ⟨⟨"router", node_router_valid⟩, [inPort], [deadLetterPort], by decide⟩

def sampleWorkflow : WorkflowDefinition :=
  ⟨⟨"flow", workflow_flow_valid⟩, ⟨[sampleHost], [], by decide +kernel⟩⟩

/-- Rules that send everything to the dead letters. -/
def sampleRuleSet : RuleSet := ⟨"rules", .firstMatch, [], .deadLetter "unmatched", false⟩

theorem validated_ports_declared_sample :
    validateRuleSet sampleWorkflow sampleHost.id sampleRuleSet = .ok () ∧
    ∃ ctx send, executeAction (.deadLetter "unmatched") ctx 0 System.samplePacket = .sending send ∧
      ((PortsOut.fromHandles sampleHost.outputPorts []).send send.portId send.packet).Ends
        fun answer => ∀ portId, answer ≠ .ready (.error (.unknownPort portId)) := by
  have h : validateRuleSet sampleWorkflow sampleHost.id sampleRuleSet = .ok () := by
    decide +kernel
  let ctx : NodeContext := .new ⟨"flow", by decide⟩ ⟨"router", by decide⟩
    (.firstAttempt ⟨"run-1", by decide⟩)
  obtain ⟨forwarded, hforwarded⟩ : ∃ forwarded,
      forwardPacket ctx deadLetterPort 0 System.samplePacket = .ok forwarded := by
    exact Result.exists_ok (by decide +kernel)
  have hsend : executeAction (.deadLetter "unmatched") ctx 0 System.samplePacket =
      .sending ⟨deadLetterPort, forwarded, some "unmatched"⟩ := by
    simp only [executeAction, startSend, hforwarded]
  refine ⟨h, ctx, _, hsend, ?_⟩
  exact validated_ports_declared sampleWorkflow sampleHost sampleRuleSet List.mem_cons_self h
    System.samplePacket (evalContext ctx System.samplePacket) _ rfl ctx 0 _
    ⟨⟨[], rfl⟩, by simp [PortsOut.fromHandles]⟩ _ hsend

end Sample

end Pureflow.Rules
