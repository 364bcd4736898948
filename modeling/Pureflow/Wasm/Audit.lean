import Pureflow.Wasm.Cancellation

/-!
The audit of a rule node: its packets, their rule-evaluation records and what is forwarded.

The audit of a run is read off its calls. It is complete if it goes packet by packet: the packet,
the record of its evaluation, and then the copies that are committed. The native node cannot be
interrupted between the first two; the WASM node can, and then the record is missing.
-/

namespace Pureflow.Wasm

open Std Pureflow.Types Pureflow.Core Pureflow.Lib Pureflow.Rules

/-- What an audit sees of a run. -/
inductive AuditEntry
  | received (packet : PortPacket)
  | recorded (record : RuleEvalRecord)
  | committed (packet : PortPacket)

/-- The rule-evaluation record that a call hands to the sink. -/
def ruleEval? : PortOp → Option RuleEvalRecord
  | .record (.ruleEval record) => some record
  | _ => none

/-- What the audit sees of one call. -/
def auditEntries (e : PortEvent) : List AuditEntry :=
  ((System.receives e.1 e.2).map fun p => .received p.2).toList ++
    ((ruleEval? e.1).map .recorded).toList ++
    ((System.commits e.1).map fun p => .committed p.2).toList

def audit (events : List PortEvent) : List AuditEntry := events.flatMap auditEntries

section Calls

variable {events : List PortEvent} {channels : List ℕ} {token : Bool} {packet : PortPacket}

@[simp] lemma audit_append (more : List PortEvent) :
    audit (events ++ more) = audit events ++ audit more := List.flatMap_append

lemma audit_receiving (h : ∀ e ∈ events, e.1.Receiving channels token) :
    audit events = ((receivedIn events).map Prod.snd).map .received := by
  induction events with
  | nil => rfl
  | cons e rest ih =>
    obtain ⟨hfirst, hrest⟩ := List.forall_mem_cons.mp h
    have hentries : auditEntries e =
        ((System.receives e.1 e.2).toList.map Prod.snd).map .received := by
      obtain ⟨op, answer⟩ := e
      cases op with
      | pollRecv c => rcases answer with (err | packet) | _ <;> rfl
      | record r => cases r <;> first | rfl | cases hfirst
      | _ => first | rfl | cases hfirst
    rw [receivedIn, filterMap_cons_toList, List.map_append, List.map_append, ← hentries,
      ← receivedIn, ← ih hrest]
    rfl

lemma audit_sending (h : ∀ e ∈ events, e.1.Sending channels packet) :
    audit events = ((committedIn events).map Prod.snd).map .committed ∧
      receivedIn events = [] := by
  induction events with
  | nil => exact ⟨rfl, rfl⟩
  | cons e rest ih =>
    obtain ⟨hfirst, hrest⟩ := List.forall_mem_cons.mp h
    obtain ⟨haudit, hreceived⟩ := ih hrest
    have hentries : auditEntries e =
        ((System.commits e.1).toList.map Prod.snd).map .committed ∧
        System.receives e.1 e.2 = none := by
      obtain ⟨op, answer⟩ := e
      cases op with
      | record r => cases r <;> first | exact ⟨rfl, rfl⟩ | cases hfirst
      | _ => first | exact ⟨rfl, rfl⟩ | cases hfirst
    constructor
    · rw [committedIn, filterMap_cons_toList, List.map_append, List.map_append, ← hentries.1,
        ← committedIn, ← haudit]
      rfl
    · rw [receivedIn, filterMap_cons_toList, hentries.2, ← receivedIn, hreceived]
      rfl

end Calls

section Complete

variable (node : RuleExecutor) (ctx : NodeContext)

def RuleExecutor.metadataSink : RuleExecutor → Bool
  | .native node => node.metadataSink
  | .wasm node => node.metadataSink

def RuleExecutor.IsWasm (node : RuleExecutor) : Prop := ∃ wasm, node = .wasm wasm

/-- The guest, if there is one, comes to a decision when it is not interrupted. -/
def RuleExecutor.Decides (packet : PortPacket) : RuleExecutor → Prop
  | .native _ => True
  | .wasm node => ∃ decision,
    node.component.evaluate node.ruleSet (buildHostContext ctx packet) = .ok decision

/-- A record of the evaluation of a packet. -/
def RuleExecutor.Records (packet : PortPacket) (record : RuleEvalRecord) : RuleExecutor → Prop
  | .native node => ∃ decision, evaluate node.ruleSet packet (evalContext ctx packet) = .ok decision ∧
    record = node.buildRuleEvalRecord ctx packet decision ∅
  | .wasm node => ∃ decision,
    node.component.evaluate node.ruleSet (buildHostContext ctx packet) = .ok decision ∧
      record = node.buildRuleEvalRecord ctx packet decision

/-- The copy of a packet that is sent on. -/
def Forwards (packet forwarded : PortPacket) : Prop :=
  ∃ portId seq, forwardPacket ctx portId seq packet = .ok forwarded

/-- **A complete audit**: packet by packet, each with its one record, and after that the copies
of it that were committed. -/
inductive Audited : List AuditEntry → Prop
  | nil : Audited []
  | packet {log : List AuditEntry} {packet : PortPacket} {record : RuleEvalRecord}
      {forwarded : List PortPacket} :
    Audited log → node.Records ctx packet record →
    (∀ p ∈ forwarded, Forwards ctx packet p) →
    Audited (log ++ .received packet :: .recorded record :: forwarded.map .committed)

/-- The audit at a stage: a packet whose send is waited for has its record, and no copy of it was
committed. -/
def AuditedAt (log : List AuditEntry) : Stage → Prop
  | .sending send => ∃ before packet record, log = before ++ [.received packet, .recorded record] ∧
    Audited node ctx before ∧ node.Records ctx packet record ∧ Forwards ctx packet send.packet
  | _ => Audited node ctx log

/-- In the turn that receives a packet a request for cancellation is seen. The turn goes on until
the packet is evaluated. -/
def Disturbed (events : List PortEvent) : Prop := receivedIn events ≠ [] ∧ SeesRequest events

variable {node : RuleExecutor} {ctx : NodeContext} {log : List AuditEntry} {stage : Stage}
  {packet : PortPacket} {record : RuleEvalRecord}

/-- A complete audit does not end in a packet. -/
lemma not_audited (log : List AuditEntry) (packet : PortPacket) :
    ¬ Audited node ctx (log ++ [.received packet]) := by
  intro h
  generalize hall : log ++ [AuditEntry.received packet] = all at h
  have hlast : all.getLast? = some (.received packet) := by rw [← hall, List.getLast?_concat]
  cases h with
  | nil => cases hlast
  | @packet before p record forwarded _ _ _ =>
    rcases List.eq_nil_or_concat forwarded with rfl | ⟨rest, last, rfl⟩
    · simp at hlast
    · simp [List.getLast?_append, List.getLast?_cons] at hlast

lemma AuditedAt.audited (h : AuditedAt node ctx log stage) : Audited node ctx log := by
  cases stage with
  | sending send =>
    obtain ⟨before, packet, record, rfl, hbefore, hrecord, -⟩ := h
    exact .packet hbefore hrecord (List.forall_mem_nil _)
  | receiving polled | between | returned result => exact h

lemma auditedAt_of_recorded (hlog : Audited node ctx log) (hrecord : node.Records ctx packet record)
    (hsend : ∀ send, stage = .sending send → Forwards ctx packet send.packet) :
    AuditedAt node ctx (log ++ [.received packet, .recorded record]) stage := by
  have haudited : Audited node ctx (log ++ [.received packet, .recorded record]) :=
    .packet hlog hrecord (List.forall_mem_nil _)
  cases stage with
  | sending send => exact ⟨log, packet, record, rfl, hlog, hrecord, hsend send rfl⟩
  | receiving polled | between | returned result => exact haudited

end Complete

section Turns

variable {node : RuleExecutor} {ctx : NodeContext} {inputs : PortsIn} {outputs : PortsOut}
  {counter : UInt64} {s s' : LoopState} {events : List PortEvent} {packet : PortPacket}
  {log : List AuditEntry}

/-- What the evaluation of a packet does to the audit. -/
inductive Processed (node : RuleExecutor) (ctx : NodeContext) (packet : PortPacket) :
    List PortEvent → Stage → Prop
  | recorded {events : List PortEvent} {stage : Stage} {record : RuleEvalRecord} :
    ¬ (node.IsWasm ∧ SeesRequest events) → audit events = [.recorded record] →
    node.Records ctx packet record →
    (∀ send, stage = .sending send → Forwards ctx packet send.packet) →
    Processed node ctx packet events stage
  | interrupted {events : List PortEvent} {result : Except PureflowError Unit} :
    node.IsWasm → SeesRequest events → audit events = [] →
    Processed node ctx packet events (.returned result)

lemma record_yields {record : RuleEvalRecord} {k : LoopState}
    (h : (do PortM.record true (.ruleEval record); return k : PortM LoopState).Yields events s) :
    audit events = [.recorded record] ∧ ¬ SeesRequest events ∧ s = k := by
  obtain ⟨_, recording, rest, rfl, hrecording, hrest⟩ := Prog.yields_bind.mp h
  obtain ⟨rfl, rfl⟩ := Prog.yields_ret.mp hrest
  obtain ⟨answer, none, rfl, hnone⟩ := Prog.yields_call.mp hrecording
  obtain ⟨rfl, -⟩ := Prog.yields_ret.mp hnone
  refine ⟨rfl, fun hmem => ?_, rfl⟩
  cases List.mem_singleton.mp hmem

lemma evaluation_cases {component : RuleComponent} {request : CancellationRequest}
    {ruleSet : Rules.RuleSet} {context : HostEvalContext} {decision : Rules.RuleDecision}
    {answer : Except PureflowError Rules.RuleDecision}
    (hdecision : component.evaluate ruleSet context = .ok decision)
    (h : (component.evaluateWithCancellation request ruleSet context).Yields events answer) :
    (audit events = [] ∧ ¬ SeesRequest events ∧ answer = .ok decision) ∨
      (audit events = [] ∧ SeesRequest events ∧ ∃ reason, answer = .error (.cancellation reason)) := by
  cases hparams : component.params ruleSet context with
  | error err =>
    rw [RuleComponent.evaluate, hparams] at hdecision
    cases hdecision
  | ok params =>
    rw [RuleComponent.evaluate, hparams] at hdecision
    have hanswer : component.answer params = .ok decision := hdecision
    rw [RuleComponent.evaluateWithCancellation, hparams] at h
    obtain ⟨before, rest, rfl, hrest⟩ := isCancelled_yields h
    cases before with
    | true =>
      obtain ⟨rfl, rfl⟩ := Prog.yields_ret.mp hrest
      exact .inr ⟨rfl, seesRequest_cons.mpr (.inl rfl), _, rfl⟩
    | false =>
      simp only [Bool.false_eq_true, if_false] at hrest
      obtain ⟨during, last, rfl, hlast⟩ := isCancelled_yields hrest
      cases during with
      | true =>
        obtain ⟨rfl, rfl⟩ := Prog.yields_ret.mp hlast
        exact .inr ⟨rfl, seesRequest_cons.mpr (.inr (seesRequest_cons.mpr (.inl rfl))), _, rfl⟩
      | false =>
        obtain ⟨rfl, rfl⟩ := Prog.yields_ret.mp hlast
        refine .inl ⟨rfl, ?_, hanswer⟩
        rw [seesRequest_cons, seesRequest_cons]
        simp [SeesRequest]

lemma native_processed (native : RuleNode) (hsink : native.metadataSink = true)
    (h : (native.process ctx counter packet).Yields events s) :
    Processed (.native native) ctx packet events s.2 := by
  obtain ⟨decision, hdecision⟩ := RuleNode.evaluate_ok native.ruleSet packet (evalContext ctx packet)
  rw [RuleNode.process, hdecision, hsink] at h
  obtain ⟨haudit, -, rfl⟩ := record_yields h
  refine .recorded ?_ haudit ⟨decision, hdecision, rfl⟩ fun send hsend =>
    ⟨_, _, executeAction_sending hsend⟩
  rintro ⟨⟨wasm, ⟨⟩⟩, -⟩

lemma wasm_processed (wasm : WasmRuleNode) (hsink : wasm.metadataSink = true)
    (hguest : (RuleExecutor.wasm wasm).Decides ctx packet)
    (h : (wasm.process ctx counter packet).Yields events s) :
    Processed (.wasm wasm) ctx packet events s.2 := by
  obtain ⟨decision, hdecision⟩ := hguest
  obtain ⟨answer, evaluating, acting, rfl, hevaluation, hact⟩ := Prog.yields_bind.mp h
  rcases evaluation_cases hdecision hevaluation with
    ⟨haudit, hsees, rfl⟩ | ⟨haudit, hsees, reason, rfl⟩
  · rw [WasmRuleNode.act, hsink] at hact
    obtain ⟨hrecorded, hquiet, rfl⟩ := record_yields hact
    refine .recorded ?_ (by rw [audit_append, haudit, hrecorded]; rfl) ⟨decision, hdecision, rfl⟩
      fun send hsend => ⟨_, _, executeAction_sending hsend⟩
    rintro ⟨-, hrequest⟩
    exact (seesRequest_append.mp hrequest).elim hsees hquiet
  · obtain ⟨rfl, rfl⟩ := Prog.yields_ret.mp hact
    rw [List.append_nil]
    exact .interrupted ⟨wasm, rfl⟩ hsees haudit

lemma processed_of_yields (hsink : node.metadataSink = true)
    (hguest : node.Decides ctx packet)
    (h : ((node.loop ctx).process counter packet).Yields events s) :
    Processed node ctx packet events s.2 := by
  cases node with
  | native native => exact native_processed native hsink h
  | wasm wasm => exact wasm_processed wasm hsink hguest h

/-- What a turn leaves of the audit: it is complete up to the stage reached, or a packet was lost
to an interruption and the node has returned. -/
inductive Continued (node : RuleExecutor) (ctx : NodeContext) (log : List AuditEntry)
    (events : List PortEvent) : Stage → Prop
  | complete {stage : Stage} : ¬ (node.IsWasm ∧ Disturbed events) →
    AuditedAt node ctx (log ++ audit events) stage → Continued node ctx log events stage
  | lost {packet : PortPacket} {result : Except PureflowError Unit} :
    node.IsWasm → Disturbed events → audit events = [.received packet] →
    Continued node ctx log events (.returned result)

/-- **One turn** continues the audit. -/
lemma turn_audited (hsink : node.metadataSink = true) (hguest : ∀ packet, node.Decides ctx packet)
    (h : ((node.loop ctx).step inputs outputs s).Yields events s')
    (hlog : AuditedAt node ctx log s.2) : Continued node ctx log events s'.2 := by
  cases RuleLoop.step_cases h with
  | @packet counter polled packet before after _ hpoll hprocess =>
    obtain ⟨hreceived, hcalls⟩ := RuleLoop.pollInput_polled hpoll
    have hbefore : audit before = [.received packet] := by
      rw [audit_receiving hcalls, hreceived]
      rfl
    have hsees : SeesRequest (before ++ after) ↔ SeesRequest after := by
      rw [seesRequest_append]
      exact or_iff_right (RuleLoop.pollInput_sees hpoll)
    generalize hstage : s'.2 = stage
    have hprocessed := processed_of_yields hsink (hguest packet) hprocess
    rw [hstage] at hprocessed
    cases hprocessed with
    | recorded hquiet haudit hrecord hsend =>
      refine .complete (fun h => hquiet ⟨h.1, hsees.mp h.2.2⟩) ?_
      rw [audit_append, hbefore, haudit]
      exact auditedAt_of_recorded hlog hrecord hsend
    | interrupted hwasm hrequest haudit =>
      have hdisturbed : receivedIn (before ++ after) ≠ [] := by
        intro hnil
        rw [receivedIn, List.filterMap_append, List.append_eq_nil_iff] at hnil
        rw [receivedIn, hnil.1] at hreceived
        cases hreceived
      have hlost : audit (before ++ after) = [.received packet] := by
        rw [audit_append, hbefore, haudit, List.append_nil]
      exact .lost hwasm ⟨hdisturbed, hsees.mpr hrequest⟩ hlost
  | @idle counter polled poll _ stage hpoll hnone hstage =>
    obtain ⟨hreceived, hcalls⟩ := RuleLoop.pollInput_polled hpoll
    rw [hnone, Option.toList_none] at hreceived
    have hnil : receivedIn events = [] := List.map_eq_nil_iff.mp hreceived
    have haudit : audit events = [] := by
      rw [audit_receiving hcalls, hreceived]
      rfl
    refine .complete (fun h => h.2.1 hnil) ?_
    rw [haudit, List.append_nil]
    rcases hstage with rfl | ⟨result, rfl⟩ <;> exact hlog
  | @send counter send poll _ hpoll =>
    obtain ⟨haudit, hnil⟩ := audit_sending (hpoll.calls (sending_send outputs _ _))
    obtain ⟨before, packet, record, rfl, hbefore, hrecord, hforwards⟩ := hlog
    refine .complete (fun h => h.2.1 hnil) ?_
    rw [haudit, committedIn_of_sent hpoll]
    have hcopies (copies : List PortPacket) (hcopies : ∀ p ∈ copies, p = send.packet) :
        Audited node ctx (before ++ [.received packet, .recorded record] ++
          copies.map .committed) := by
      rw [List.append_assoc]
      exact .packet hbefore hrecord fun p hp => hcopies p hp ▸ hforwards
    rcases poll with (err | ⟨⟩) | _
    · rw [if_neg (by simp)]
      exact hcopies [] (List.forall_mem_nil _)
    · rw [if_pos rfl]
      exact hcopies _ (by simp)
    · rw [if_neg (by simp), List.map_nil, List.map_nil, List.append_nil]
      exact ⟨before, packet, record, rfl, hbefore, hrecord, hforwards⟩
  | between cancelled =>
    refine .complete (fun h => h.2.1 rfl) ?_
    have haudit : audit [⟨.isCancelled, cancelled⟩] = [] := rfl
    rw [haudit, List.append_nil]
    cases cancelled <;> exact hlog
  | returned =>
    refine .complete (fun h => h.2.1 rfl) ?_
    rw [show audit [] = [] from rfl, List.append_nil]
    exact hlog

end Turns

section Runs

variable {node : RuleExecutor} {ctx : NodeContext} {inputs : PortsIn} {outputs : PortsOut}
  {start : UInt64} {turns : List (Prog.Turn PortOp.Answer LoopState)} {s : LoopState}

/-- No packet is received in a turn that sees a request for cancellation. -/
def Undisturbed (turns : List (Prog.Turn PortOp.Answer LoopState)) : Prop :=
  ∀ turn ∈ turns, ¬ Disturbed turn.events

/-- The audit of a run: complete, and undisturbed if it could be disturbed; or ending in a packet
that was lost, after which nothing happened. -/
inductive RunAudited (node : RuleExecutor) (ctx : NodeContext)
    (turns : List (Prog.Turn PortOp.Answer LoopState)) : Stage → Prop
  | complete {stage : Stage} : (node.IsWasm → Undisturbed turns) →
    AuditedAt node ctx (audit (Prog.trace turns)) stage → RunAudited node ctx turns stage
  | lost (log : List AuditEntry) (packet : PortPacket) {result : Except PureflowError Unit} :
    node.IsWasm → ¬ Undisturbed turns → audit (Prog.trace turns) = log ++ [.received packet] →
    RunAudited node ctx turns (.returned result)

lemma undisturbed_append {turn : Prog.Turn PortOp.Answer LoopState} :
    Undisturbed (turns ++ [turn]) ↔ Undisturbed turns ∧ ¬ Disturbed turn.events := by
  unfold Undisturbed
  rw [List.forall_mem_append, List.forall_mem_singleton]

/-- **The audit along every run.** -/
lemma run_audited (hsink : node.metadataSink = true) (hguest : ∀ packet, node.Decides ctx packet)
    (hrun : (node.loop ctx).Runs inputs outputs start turns s) :
    RunAudited node ctx turns s.2 := by
  refine hrun.invariant (P := fun turns s => RunAudited node ctx turns s.2) ?_ ?_
  · exact .complete (fun _ => List.forall_mem_nil _) .nil
  · intro turns s events s' hkept hturn
    generalize hstage : s.2 = stage at hkept
    cases hkept with
    | complete hundisturbed haudited =>
      have hcontinued := turn_audited hsink hguest hturn (hstage ▸ haudited)
      generalize s'.2 = stage' at hcontinued
      cases hcontinued with
      | complete hquiet hlog =>
        refine .complete (fun hwasm => ?_) ?_
        · exact undisturbed_append.mpr ⟨hundisturbed hwasm, fun hdisturbed => hquiet ⟨hwasm, hdisturbed⟩⟩
        · rw [Prog.trace_append, Prog.trace_singleton, audit_append]
          exact hlog
      | @lost packet _ hwasm hdisturbed haudit =>
        refine .lost (audit (Prog.trace turns)) packet hwasm (fun hall => (undisturbed_append.mp hall).2 hdisturbed) ?_
        rw [Prog.trace_append, Prog.trace_singleton, audit_append, haudit]
    | lost log packet hwasm hdisturbed haudit =>
      obtain ⟨counter, stage⟩ := s
      cases hstage
      obtain ⟨rfl, rfl⟩ := Prog.yields_ret.mp hturn
      refine .lost log packet hwasm (fun hall => hdisturbed (undisturbed_append.mp hall).1) ?_
      rw [Prog.trace_append, Prog.trace_singleton, List.append_nil, haudit]

/-- **When the audit of a rule node is complete.** In every run of a native rule node every packet
received has its one record, after its receipt and before any copy of it is committed, whatever is
answered and wherever cancellation is requested. For a WASM rule node this holds exactly of the
runs in which no request is seen between the receipt of a packet and the end of its evaluation. -/
theorem audit_complete_iff (node : RuleExecutor) (ctx : NodeContext) (inputs : PortsIn)
    (outputs : PortsOut) (start : UInt64) (turns : List (Prog.Turn PortOp.Answer LoopState))
    (s : LoopState) (hsink : node.metadataSink = true)
    (hguest : ∀ packet, node.Decides ctx packet)
    (hrun : (node.loop ctx).Runs inputs outputs start turns s) :
    Audited node ctx (audit (Prog.trace turns)) ↔ (node.IsWasm → Undisturbed turns) := by
  have haudited := run_audited hsink hguest hrun
  generalize s.2 = stage at haudited
  cases haudited with
  | complete hundisturbed hlog => exact iff_of_true hlog.audited hundisturbed
  | lost log packet hwasm hdisturbed haudit =>
    refine iff_of_false ?_ fun hall => hdisturbed (hall hwasm)
    rw [haudit]
    exact not_audited _ _

end Runs

section Sample

open RuleNode

/-- A guest that drops every packet. -/
def droppingComponent : RuleComponent where
  fuel := 1000
  instantiate := .ok ()
  call _ _ := ⟨.ok (Wit.liftResult (.ok ⟨.drop, none, [], []⟩)), some 1⟩
  jsonText _ := .ok "null"

def droppingNode : WasmRuleNode where
  ruleSet := ⟨"nothing", .firstMatch, [], .drop, false⟩
  component := droppingComponent
  metadataSink := true
  jsonText _ := ""
  request := ⟨"operator stop"⟩

lemma droppingNode_decides (packet : PortPacket) :
    (RuleExecutor.wasm droppingNode).Decides RuleNode.sampleContext packet := by
  refine ⟨⟨.drop, none, [], []⟩, ?_⟩
  obtain ⟨metadata, payload⟩ := packet
  cases payload <;> rfl

/-- The node's first turn: it receives a packet, and `seen` says whether its guest is
interrupted. -/
def droppingEvents (seen : Bool) : List PortEvent :=
  [⟨.isCancelled, false⟩, ⟨.pollRecv 0, .ready (.ok System.samplePacket)⟩, ⟨.isCancelled, false⟩,
    ⟨.isCancelled, seen⟩] ++
    if seen then [] else
      [⟨.record (.ruleEval (droppingNode.buildRuleEvalRecord RuleNode.sampleContext
        System.samplePacket ⟨.drop, none, [], []⟩)), .ok ()⟩]

lemma dropping_run (seen : Bool) : ∃ turns s,
    ((RuleExecutor.wasm droppingNode).loop RuleNode.sampleContext).Runs sampleInputs sampleOutputs 0
      turns s ∧ Prog.trace turns = droppingEvents seen ∧
    ∀ turn ∈ turns, turn.events = droppingEvents seen := by
  have hturn : ∃ s, (((RuleExecutor.wasm droppingNode).loop RuleNode.sampleContext).step
      sampleInputs sampleOutputs (0, .receiving false)).Yields (droppingEvents seen) s := by
    cases seen with
    | true => exact ⟨_, .call (.call (.call (.call .ret)))⟩
    | false => exact ⟨_, .call (.call (.call (.call (.call .ret))))⟩
  obtain ⟨s, hturn⟩ := hturn
  exact ⟨_, s, .turn .refl hturn, by simp [Prog.trace], by simp⟩

theorem audit_complete_iff_sample : ∃ turns s,
    ((RuleExecutor.wasm droppingNode).loop RuleNode.sampleContext).Runs sampleInputs sampleOutputs 0
      turns s ∧ receivedIn (Prog.trace turns) = [(0, System.samplePacket)] ∧
    Audited (.wasm droppingNode) RuleNode.sampleContext (audit (Prog.trace turns)) := by
  obtain ⟨turns, s, hrun, htrace, hevents⟩ := dropping_run false
  refine ⟨turns, s, hrun, by rw [htrace]; rfl, ?_⟩
  refine (audit_complete_iff _ _ _ _ _ _ _ rfl droppingNode_decides hrun).mpr fun _ turn hturn => ?_
  rw [hevents turn hturn]
  rintro ⟨-, hrequest⟩
  simp only [SeesRequest, droppingEvents, Bool.false_eq_true, if_false, List.cons_append,
    List.nil_append, List.mem_cons, List.not_mem_nil, or_false] at hrequest
  rcases hrequest with h | h | h | h | h <;> cases h

/-- **A record can be missing**: the guest of a WASM rule node is interrupted, and the packet it
was evaluating has no record. -/
theorem interrupted_packet_has_no_record : ¬ ∀ (node : RuleExecutor) (ctx : NodeContext)
    (inputs : PortsIn) (outputs : PortsOut) (start : UInt64)
    (turns : List (Prog.Turn PortOp.Answer LoopState)) (s : LoopState),
    node.metadataSink = true → (∀ packet, node.Decides ctx packet) →
    (node.loop ctx).Runs inputs outputs start turns s →
    Audited node ctx (audit (Prog.trace turns)) := by
  intro hall
  obtain ⟨turns, s, hrun, htrace, -⟩ := dropping_run true
  have haudited := hall _ _ _ _ _ _ _ rfl droppingNode_decides hrun
  rw [htrace] at haudited
  exact not_audited [] System.samplePacket haudited

end Sample

end Pureflow.Wasm
