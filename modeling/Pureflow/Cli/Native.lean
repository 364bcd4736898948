import Pureflow.Cli.Registry
import Pureflow.Engine.Summary
import Pureflow.Rules.NodeRuns
import Pureflow.Rules.Spec

/-!
The passive native executor of the command line: it drains its input ports one after the other,
and then sends one packet to each output port, in the order of their ids.

The id of such a packet is put together of identifiers, as are the ids that rule nodes mint, so it
can only be too long.
-/

namespace Pureflow.Cli

open Std Pureflow.Types Pureflow.Core Pureflow.Lib Pureflow.Rules
open Pureflow.Engine (saturatingAdd)

/-- The text of the message id of an output packet. -/
def cliMessageId (ctx : NodeContext) (outputPort : PortId) (outputIndex : ℕ) : String :=
  s!"cli-{ctx.nodeId}-{outputPort}-{outputIndex}"

/-- The packet that is sent to an output port. -/
def cliOutputPacket (ctx : NodeContext) (outputPort : PortId) (targets : List MessageEndpoint)
    (outputIndex receivedCount : ℕ) : Except PureflowError PortPacket :=
  match Identifier.new .message (cliMessageId ctx outputPort outputIndex) with
  | .error e => .error (.ofIdentifier e)
  | .ok messageId => .ok
    { metadata :=
        { messageId := messageId
          workflowId := ctx.workflowId
          execution := ctx.execution
          route := ⟨some ⟨ctx.nodeId, outputPort⟩, targets.head?.getD ⟨ctx.nodeId, outputPort⟩⟩ }
      payload := .bytes
        s!"cli-native node={ctx.nodeId} output={outputPort} received={receivedCount}".toUTF8.data.toList }

/-- What the future does next: it drains the first of the input ports that are left, having polled
this receive before or not; it prepares the packet for the first of the output ports that are
left, or it sends it; or nothing more. -/
inductive NativeStage
  | draining (left : List PortId) (polled : Bool) (portCount : ℕ)
  | preparing (outputIndex : ℕ) (left : List (PortId × List MessageEndpoint))
  | sending (outputIndex : ℕ) (outputPort : PortId) (packet : PortPacket)
      (left : List (PortId × List MessageEndpoint))
  | returned (result : Except PureflowError Unit)

/-- The packets received on the ports drained so far, and the stage. -/
abbrev NativeState := ℕ × NativeStage

namespace CliNativeExecutor

section Step

variable (ctx : NodeContext) (inputs : PortsIn) (outputs : PortsOut)

/-- One poll of the receive on a port. -/
def pollPort (portId : PortId) (polled : Bool) :
    PortM (Poll (Except PortRecvError (Option PortPacket))) :=
  match polled, PortHandle.find inputs.ports portId with
  | true, some port => inputs.recvPoll port
  | _, _ => inputs.recv portId

/-- Where a poll of a drained port leads. -/
def afterPoll (receivedCount : ℕ) (portId : PortId) (rest : List PortId) (portCount : ℕ) :
    Poll (Except PortRecvError (Option PortPacket)) → NativeState
  | .pending => (receivedCount, .draining (portId :: rest) true portCount)
  | .ready (.ok (some _)) =>
    (receivedCount, .draining (portId :: rest) false (saturatingAdd portCount 1))
  | .ready (.ok none) => (saturatingAdd receivedCount portCount, .draining rest false 0)
  | .ready (.error (.disconnected _)) =>
    (saturatingAdd receivedCount portCount, .draining rest false 0)
  | .ready (.error err) => (receivedCount, .returned (.error (.ofPortRecvError err)))

variable (executor : CliNativeExecutor)

/-- From one stage to the next one. -/
def step : NativeState → PortM NativeState
  | (receivedCount, .draining [] _ _) =>
    return (receivedCount, .preparing 0 executor.outputRoutes.toList)
  | (receivedCount, .draining (portId :: rest) polled portCount) => do
    return afterPoll receivedCount portId rest portCount (← pollPort inputs portId polled)
  | (receivedCount, .preparing _ []) => return (receivedCount, .returned (.ok ()))
  | (receivedCount, .preparing outputIndex ((outputPort, targets) :: rest)) =>
    match cliOutputPacket ctx outputPort targets outputIndex receivedCount with
    | .error err => return (receivedCount, .returned (.error err))
    | .ok packet => return (receivedCount, .sending outputIndex outputPort packet rest)
  | (receivedCount, .sending outputIndex outputPort packet rest) => do
    match ← outputs.send outputPort packet with
    | .pending => return (receivedCount, .sending outputIndex outputPort packet rest)
    | .ready (.ok ()) => return (receivedCount, .preparing (outputIndex + 1) rest)
    | .ready (.error err) => return (receivedCount, .returned (.error (.ofPortSendError err)))
  | (receivedCount, .returned result) => return (receivedCount, .returned result)

/-- The turns of the executor from its start. -/
def Runs (turns : List (Prog.Turn PortOp.Answer NativeState)) (s : NativeState) : Prop :=
  Prog.Runs (step ctx inputs outputs executor) (0, .draining executor.inputPorts false 0) turns s

end Step

end CliNativeExecutor

section Minted

variable {ctx : NodeContext} {outputPort : PortId} {outputIndex : ℕ}

lemma cliMessageId_clean (ctx : NodeContext) (outputPort : PortId) (outputIndex : ℕ) :
    Clean (cliMessageId ctx outputPort outputIndex) := by
  have hcli : Clean "cli-" := ⟨by decide, by decide⟩
  have hdash : Clean "-" := ⟨by decide, by decide⟩
  unfold cliMessageId
  apply Clean.append ?_ (Clean.number outputIndex)
  apply Clean.append ?_ hdash
  apply Clean.append ?_ outputPort.clean
  apply Clean.append ?_ hdash
  exact hcli.append ctx.nodeId.clean

lemma cliMessageId_ne (ctx : NodeContext) (outputPort : PortId) (outputIndex : ℕ) :
    cliMessageId ctx outputPort outputIndex ≠ "" := by
  intro h
  simp only [cliMessageId, String.append_eq_empty_iff] at h
  exact absurd h.1.2 (by decide)

lemma cliMessageId_size : (cliMessageId ctx outputPort outputIndex).utf8ByteSize =
    ctx.nodeId.value.utf8ByteSize + outputPort.value.utf8ByteSize +
      (toString outputIndex).utf8ByteSize + 6 := by
  have hcli : (toString "cli-").utf8ByteSize = 4 := by decide
  have hdash : (toString "-").utf8ByteSize = 1 := by decide
  have hnode : (toString ctx.nodeId).utf8ByteSize = ctx.nodeId.value.utf8ByteSize := rfl
  have hport : (toString outputPort).utf8ByteSize = outputPort.value.utf8ByteSize := rfl
  simp only [cliMessageId, String.utf8ByteSize_append, hcli, hdash, hnode, hport]
  omega

lemma cliOutputPacket_ok (h : (cliMessageId ctx outputPort outputIndex).utf8ByteSize ≤
    maxIdentifierLen) (targets : List MessageEndpoint) (receivedCount : ℕ) :
    ∃ packet, cliOutputPacket ctx outputPort targets outputIndex receivedCount = .ok packet := by
  obtain ⟨messageId, hnew⟩ := Identifier.new_of_fits
    (cliMessageId_clean ctx outputPort outputIndex) (cliMessageId_ne ctx outputPort outputIndex) h
  unfold cliOutputPacket
  rw [hnew]
  exact ⟨_, rfl⟩

lemma cliOutputPacket_long (h : maxIdentifierLen <
    (cliMessageId ctx outputPort outputIndex).utf8ByteSize) (targets : List MessageEndpoint)
    (receivedCount : ℕ) :
    cliOutputPacket ctx outputPort targets outputIndex receivedCount =
      .error (.ofIdentifier (.tooLong .message maxIdentifierLen)) := by
  unfold cliOutputPacket
  rw [Identifier.new_of_long (cliMessageId_clean ctx outputPort outputIndex)
    (cliMessageId_ne ctx outputPort outputIndex) h]

end Minted

namespace CliNativeExecutor

section Runs

variable {ctx : NodeContext} {inputs : PortsIn} {outputs : PortsOut}
  {executor : CliNativeExecutor}

lemma split_of_drop {α : Type} {l rest : List α} {n : ℕ} {a : α} (h : l.drop n = a :: rest) :
    l[n]? = some a ∧ l.drop (n + 1) = rest := by
  have hhead := congrArg List.head? h
  have htail := congrArg List.tail h
  rw [List.head?_drop] at hhead
  rw [List.tail_drop] at htail
  exact ⟨hhead, htail⟩

/-- The id of a packet for one of the output ports does not fit. -/
def TooLong (ctx : NodeContext) (executor : CliNativeExecutor) : Prop :=
  ∃ outputIndex route, executor.outputRoutes.toList[outputIndex]? = some route ∧
    maxIdentifierLen < (cliMessageId ctx route.1 outputIndex).utf8ByteSize

/-- The output ports that are left are the last ones, and only an id that is too long fails its
check. -/
def Sound (ctx : NodeContext) (executor : CliNativeExecutor) : NativeStage → Prop
  | .draining _ _ _ => True
  | .preparing outputIndex left => executor.outputRoutes.toList.drop outputIndex = left
  | .sending outputIndex _ _ left => executor.outputRoutes.toList.drop (outputIndex + 1) = left
  | .returned result => ∀ err, result = .error (.validation err) →
    err = .identifier (.tooLong .message maxIdentifierLen) ∧ TooLong ctx executor

lemma ofPortRecvError_ne (e : PortRecvError) (err : ValidationError) :
    PureflowError.ofPortRecvError e ≠ .validation err := by
  cases e <;> simp [PureflowError.ofPortRecvError]

lemma ofPortSendError_ne (e : PortSendError) (err : ValidationError) :
    PureflowError.ofPortSendError e ≠ .validation err := by
  cases e <;> simp [PureflowError.ofPortSendError]

lemma afterPoll_sound (receivedCount : ℕ) (portId : PortId) (rest : List PortId) (portCount : ℕ)
    (poll : Poll (Except PortRecvError (Option PortPacket))) :
    Sound ctx executor (afterPoll receivedCount portId rest portCount poll).2 := by
  rcases poll with (e | _ | packet) | _
  · cases e with
    | disconnected portId => trivial
    | unknownPort portId | cancelled portId =>
      intro err h
      exact absurd (Except.error.inj h) (ofPortRecvError_ne _ err)
  · trivial
  · trivial
  · trivial

lemma step_sound (s : NativeState) (h : Sound ctx executor s.2) :
    (step ctx inputs outputs executor s).Ends fun s' => Sound ctx executor s'.2 := by
  obtain ⟨receivedCount, stage⟩ := s
  cases stage with
  | draining left polled portCount =>
    cases left with
    | nil => exact List.drop_zero
    | cons portId rest =>
      rw [step, Prog.ends_bind]
      exact Prog.ends_of_forall (fun poll => afterPoll_sound _ _ _ _ poll) _
  | preparing outputIndex left =>
    rcases left with _ | ⟨⟨outputPort, targets⟩, rest⟩
    · intro err herr
      cases herr
    · obtain ⟨hroute, hrest⟩ := split_of_drop h
      rw [step]
      by_cases hfits : (cliMessageId ctx outputPort outputIndex).utf8ByteSize ≤ maxIdentifierLen
      · obtain ⟨packet, hpacket⟩ := cliOutputPacket_ok hfits targets receivedCount
        rw [hpacket]
        exact hrest
      · rw [cliOutputPacket_long (by omega)]
        rintro err ⟨⟩
        exact ⟨rfl, outputIndex, _, hroute, Nat.lt_of_not_le hfits⟩
  | sending outputIndex outputPort packet left =>
    rw [step, Prog.ends_bind]
    refine Prog.ends_of_forall (fun poll => ?_) _
    rcases poll with (e | ⟨⟩) | _
    · intro err herr
      exact absurd (Except.error.inj herr) (ofPortSendError_ne e err)
    · exact h
    · exact h
  | returned result => exact h

/-- **A native executor fails a check only where an id does not fit**: it returns the error of a
validation in no run, unless the id for one of its output ports is too long. -/
theorem tooLong_of_validation {turns : List (Prog.Turn PortOp.Answer NativeState)}
    {receivedCount : ℕ} {err : ValidationError}
    (h : Runs ctx inputs outputs executor turns
      (receivedCount, .returned (.error (.validation err)))) :
    err = .identifier (.tooLong .message maxIdentifierLen) ∧ TooLong ctx executor := by
  have hsound : Sound ctx executor (.returned (.error (.validation err))) := by
    refine Prog.Runs.invariant (P := fun _ s => Sound ctx executor s.2) h ?_ ?_
    · exact trivial
    · intro turns s events s' hs hyields
      exact hyields.ends (step_sound s hs)
  exact hsound err rfl

end Runs

end CliNativeExecutor

section Limits

/-- **Minting an id fails where the id does not fit, and nowhere else**: not for a rule node that
forwards a packet, and not for the packet of a native executor. The counter grows: an id that fits
for the first packets may not fit for a later one. -/
theorem minting_spec :
    (∀ (ctx : NodeContext) (outputPort : PortId) (seq : UInt64) (incoming : PortPacket),
      if ctx.nodeId.value.utf8ByteSize + outputPort.value.utf8ByteSize +
          (toString seq).utf8ByteSize + 7 ≤ maxIdentifierLen then
        ∃ forwarded, forwardPacket ctx outputPort seq incoming = .ok forwarded
      else forwardPacket ctx outputPort seq incoming =
        .error (.execution "rule node message id error: message id must not exceed 256 bytes")) ∧
    ∀ (ctx : NodeContext) (outputPort : PortId) (targets : List MessageEndpoint)
      (outputIndex receivedCount : ℕ),
      if ctx.nodeId.value.utf8ByteSize + outputPort.value.utf8ByteSize +
          (toString outputIndex).utf8ByteSize + 6 ≤ maxIdentifierLen then
        ∃ packet, cliOutputPacket ctx outputPort targets outputIndex receivedCount = .ok packet
      else cliOutputPacket ctx outputPort targets outputIndex receivedCount =
        .error (.validation (.identifier (.tooLong .message maxIdentifierLen))) := by
  constructor
  · intro ctx outputPort seq incoming
    have hsize : (mintedId ctx outputPort seq).utf8ByteSize = _ := RuleNode.mintedId_size outputPort seq
    split_ifs with hfits
    · apply RuleNode.forwardPacket_ok
      omega
    · apply RuleNode.forwardPacket_long
      omega
  · intro ctx outputPort targets outputIndex receivedCount
    have hsize := @cliMessageId_size ctx outputPort outputIndex
    split_ifs with hfits
    · apply cliOutputPacket_ok
      omega
    · apply cliOutputPacket_long
      omega

lemma size_replicate (n : ℕ) : (String.ofList (List.replicate n 'n')).utf8ByteSize = n := by
  have hletter : 'n'.utf8Size = 1 := by decide
  induction n with
  | zero => rfl
  | succ n ih =>
    rw [List.replicate_succ, String.ofList_cons, String.utf8ByteSize_append, ih,
      String.utf8ByteSize_singleton]
    omega

lemma clean_replicate (n : ℕ) : Clean (String.ofList (List.replicate n 'n')) := by
  have hspace : Text.isWhitespace 'n' = false := by decide
  have hcontrol : Text.isControl 'n' = false := by decide
  constructor
  · rw [String.toList_ofList, List.any_replicate, hspace]
    simp
  · rw [String.toList_ofList, List.any_replicate, hcontrol]
    simp

lemma longNode_valid :
    validateIdentifier .node (String.ofList (List.replicate 256 'n')) = .ok () := by
  have hne : String.ofList (List.replicate 256 'n') ≠ "" := by
    intro hempty
    have hsize := size_replicate 256
    rw [hempty] at hsize
    cases hsize
  rw [(clean_replicate 256).validate_eq hne, size_replicate, maxIdentifierLen]
  rfl

/-- A node id of the greatest length. -/
def longNode : NodeId := ⟨String.ofList (List.replicate 256 'n'), longNode_valid⟩

def longContext : NodeContext :=
  .new ⟨"flow", workflow_flow_valid⟩ longNode (.firstAttempt ⟨"run-1", execution_run_valid⟩)

/-- **Valid identifiers do not make a valid id**: next to a node id of 256 bytes there is no room
for a port. -/
theorem minting_fails :
    (¬ ∀ (ctx : NodeContext) (outputPort : PortId) (seq : UInt64) (incoming : PortPacket),
      ∃ forwarded, forwardPacket ctx outputPort seq incoming = .ok forwarded) ∧
    ¬ ∀ (ctx : NodeContext) (outputPort : PortId) (targets : List MessageEndpoint)
      (outputIndex receivedCount : ℕ),
      ∃ packet, cliOutputPacket ctx outputPort targets outputIndex receivedCount = .ok packet := by
  have hlong : longContext.nodeId.value.utf8ByteSize = 256 := size_replicate 256
  constructor
  · intro hall
    obtain ⟨forwarded, hok⟩ := hall longContext inPort 0 emptyPacket
    rw [RuleNode.forwardPacket_long] at hok
    · cases hok
    · rw [RuleNode.mintedId_size, hlong, maxIdentifierLen]
      omega
  · intro hall
    obtain ⟨packet, hok⟩ := hall longContext inPort [] 0 0
    rw [cliOutputPacket_long] at hok
    · cases hok
    · rw [cliMessageId_size, hlong, maxIdentifierLen]
      omega

end Limits

end Pureflow.Cli
