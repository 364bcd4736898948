import Pureflow.Types

/-!
Execution context and cancellation boundary types.

All clones of a token share one signal, so a token is modelled by the content of that signal:
the request made first, if any. A context holds the token; what a running node reads of it is
the content at that moment.
-/

namespace Pureflow.Core

open Pureflow.Types

/-- One-based attempt counter for a workflow execution. -/
structure ExecutionAttempt where
  value : UInt32
  nonzero : value ≠ 0
  deriving DecidableEq

def ExecutionAttempt.first : ExecutionAttempt := ⟨1, by decide⟩

structure ExecutionMetadata where
  executionId : ExecutionId
  attempt : ExecutionAttempt
  deriving DecidableEq

def ExecutionMetadata.firstAttempt (executionId : ExecutionId) : ExecutionMetadata :=
  ⟨executionId, .first⟩

structure CancellationRequest where
  reason : String
  deriving DecidableEq

inductive CancellationState
  | active
  | requested (request : CancellationRequest)
  deriving DecidableEq

/-- The content of a shared cancellation signal. -/
structure CancellationToken where
  request : Option CancellationRequest
  deriving DecidableEq

namespace CancellationToken

def active : CancellationToken := ⟨none⟩

/-- Record a request unless there is one, and tell whether it was recorded. -/
def requestCancellation (token : CancellationToken) (request : CancellationRequest) :
    Bool × CancellationToken :=
  match token.request with
  | some _ => (false, token)
  | none => (true, ⟨some request⟩)

def cancelled (request : CancellationRequest) : CancellationToken :=
  (active.requestCancellation request).2

def isCancelled (token : CancellationToken) : Bool := token.request.isSome

def state (token : CancellationToken) : CancellationState :=
  token.request.elim .active .requested

@[simp] lemma requestCancellation_active (request : CancellationRequest) :
    active.requestCancellation request = (true, ⟨some request⟩) := rfl

/-- A recorded request is never overwritten. -/
lemma requestCancellation_of_some {token : CancellationToken} {r : CancellationRequest}
    (h : token.request = some r) (request : CancellationRequest) :
    token.requestCancellation request = (false, token) := by
  unfold requestCancellation
  rw [h]

end CancellationToken

structure NodeContext where
  workflowId : WorkflowId
  nodeId : NodeId
  execution : ExecutionMetadata
  cancellationToken : CancellationToken
  deriving DecidableEq

namespace NodeContext

def new (workflowId : WorkflowId) (nodeId : NodeId) (execution : ExecutionMetadata) :
    NodeContext :=
  ⟨workflowId, nodeId, execution, .active⟩

def withCancellationToken (ctx : NodeContext) (token : CancellationToken) : NodeContext :=
  { ctx with cancellationToken := token }

def cancellation (ctx : NodeContext) : CancellationState := ctx.cancellationToken.state

end NodeContext

end Pureflow.Core
