import Pureflow.Engine.Accounting
import Pureflow.Runtime.Observers

/-!
The node runs of a workflow and the loop that collects them, in one task.

A node run is polled a first time, which observes its start and calls its executor, and ends when
its executor returns. The loop sees a result in the poll that produces it: nothing happens in
between. Which node is polled when, what executors return and when the watchdog fires is a
schedule.
-/

namespace Pureflow.Engine

open Pureflow.Types Pureflow.Core Pureflow.Lib Pureflow.Runtime Pureflow.Workflow

/-- Where a node run is: not polled yet, with its executor, or at its end. -/
inductive Phase
  | waiting
  | started
  | ended (result : Except PureflowError Unit)
  deriving DecidableEq

/-- What is fixed during an execution: the workflow, the observers and the nodes' contexts. -/
structure Setting where
  context : WorkflowCollectionContext
  observers : Observers
  nodes : List NodeContext

/-- The context a node of the workflow is run with; all share the token of the run. -/
def nodeContext (workflow : WorkflowDefinition) (execution : ExecutionMetadata)
    (node : NodeDefinition) : NodeContext :=
  (NodeContext.new workflow.id node.id execution).withCancellationToken .active

/-- The setting in which the nodes of a workflow are run. -/
def Setting.of (workflow : WorkflowDefinition) (execution : ExecutionMetadata)
    (policy : WorkflowRunPolicy) (observers : Observers) : Setting where
  context := ⟨workflow, execution, policy⟩
  observers := observers
  nodes := workflow.nodes.map (nodeContext workflow execution)

/-- What an execution has done: what the observers were told, the nodes whose executors were
called, where the node runs are, and the loop. -/
structure Execution where
  journal : Journal
  invoked : List NodeId
  phases : List Phase
  loop : Run

/-- What a schedule can do next. -/
inductive Action
  | start (index : ℕ)
  | finish (index : ℕ) (result : Except PureflowError Unit)
  | exhausted
  | deadline
  | noWatchdog (err : String)

namespace Execution

/-- No node has been polled. -/
def fresh (n : SliceLen) : Execution where
  journal := ⟨[], []⟩
  invoked := []
  phases := List.replicate n .waiting
  loop := .start n

variable (setting : Setting)

/-- What the sink answers to the record of a round of the loop. -/
def answer (loop : Run) (arrival : Arrival) : Except PureflowError Unit :=
  match arrival, setting.context.policy.watchdogPolicy with
  | .result _ (.error err), _ => setting.observers.sink (failureRecord setting.context err)
  | .deadline, .deadlock watchdog =>
    setting.observers.sink (deadlockRecord setting.context watchdog loop.summary)
  | _, _ => .ok ()

/-- A round of the loop; its record goes to the same sink. -/
def round (s : Execution) (arrival : Arrival) : Option Execution :=
  (s.loop.next setting.context ⟨arrival, answer setting s.loop arrival⟩).map fun loop =>
    { s with
      loop := loop
      journal := { s.journal with
        records := s.journal.records ++ loop.records.drop s.loop.records.length } }

/-- A node run that has ended hands its result to the loop. -/
def deliver (s : Execution) (index : ℕ) (ctx : NodeContext) (journal : Journal)
    (result : Except PureflowError Unit) : Option Execution :=
  { s with journal := journal, phases := s.phases.set index (.ended result) }.round setting
    (.result ctx.nodeId result)

/-- The first poll of a node run. A start that is refused ends it. -/
def start (s : Execution) (index : ℕ) (ctx : NodeContext) : Option Execution :=
  match observeLifecycle setting.observers .nodeStarted ctx s.journal with
  | (.ok (), journal) =>
    if s.loop.returned.isSome then none
    else some { s with
      journal := journal
      invoked := s.invoked ++ [ctx.nodeId]
      phases := s.phases.set index .started }
  | (.error err, journal) => s.deliver setting index ctx journal (.error err)

/-- The poll of a node run in which its executor returns. -/
def finish (s : Execution) (index : ℕ) (ctx : NodeContext) (result : Except PureflowError Unit) :
    Option Execution :=
  let (answer, journal) := endNode setting.observers ctx result s.journal
  s.deliver setting index ctx journal answer

/-- One action, where it is possible. Nothing happens after the loop has returned. -/
def next (s : Execution) : Action → Option Execution
  | .start index =>
    match setting.nodes[index]?, s.phases[index]? with
    | some ctx, some .waiting => s.start setting index ctx
    | _, _ => none
  | .finish index result =>
    match setting.nodes[index]?, s.phases[index]? with
    | some ctx, some .started => s.finish setting index ctx result
    | _, _ => none
  | .exhausted => s.round setting .exhausted
  | .deadline => s.round setting .deadline
  | .noWatchdog err => s.round setting (.noWatchdog err)

end Execution

end Pureflow.Engine
