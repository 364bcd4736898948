import Pureflow.Core.Metadata
import Pureflow.Lib.Result

/-!
One node at the runtime boundary: its executor, between the observations of its start and of its
end.

The observers are what they answer, and the journal is what they were told. Tracing output is
left out.
-/

namespace Pureflow.Runtime

open Pureflow.Core

/-- The answers of a lifecycle hook and of a metadata sink. -/
structure Observers where
  hook : LifecycleEvent → Except PureflowError Unit
  sink : MetadataRecord → Except PureflowError Unit

/-- What the observers of a node were told by the runtime, in order. -/
structure Journal where
  events : List LifecycleEvent
  records : List MetadataRecord

/-- A failure keeps what was told before it. -/
abbrev Observing := ExceptT PureflowError (StateM Journal)

namespace Observing

def record (o : Observers) (r : MetadataRecord) : Observing Unit := fun j =>
  (o.sink r, { j with records := j.records ++ [r] })

def observe (o : Observers) (event : LifecycleEvent) : Observing Unit := fun j =>
  (o.hook event, { j with events := j.events ++ [event] })

/-- Keep a failure as a value. -/
def attempt (x : Observing Unit) : Observing (Except PureflowError Unit) := fun j =>
  let (result, j) := x j
  (.ok result, j)

end Observing

def observeNodeError (o : Observers) (ctx : NodeContext) (err : PureflowError) : Observing Unit :=
  Observing.record o (.error (.nodeFailed ctx err))

def observeLifecycle (o : Observers) (kind : LifecycleEventKind) (ctx : NodeContext) :
    Observing Unit := do
  let event : LifecycleEvent := ⟨kind, ctx⟩
  Observing.record o (.lifecycle event)
  Observing.observe o event

/-- What is told of the end of a node. Both observations of a failure are made, whatever the
first one answers. -/
def observeTerminal (o : Observers) (ctx : NodeContext) :
    Except PureflowError Unit → Observing (Except PureflowError Unit)
  | .ok () => Observing.attempt (observeLifecycle o .nodeCompleted ctx)
  | .error err => do
    let errorObservation ← Observing.attempt (observeNodeError o ctx err)
    let lifecycleKind := match err with
      | .cancellation _ => .nodeCancelled
      | _ => .nodeFailed
    let lifecycleObservation ← Observing.attempt (observeLifecycle o lifecycleKind ctx)
    return errorObservation.bind fun _ => lifecycleObservation

/-- Run a node: `run` is what its executor returns once it has been started. -/
def runNodeWithObservers (o : Observers) (ctx : NodeContext) (run : Except PureflowError Unit) :
    Observing Unit := do
  observeLifecycle o .nodeStarted ctx
  let terminalObservation ← observeTerminal o ctx run
  match run, terminalObservation with
  | .ok (), .ok () => return ()
  | .ok (), .error err => throw err
  | .error err, _ => throw err

/-- What is left of the run of a node once its executor has returned. -/
def endNode (o : Observers) (ctx : NodeContext) (run : Except PureflowError Unit) :
    Observing Unit := do
  let terminalObservation ← observeTerminal o ctx run
  match run, terminalObservation with
  | .ok (), .ok () => return ()
  | .ok (), .error err => throw err
  | .error err, _ => throw err

/-- The executor is reached: the observation of its start is accepted. -/
def Starts (o : Observers) (ctx : NodeContext) (j : Journal) : Prop :=
  (observeLifecycle o .nodeStarted ctx j).1 = .ok ()

lemma observeTerminal_ok (o : Observers) (ctx : NodeContext) (run : Except PureflowError Unit)
    (j : Journal) : ∃ observation j', observeTerminal o ctx run j = (.ok observation, j') := by
  rcases run with err | ⟨⟩
  · exact ⟨_, _, rfl⟩
  · exact ⟨_, _, rfl⟩

/-- **An executor failure takes precedence** over the observations of the node's end. -/
theorem runNodeWithObservers_error {o : Observers} {ctx : NodeContext} {j : Journal}
    (h : Starts o ctx j) (err : PureflowError) :
    (runNodeWithObservers o ctx (.error err) j).1 = .error err := by
  obtain ⟨j', hj'⟩ : ∃ j', observeLifecycle o .nodeStarted ctx j = (.ok (), j') :=
    ⟨_, Prod.ext h rfl⟩
  obtain ⟨observation, j'', hterminal⟩ := observeTerminal_ok o ctx (.error err) j'
  rw [runNodeWithObservers, Lib.Result.run_bind_ok hj', Lib.Result.run_bind_ok hterminal]
  rfl

end Pureflow.Runtime
