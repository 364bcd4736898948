import Pureflow.Workflow.Sorting
import Pureflow.Wasm.Agree
import Pureflow.Core.Protocol
import Pureflow.Rules.Routing
import Pureflow.Engine.Wiring
import Pureflow.Engine.Contracts
import Pureflow.Engine.Failures
import Pureflow.Format.Loading
import Pureflow.Contract.Validation
import Pureflow.Engine.Lifecycle
import Pureflow.Engine.Setup
import Pureflow.Engine.OutputContracts
import Pureflow.Introspection.Workflow
import Pureflow.Rules.Declared
import Pureflow.Rules.Spec
import Pureflow.Introspection.Rules
import Pureflow.Engine.ContractRuns
import Pureflow.Core.Conservation
import Pureflow.Format.Inlining
import Pureflow.Cli.Schema
import Pureflow.Wasm.Audit
import Pureflow.Core.Network
import Pureflow.Engine.RunNetwork
import Pureflow.Wasm.RuleFuture
import Pureflow.Wasm.Provenance
import Pureflow.Wasm.Isolation
import Pureflow.Introspection.Surfaces
import Pureflow.Wasm.Presence
import Pureflow.Wasm.Counts
import Pureflow.Workflow.Order
import Pureflow.Workflow.Cycles
import Pureflow.Contract.Diagnostics
import Pureflow.Wasm.BatchCodec
import Pureflow.Wasm.Comparisons
import Pureflow.Engine.BatchNode
import Pureflow.Wasm.MessageIds
import Pureflow.Cli.Native
import Pureflow.Cli.NativeRuns
import Pureflow.Core.Jsonl
import Pureflow.Core.Projection
import Pureflow.Format.Dispatch
import Pureflow.Wasm.Readback
import Pureflow.Rules.Glob
import Pureflow.Runs.Outcome
import Pureflow.Runs.Progress
import Pureflow.Wasm.GuestHeap
import Pureflow.Nodes.FsWatcher
import Pureflow.Runs.Feedback
import Pureflow.Cli.Manifest
import Pureflow.Cli.ManifestSchema
import Pureflow.Cli.Commands
import Pureflow.Core.Sinks
