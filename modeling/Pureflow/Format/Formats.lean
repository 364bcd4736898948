import Pureflow.Format.Raw

/-!
Workflow documents in TOML and in YAML, and the texts of format errors.
-/

namespace Pureflow.Format

open Pureflow.Workflow Pureflow.Lib

section Texts

instance : ToString IdentifierContext where
  toString
    | .workflow => "workflow id"
    | .node nodeIndex => s!"node {nodeIndex} id"
    | .inputPort nodeIndex portIndex => s!"node {nodeIndex} input port {portIndex}"
    | .outputPort nodeIndex portIndex => s!"node {nodeIndex} output port {portIndex}"
    | .edgeSourceNode edgeIndex => s!"edge {edgeIndex} source node"
    | .edgeSourcePort edgeIndex => s!"edge {edgeIndex} source port"
    | .edgeTargetNode edgeIndex => s!"edge {edgeIndex} target node"
    | .edgeTargetPort edgeIndex => s!"edge {edgeIndex} target port"

instance : ToString RuleSetBindingError where
  toString
    | .conflict => "node declares both an inline rule_set and a rule_set_ref"
    | .resolve source => s!"failed to resolve rule_set_ref: {source}"
    | .parse reason => s!"inline rule_set is invalid: {reason}"

instance : ToString WorkflowFormatError where
  toString
    | .missingVersion => "workflow document is missing pureflow_version"
    | .unsupportedVersion version =>
      s!"workflow document uses unsupported pureflow_version `{version}`"
    | .identifier context source => s!"{context} is invalid: {source}"
    | .invalidEdgeCapacity edgeIndex capacity =>
      s!"edge {edgeIndex} explicit capacity must be greater than zero, got {capacity}"
    | .workflow source => s!"workflow validation failed: {source}"
    | .ruleSet nodeIndex source => s!"node {nodeIndex} rule set is invalid: {source}"

end Texts

section Documents

/-- What the libraries of the two formats read from a text, or what they say of it. -/
structure FormatLibraries where
  fromTomlStr : String → Except String RawWorkflowDefinition
  fromYamlStr : String → Except String RawWorkflowDefinition

inductive WorkflowTomlError
  | decode (source : String)
  | format (source : WorkflowFormatError)
  deriving DecidableEq

inductive WorkflowYamlError
  | decode (source : String)
  | format (source : WorkflowFormatError)
  deriving DecidableEq

variable (formats : FormatLibraries)

def rawWorkflowFromTomlStr (input : String) : Except WorkflowTomlError RawWorkflowDefinition :=
  (formats.fromTomlStr input).mapError .decode

def workflowFromTomlStr (input : String) : Except WorkflowTomlError WorkflowDefinition := do
  let raw ← rawWorkflowFromTomlStr formats input
  raw.toWorkflow.mapError .format

def rawWorkflowFromYamlStr (input : String) : Except WorkflowYamlError RawWorkflowDefinition :=
  (formats.fromYamlStr input).mapError .decode

def workflowFromYamlStr (input : String) : Except WorkflowYamlError WorkflowDefinition := do
  let raw ← rawWorkflowFromYamlStr formats input
  raw.toWorkflow.mapError .format

end Documents

end Pureflow.Format
