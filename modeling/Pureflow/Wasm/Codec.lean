import Pureflow.Rules.Eval
import Pureflow.Wasm.Guest

/-!
The host side of the rule boundary: encoding a rule set and a context as component-model
values, and decoding the decision the guest returns. The text of a JSON value is the JSON
library's and is a parameter.
-/

namespace Pureflow.Wasm

open Std Pureflow.Types Pureflow.Core Pureflow.Lib Pureflow.Rules

/-- Dynamic component-model values, as far as the interface has them. -/
inductive Val
  | bool (b : Bool)
  | u8 (n : UInt8)
  | u32 (n : UInt32)
  | s64 (n : Int64)
  | float64 (x : F64)
  | string (s : String)
  | list (items : List Val)
  | record (fields : List (String × Val))
  | variant (name : String) (payload : Option Val)
  | enum (name : String)
  | option (payload : Option Val)
  | result (r : Except (Option Val) (Option Val))

/-- Owned, host-side evaluation context for one packet. -/
structure HostEvalContext where
  payload : PacketPayload
  tags : ExtTreeMap String ScalarValue
  sourceNode : Option String
  arrivalPort : Option String
  hopCount : UInt32
  workflowId : String
  executionMetadata : ExtTreeMap String ScalarValue

/-- The host context that mirrors a native one. -/
def HostEvalContext.ofNative (payload : PacketPayload) (context : Rules.EvalContext) :
    HostEvalContext where
  payload := payload
  tags := context.tags
  sourceNode := context.sourceNode.map toString
  arrivalPort := context.arrivalPort.map toString
  hopCount := context.hopCount
  workflowId := toString context.workflowId
  executionMetadata := context.executionMetadata

section Encoding

def scalarToVal : ScalarValue → Val
  | .string text => .variant "text" (some (.string text))
  | .integer value => .variant "integer" (some (.s64 value))
  | .float value => .variant "float-value" (some (.float64 value))
  | .boolean value => .variant "boolean" (some (.bool value))
  | .null => .variant "null-value" none

def fieldPredicate (path : String) (value : ScalarValue) : Val :=
  .record [("path", .string path), ("value", scalarToVal value)]

def scalarEntryToVal (key : String) (value : ScalarValue) : Val :=
  .record [("key", .string key), ("value", scalarToVal value)]

def actionToVal : RuleAction → Val
  | .route port => .variant "route" (some (.string (toString port)))
  | .drop => .variant "drop" none
  | .deadLetter reason => .variant "dead-letter" (some (.string reason))
  | .tag key value => .variant "tag" (some (scalarEntryToVal key value))
  | .halt message => .variant "halt" (some (.string message))

def strategyToVal : EvaluationStrategy → Val
  | .firstMatch => .enum "first-match"
  | .allMatches => .enum "all-matches"
  | .score => .enum "score"

/-- Append a node and return its index, capped at the largest 32-bit number. -/
def pushNode (node : Val) (nodes : List Val) : UInt32 × List Val :=
  (UInt32.ofNat (min nodes.length (2 ^ 32 - 1)), nodes ++ [node])

mutual

/-- Push a condition after its children and return its index. -/
def pushCondition : Condition → List Val → UInt32 × List Val
  | .fieldEq path value, nodes =>
    pushNode (.variant "field-eq" (some (fieldPredicate path.value value))) nodes
  | .fieldNeq path value, nodes =>
    pushNode (.variant "field-neq" (some (fieldPredicate path.value value))) nodes
  | .fieldGt path value, nodes =>
    pushNode (.variant "field-gt" (some (fieldPredicate path.value value))) nodes
  | .fieldLt path value, nodes =>
    pushNode (.variant "field-lt" (some (fieldPredicate path.value value))) nodes
  | .fieldGte path value, nodes =>
    pushNode (.variant "field-gte" (some (fieldPredicate path.value value))) nodes
  | .fieldLte path value, nodes =>
    pushNode (.variant "field-lte" (some (fieldPredicate path.value value))) nodes
  | .fieldIn path values, nodes =>
    pushNode (.variant "field-in" (some (.record
      [("path", .string path.value), ("values", .list (values.map scalarToVal))]))) nodes
  | .fieldExists path, nodes =>
    pushNode (.variant "field-exists" (some (.string path.value))) nodes
  | .fieldAbsent path, nodes =>
    pushNode (.variant "field-absent" (some (.string path.value))) nodes
  | .fieldMatches path pattern, nodes =>
    pushNode (.variant "field-matches" (some (.record
      [("path", .string path.value), ("pattern", .string pattern.value)]))) nodes
  | .tagEq key value, nodes =>
    pushNode (.variant "tag-eq" (some (scalarEntryToVal key value))) nodes
  | .tagExists key, nodes => pushNode (.variant "tag-exists" (some (.string key))) nodes
  | .tagAbsent key, nodes => pushNode (.variant "tag-absent" (some (.string key))) nodes
  | .sourceNode nodeId, nodes =>
    pushNode (.variant "source-node" (some (.string (toString nodeId)))) nodes
  | .arrivedOnPort portId, nodes =>
    pushNode (.variant "arrived-on-port" (some (.string (toString portId)))) nodes
  | .hopCountGt n, nodes => pushNode (.variant "hop-count-gt" (some (.u32 n))) nodes
  | .hopCountLte n, nodes => pushNode (.variant "hop-count-lte" (some (.u32 n))) nodes
  | .workflowIs workflowId, nodes =>
    pushNode (.variant "workflow-is" (some (.string (toString workflowId)))) nodes
  | .executionMetadataEq key value, nodes =>
    pushNode (.variant "execution-metadata-eq" (some (scalarEntryToVal key value))) nodes
  | .and children, nodes =>
    let (indices, nodes) := pushConditions children nodes
    pushNode (.variant "and-node" (some (.list (indices.map .u32)))) nodes
  | .or children, nodes =>
    let (indices, nodes) := pushConditions children nodes
    pushNode (.variant "or-node" (some (.list (indices.map .u32)))) nodes
  | .not inner, nodes =>
    let (index, nodes) := pushCondition inner nodes
    pushNode (.variant "not-node" (some (.u32 index))) nodes
  | .always, nodes => pushNode (.variant "always" none) nodes
  | .never, nodes => pushNode (.variant "never" none) nodes

def pushConditions : List Condition → List Val → List UInt32 × List Val
  | [], nodes => ([], nodes)
  | c :: rest, nodes =>
    let (index, nodes) := pushCondition c nodes
    let (indices, nodes) := pushConditions rest nodes
    (index :: indices, nodes)

end

/-- Encode a recursive condition as a flat arena. -/
def conditionTreeToVal (condition : Condition) : Val :=
  let (root, nodes) := pushCondition condition []
  .record [("nodes", .list nodes), ("root", .u32 root)]

def ruleToVal (rule : Rules.Rule) : Except PureflowError Val :=
  .ok (.record
    [("id", .string rule.id), ("condition", conditionTreeToVal rule.condition),
      ("action", actionToVal rule.action), ("priority", .u32 rule.priority),
      ("description", .string rule.description)])

def ruleSetToVal (ruleSet : Rules.RuleSet) : Except PureflowError Val := do
  let rules ← ruleSet.rules.mapM ruleToVal
  return .record
    [("id", .string ruleSet.id), ("strategy", strategyToVal ruleSet.strategy),
      ("rules", .list rules), ("default-action", actionToVal ruleSet.defaultAction),
      ("trace-conditions", .bool ruleSet.traceConditions)]

/-- `toString` is the JSON library's writer, which may fail with a text. -/
def payloadToVal (toString : Json.Value → Except String String) :
    PacketPayload → Except PureflowError Val
  | .bytes bytes => .ok (.variant "bytes" (some (.list (bytes.map .u8))))
  | .control value =>
    match toString value with
    | .ok encoded => .ok (.variant "control" (some (.string encoded)))
    | .error err => .error (.execution s!"failed to encode control payload: {err}")

def scalarEntriesToVal (entries : ExtTreeMap String ScalarValue) : List Val :=
  entries.toList.map fun (key, value) => scalarEntryToVal key value

def evalContextToVal (toString : Json.Value → Except String String) (context : HostEvalContext) :
    Except PureflowError Val := do
  let payload ← payloadToVal toString context.payload
  return .record
    [("payload", payload), ("tags", .list (scalarEntriesToVal context.tags)),
      ("source-node", .option (context.sourceNode.map .string)),
      ("arrival-port", .option (context.arrivalPort.map .string)),
      ("hop-count", .u32 context.hopCount), ("workflow-id", .string context.workflowId),
      ("execution-metadata", .list (scalarEntriesToVal context.executionMetadata))]

end Encoding

section Decoding

def recordFields (value : Val) (context : String) : Except PureflowError (List (String × Val)) :=
  match value with
  | .record fields => .ok fields
  | _ => .error (.execution s!"guest returned non-record {context}")

def requiredField (fields : List (String × Val)) (name context : String) :
    Except PureflowError Val :=
  match fields.lookup name with
  | some value => .ok value
  | none => .error (.execution s!"guest omitted {context} field {name}")

def requiredStringField (fields : List (String × Val)) (name context : String) :
    Except PureflowError String := do
  match ← requiredField fields name context with
  | .string value => .ok value
  | _ => .error (.execution s!"guest returned non-string {context} field {name}")

def requiredListField (fields : List (String × Val)) (name context : String) :
    Except PureflowError (List Val) := do
  match ← requiredField fields name context with
  | .list values => .ok values
  | _ => .error (.execution s!"guest returned non-list {context} field {name}")

def asVariant (value : Val) (context : String) : Except PureflowError (String × Option Val) :=
  match value with
  | .variant name payload => .ok (name, payload)
  | _ => .error (.execution s!"guest returned non-variant {context}")

def asString (value : Val) (context : String) : Except PureflowError String :=
  match value with
  | .string value => .ok value
  | _ => .error (.execution s!"guest returned non-string {context}")

def optionalString : Val → Except PureflowError (Option String)
  | .option (some inner) => return some (← asString inner "option string")
  | .option none => .ok none
  | _ => .error (.execution "guest returned non-option value")

def scalarFromVal (value : Val) : Except PureflowError ScalarValue := do
  match ← asVariant value "scalar value" with
  | ("text", some payload) => return .string (← asString payload "text scalar")
  | ("integer", some payload) =>
    match payload with
    | .s64 value => .ok (.integer value)
    | _ => .error (.execution "guest returned non-s64 integer scalar")
  | ("float-value", some payload) =>
    match payload with
    | .float64 value => .ok (.float value)
    | _ => .error (.execution "guest returned non-f64 float scalar")
  | ("boolean", some payload) =>
    match payload with
    | .bool value => .ok (.boolean value)
    | _ => .error (.execution "guest returned non-bool boolean scalar")
  | ("null-value", _) => .ok .null
  | (kind, _) => .error (.execution s!"guest returned unsupported scalar value: {kind}")

def scalarEntryFromVal (value : Val) : Except PureflowError (String × ScalarValue) := do
  let fields ← recordFields value "scalar entry"
  let key ← requiredStringField fields "key" "scalar entry"
  let value ← scalarFromVal (← requiredField fields "value" "scalar entry")
  return (key, value)

def actionFromVal (value : Val) : Except PureflowError RuleAction := do
  match ← asVariant value "rule action" with
  | ("route", some payload) =>
    let port ← asString payload "route port"
    match Identifier.new .port port with
    | .ok port => .ok (.route port)
    | .error err => .error (.ofIdentifier err)
  | ("drop", _) => .ok .drop
  | ("dead-letter", some payload) => return .deadLetter (← asString payload "dead-letter reason")
  | ("tag", some payload) =>
    let (key, value) ← scalarEntryFromVal payload
    return .tag key value
  | ("halt", some payload) => return .halt (← asString payload "halt message")
  | (kind, _) => .error (.execution s!"guest returned unsupported rule action: {kind}")

def surfaceFromVal : Val → Except PureflowError ConditionSurfaceRecord
  | .enum "payload" => .ok .payload
  | .enum "tag" => .ok .tag
  | .enum "provenance" => .ok .provenance
  | .enum "execution-context" => .ok .executionContext
  | .enum "combinator" => .ok .combinator
  | .enum "constant" => .ok .constant
  | .enum other => .error (.execution s!"guest returned unknown condition surface: {other}")
  | _ => .error (.execution "guest returned non-enum condition surface")

/-- The description stays empty: the interface does not carry it. -/
def conditionTraceFromVal (value : Val) : Except PureflowError ConditionTrace := do
  let fields ← recordFields value "condition trace"
  let ruleId ← requiredStringField fields "rule-id" "condition trace"
  let surface ← surfaceFromVal (← requiredField fields "surface" "condition trace")
  match ← requiredField fields "matched" "condition trace" with
  | .bool matched => return ⟨ruleId, "", matched, surface⟩
  | _ => .error (.execution "guest returned non-bool condition trace match")

def decisionFromVal (value : Val) : Except PureflowError RuleDecision := do
  let fields ← recordFields value "rule decision"
  let action ← actionFromVal (← requiredField fields "action" "rule decision")
  let matchedRule ← optionalString (← requiredField fields "matched-rule" "rule decision")
  let tags ← requiredListField fields "tags-applied" "rule decision"
  let tagsApplied ← tags.mapM scalarEntryFromVal
  let traces ← requiredListField fields "conditions-evaluated" "rule decision"
  let conditionsEvaluated ← traces.mapM conditionTraceFromVal
  return ⟨action, matchedRule, tagsApplied, conditionsEvaluated⟩

def ruleErrorFromVal : Val → PureflowError
  | .variant name (some (.string message)) => .execution s!"guest rule {name}: {message}"
  | .variant name (some _) => .execution s!"guest returned malformed {name} rule error"
  | .variant name none => .execution s!"guest returned {name} without detail"
  | _ => .execution "guest returned malformed rule error"

def decisionFromResultVal : Val → Except PureflowError RuleDecision
  | .result (.ok (some value)) => decisionFromVal value
  | .result (.ok none) => .error (.execution "guest returned empty ok result from rules.evaluate")
  | .result (.error (some value)) => .error (ruleErrorFromVal value)
  | .result (.error none) => .error (.execution "guest returned empty error from rules.evaluate")
  | _ => .error (.execution "guest returned non-result from rules.evaluate")

end Decoding

end Pureflow.Wasm
