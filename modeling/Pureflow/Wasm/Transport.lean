import Pureflow.Wasm.Codec

/-!
The component-model transport, and the call it carries.

A value handed to the guest is lowered to the record the interface types give it: a record is
its fields in the declared order, a variant or an enum is named by its case, and a value of
another shape is refused. What the guest returns is lifted the other way.
-/

namespace Pureflow.Wasm

open Std Pureflow.Types Pureflow.Core Pureflow.Lib

namespace Wit

section Lowering

def lowerBool : Val → Option Bool
  | .bool b => some b
  | _ => none

def lowerU8 : Val → Option UInt8
  | .u8 n => some n
  | _ => none

def lowerU32 : Val → Option UInt32
  | .u32 n => some n
  | _ => none

def lowerString : Val → Option String
  | .string s => some s
  | _ => none

def lowerList {α : Type} (lower : Val → Option α) : Val → Option (List α)
  | .list items => items.mapM lower
  | _ => none

def lowerOption {α : Type} (lower : Val → Option α) : Val → Option (Option α)
  | .option (some v) => (lower v).map some
  | .option none => some none
  | _ => none

def lowerScalar : Val → Option ScalarValue
  | .variant "text" (some (.string s)) => some (.text s)
  | .variant "integer" (some (.s64 n)) => some (.integer n)
  | .variant "float-value" (some (.float64 x)) => some (.floatValue x)
  | .variant "boolean" (some (.bool b)) => some (.boolean b)
  | .variant "null-value" none => some .nullValue
  | _ => none

def lowerEntry : Val → Option ScalarEntry
  | .record [("key", key), ("value", value)] =>
    return ⟨← lowerString key, ← lowerScalar value⟩
  | _ => none

def lowerPredicate : Val → Option FieldPredicate
  | .record [("path", path), ("value", value)] =>
    return ⟨← lowerString path, ← lowerScalar value⟩
  | _ => none

def lowerInPredicate : Val → Option FieldInPredicate
  | .record [("path", path), ("values", values)] =>
    return ⟨← lowerString path, ← lowerList lowerScalar values⟩
  | _ => none

def lowerMatchPredicate : Val → Option FieldMatchPredicate
  | .record [("path", path), ("pattern", pattern)] =>
    return ⟨← lowerString path, ← lowerString pattern⟩
  | _ => none

def lowerNode : Val → Option ConditionNode
  | .variant "field-eq" (some p) => return .fieldEq (← lowerPredicate p)
  | .variant "field-neq" (some p) => return .fieldNeq (← lowerPredicate p)
  | .variant "field-gt" (some p) => return .fieldGt (← lowerPredicate p)
  | .variant "field-lt" (some p) => return .fieldLt (← lowerPredicate p)
  | .variant "field-gte" (some p) => return .fieldGte (← lowerPredicate p)
  | .variant "field-lte" (some p) => return .fieldLte (← lowerPredicate p)
  | .variant "field-in" (some p) => return .fieldIn (← lowerInPredicate p)
  | .variant "field-exists" (some path) => return .fieldExists (← lowerString path)
  | .variant "field-absent" (some path) => return .fieldAbsent (← lowerString path)
  | .variant "field-matches" (some p) => return .fieldMatches (← lowerMatchPredicate p)
  | .variant "tag-eq" (some entry) => return .tagEq (← lowerEntry entry)
  | .variant "tag-exists" (some key) => return .tagExists (← lowerString key)
  | .variant "tag-absent" (some key) => return .tagAbsent (← lowerString key)
  | .variant "source-node" (some id) => return .sourceNode (← lowerString id)
  | .variant "arrived-on-port" (some id) => return .arrivedOnPort (← lowerString id)
  | .variant "hop-count-gt" (some n) => return .hopCountGt (← lowerU32 n)
  | .variant "hop-count-lte" (some n) => return .hopCountLte (← lowerU32 n)
  | .variant "workflow-is" (some id) => return .workflowIs (← lowerString id)
  | .variant "execution-metadata-eq" (some entry) =>
    return .executionMetadataEq (← lowerEntry entry)
  | .variant "and-node" (some children) => return .andNode (← lowerList lowerU32 children)
  | .variant "or-node" (some children) => return .orNode (← lowerList lowerU32 children)
  | .variant "not-node" (some child) => return .notNode (← lowerU32 child)
  | .variant "always" none => some .always
  | .variant "never" none => some .never
  | _ => none

def lowerTree : Val → Option ConditionTree
  | .record [("nodes", nodes), ("root", root)] =>
    return ⟨← lowerList lowerNode nodes, ← lowerU32 root⟩
  | _ => none

def lowerAction : Val → Option RuleAction
  | .variant "route" (some port) => return .route (← lowerString port)
  | .variant "drop" none => some .drop
  | .variant "dead-letter" (some reason) => return .deadLetter (← lowerString reason)
  | .variant "tag" (some entry) => return .tag (← lowerEntry entry)
  | .variant "halt" (some message) => return .halt (← lowerString message)
  | _ => none

def lowerStrategy : Val → Option EvaluationStrategy
  | .enum "first-match" => some .firstMatch
  | .enum "all-matches" => some .allMatches
  | .enum "score" => some .score
  | _ => none

def lowerRule : Val → Option Rule
  | .record [("id", id), ("condition", condition), ("action", action), ("priority", priority),
      ("description", description)] =>
    return ⟨← lowerString id, ← lowerTree condition, ← lowerAction action, ← lowerU32 priority,
      ← lowerString description⟩
  | _ => none

def lowerRuleSet : Val → Option RuleSet
  | .record [("id", id), ("strategy", strategy), ("rules", rules),
      ("default-action", defaultAction), ("trace-conditions", traceConditions)] =>
    return ⟨← lowerString id, ← lowerStrategy strategy, ← lowerList lowerRule rules,
      ← lowerAction defaultAction, ← lowerBool traceConditions⟩
  | _ => none

def lowerPayload : Val → Option PacketPayload
  | .variant "bytes" (some bytes) => return .bytes (← lowerList lowerU8 bytes)
  | .variant "control" (some text) => return .control (← lowerString text)
  | _ => none

def lowerContext : Val → Option EvalContext
  | .record [("payload", payload), ("tags", tags), ("source-node", sourceNode),
      ("arrival-port", arrivalPort), ("hop-count", hopCount), ("workflow-id", workflowId),
      ("execution-metadata", executionMetadata)] =>
    return ⟨← lowerPayload payload, ← lowerList lowerEntry tags,
      ← lowerOption lowerString sourceNode, ← lowerOption lowerString arrivalPort,
      ← lowerU32 hopCount, ← lowerString workflowId, ← lowerList lowerEntry executionMetadata⟩
  | _ => none

end Lowering

section Lifting

def liftScalar : ScalarValue → Val
  | .text s => .variant "text" (some (.string s))
  | .integer n => .variant "integer" (some (.s64 n))
  | .floatValue x => .variant "float-value" (some (.float64 x))
  | .boolean b => .variant "boolean" (some (.bool b))
  | .nullValue => .variant "null-value" none

def liftEntry (entry : ScalarEntry) : Val :=
  .record [("key", .string entry.key), ("value", liftScalar entry.value)]

def liftAction : RuleAction → Val
  | .route port => .variant "route" (some (.string port))
  | .drop => .variant "drop" none
  | .deadLetter reason => .variant "dead-letter" (some (.string reason))
  | .tag entry => .variant "tag" (some (liftEntry entry))
  | .halt message => .variant "halt" (some (.string message))

def liftSurface : ConditionSurface → Val
  | .payload => .enum "payload"
  | .tag => .enum "tag"
  | .provenance => .enum "provenance"
  | .executionContext => .enum "execution-context"
  | .combinator => .enum "combinator"
  | .constant => .enum "constant"

def liftTrace (trace : ConditionTrace) : Val :=
  .record [("rule-id", .string trace.ruleId), ("surface", liftSurface trace.surface),
    ("matched", .bool trace.matched)]

def liftDecision (d : RuleDecision) : Val :=
  .record [("action", liftAction d.action), ("matched-rule", .option (d.matchedRule.map .string)),
    ("tags-applied", .list (d.tagsApplied.map liftEntry)),
    ("conditions-evaluated", .list (d.conditionsEvaluated.map liftTrace))]

def liftError : RuleError → Val
  | .malformedRuleSet message => .variant "malformed-rule-set" (some (.string message))
  | .evaluationFailure message => .variant "evaluation-failure" (some (.string message))

def liftResult : Except RuleError RuleDecision → Val
  | .ok d => .result (.ok (some (liftDecision d)))
  | .error err => .result (.error (some (liftError err)))

end Lifting

end Wit

/-- The JSON library's text codec: the host's writer and the guest's parser. -/
structure JsonText where
  toString : Json.Value → Except String String
  fromStr : String → Option Json.Value

/-- A payload whose JSON text parses back to the same value; bytes carry no JSON. -/
def JsonText.Faithful (json : JsonText) : PacketPayload → Prop
  | .bytes _ => True
  | .control value => ∃ text, json.toString value = .ok text ∧ json.fromStr text = some value

/-- One rule evaluation in the guest: encode, lower, evaluate, lift and decode. The outer `none`
is a call that is refused by the transport or does not return. -/
def evaluateInGuest (json : JsonText) (ruleSet : Rules.RuleSet) (context : HostEvalContext) :
    Option (Except PureflowError Rules.RuleDecision) :=
  match ruleSetToVal ruleSet, evalContextToVal json.toString context with
  | .error err, _ => some (.error err)
  | .ok _, .error err => some (.error err)
  | .ok ruleSetVal, .ok contextVal => do
    let ruleSet ← Wit.lowerRuleSet ruleSetVal
    let context ← Wit.lowerContext contextVal
    let answer ← Guest.evaluate json.fromStr ruleSet context
    return decisionFromResultVal (Wit.liftResult answer)

end Pureflow.Wasm
