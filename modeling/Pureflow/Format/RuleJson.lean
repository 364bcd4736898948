import Pureflow.Lib.Serde
import Pureflow.Rules.Rule

/-!
Rule sets as JSON: what the derived deserialisers of the rule language read, and what its derived
serialisers write.

Reading builds values field by field: only identifiers are checked. A document that is not read
is not told apart from another here; what is said of it is left to the JSON library.
-/

namespace Pureflow.Format

open Pureflow.Types Pureflow.Rules Pureflow.Lib Pureflow.Lib.Serde Pureflow.Lib.Json

section Reading

variable (form : Form)

def readIdentifier (kind : IdentifierKind) (v : Value) : Option (Identifier kind) :=
  (readString v).bind fun s => (Identifier.new kind s).toOption

def readFieldPath (v : Value) : Option FieldPath := (readString v).map FieldPath.mk

def readGlobPattern (v : Value) : Option GlobPattern := (readString v).map GlobPattern.mk

def scalarVariants : Variants ScalarValue := [
  ("String", newtypeVariant readString .string),
  ("Integer", newtypeVariant readI64 .integer),
  ("Float", newtypeVariant readF64 .float),
  ("Boolean", newtypeVariant readBool .boolean),
  ("Null", unitVariant .null)]

def readScalar : Value → Option ScalarValue := readEnum scalarVariants

def actionVariants : Variants RuleAction := [
  ("Route", newtypeVariant (readIdentifier .port) .route),
  ("Drop", unitVariant .drop),
  ("DeadLetter", newtypeVariant readString .deadLetter),
  ("Tag", variant₂ form "key" readString "value" readScalar .tag),
  ("Halt", newtypeVariant readString .halt)]

def readAction : Value → Option RuleAction := readEnum (actionVariants form)

/-- The variants that hold no conditions. -/
def conditionVariants : Variants Condition := [
  ("FieldEq", variant₂ form "path" readFieldPath "value" readScalar .fieldEq),
  ("FieldNeq", variant₂ form "path" readFieldPath "value" readScalar .fieldNeq),
  ("FieldGt", variant₂ form "path" readFieldPath "value" readScalar .fieldGt),
  ("FieldLt", variant₂ form "path" readFieldPath "value" readScalar .fieldLt),
  ("FieldGte", variant₂ form "path" readFieldPath "value" readScalar .fieldGte),
  ("FieldLte", variant₂ form "path" readFieldPath "value" readScalar .fieldLte),
  ("FieldIn", variant₂ form "path" readFieldPath "values" (readList readScalar) .fieldIn),
  ("FieldExists", variant₁ form "path" readFieldPath .fieldExists),
  ("FieldAbsent", variant₁ form "path" readFieldPath .fieldAbsent),
  ("FieldMatches", variant₂ form "path" readFieldPath "pattern" readGlobPattern .fieldMatches),
  ("TagEq", variant₂ form "key" readString "value" readScalar .tagEq),
  ("TagExists", variant₁ form "key" readString .tagExists),
  ("TagAbsent", variant₁ form "key" readString .tagAbsent),
  ("SourceNode", variant₁ form "node_id" (readIdentifier .node) .sourceNode),
  ("ArrivedOnPort", variant₁ form "port_id" (readIdentifier .port) .arrivedOnPort),
  ("HopCountGt", variant₁ form "n" readU32 .hopCountGt),
  ("HopCountLte", variant₁ form "n" readU32 .hopCountLte),
  ("WorkflowIs", variant₁ form "workflow_id" (readIdentifier .workflow) .workflowIs),
  ("ExecutionMetadataEq", variant₂ form "key" readString "value" readScalar .executionMetadataEq),
  ("Always", unitVariant .always),
  ("Never", unitVariant .never)]

mutual

def readCondition : Value → Option Condition
  | .string tag => (conditionVariants form).read tag none
  | .object [(tag, data)] =>
    match tag, data with
    | "And", .array items => (readConditions items).map .and
    | "Or", .array items => (readConditions items).map .or
    | "Not", inner => (readCondition inner).map .not
    | tag, data => (conditionVariants form).read tag (some data)
  | _ => none
termination_by structural v => v

def readConditions : List Value → Option (List Condition)
  | [] => some []
  | v :: rest => do
    let condition ← readCondition v
    return condition :: (← readConditions rest)
termination_by structural items => items

end

def strategyVariants : Variants EvaluationStrategy := [
  ("FirstMatch", unitVariant .firstMatch),
  ("AllMatches", unitVariant .allMatches),
  ("Score", unitVariant .score)]

def readStrategy : Value → Option EvaluationStrategy := readEnum strategyVariants

def ruleFields : List String := ["id", "condition", "action", "priority", "description"]

def readRule (v : Value) : Option Rule := do
  guard (isRecord ruleFields v)
  return {
    id := ← field ruleFields "id" readString v
    condition := ← field ruleFields "condition" (readCondition form) v
    action := ← field ruleFields "action" (readAction form) v
    priority := ← field ruleFields "priority" readU32 v
    description := ← field ruleFields "description" readString v }

def ruleSetFields : List String := ["id", "strategy", "rules", "default_action", "trace_conditions"]

def readRuleSet (v : Value) : Option RuleSet := do
  guard (isRecord ruleSetFields v)
  return {
    id := ← field ruleSetFields "id" readString v
    strategy := ← field ruleSetFields "strategy" readStrategy v
    rules := ← field ruleSetFields "rules" (readList (readRule form)) v
    defaultAction := ← field ruleSetFields "default_action" (readAction form) v
    traceConditions := ← field ruleSetFields "trace_conditions" readBool v }

end Reading

section Writing

/-- A variant with its data. -/
def tagged (tag : String) (data : Value) : Value := .object [(tag, data)]

def scalarValue : ScalarValue → Value
  | .string s => tagged "String" (.string s)
  | .integer n => tagged "Integer" (.ofInt64 n)
  | .float x => tagged "Float" (.ofF64 x)
  | .boolean b => tagged "Boolean" (.bool b)
  | .null => .string "Null"

def actionValue : RuleAction → Value
  | .route port => tagged "Route" (.string port.value)
  | .drop => .string "Drop"
  | .deadLetter reason => tagged "DeadLetter" (.string reason)
  | .tag key value => tagged "Tag" (.object [("key", .string key), ("value", scalarValue value)])
  | .halt message => tagged "Halt" (.string message)

def u32Value (n : UInt32) : Value := .number (.posInt n.toUInt64)

def pathValue (tag : String) (path : FieldPath) (name : String) (value : Value) : Value :=
  tagged tag (.object [("path", .string path.value), (name, value)])

mutual

def conditionValue : Condition → Value
  | .fieldEq path value => pathValue "FieldEq" path "value" (scalarValue value)
  | .fieldNeq path value => pathValue "FieldNeq" path "value" (scalarValue value)
  | .fieldGt path value => pathValue "FieldGt" path "value" (scalarValue value)
  | .fieldLt path value => pathValue "FieldLt" path "value" (scalarValue value)
  | .fieldGte path value => pathValue "FieldGte" path "value" (scalarValue value)
  | .fieldLte path value => pathValue "FieldLte" path "value" (scalarValue value)
  | .fieldIn path values => pathValue "FieldIn" path "values" (.array (values.map scalarValue))
  | .fieldExists path => tagged "FieldExists" (.object [("path", .string path.value)])
  | .fieldAbsent path => tagged "FieldAbsent" (.object [("path", .string path.value)])
  | .fieldMatches path pattern => pathValue "FieldMatches" path "pattern" (.string pattern.value)
  | .tagEq key value =>
    tagged "TagEq" (.object [("key", .string key), ("value", scalarValue value)])
  | .tagExists key => tagged "TagExists" (.object [("key", .string key)])
  | .tagAbsent key => tagged "TagAbsent" (.object [("key", .string key)])
  | .sourceNode nodeId => tagged "SourceNode" (.object [("node_id", .string nodeId.value)])
  | .arrivedOnPort portId => tagged "ArrivedOnPort" (.object [("port_id", .string portId.value)])
  | .hopCountGt n => tagged "HopCountGt" (.object [("n", u32Value n)])
  | .hopCountLte n => tagged "HopCountLte" (.object [("n", u32Value n)])
  | .workflowIs workflowId =>
    tagged "WorkflowIs" (.object [("workflow_id", .string workflowId.value)])
  | .executionMetadataEq key value =>
    tagged "ExecutionMetadataEq" (.object [("key", .string key), ("value", scalarValue value)])
  | .and conditions => tagged "And" (.array (conditionValues conditions))
  | .or conditions => tagged "Or" (.array (conditionValues conditions))
  | .not inner => tagged "Not" (conditionValue inner)
  | .always => .string "Always"
  | .never => .string "Never"

def conditionValues : List Condition → List Value
  | [] => []
  | c :: rest => conditionValue c :: conditionValues rest

end

def strategyValue : EvaluationStrategy → Value
  | .firstMatch => .string "FirstMatch"
  | .allMatches => .string "AllMatches"
  | .score => .string "Score"

/-- Objects are held in key order. -/
def ruleValue (rule : Rule) : Value := .object [
  ("action", actionValue rule.action),
  ("condition", conditionValue rule.condition),
  ("description", .string rule.description),
  ("id", .string rule.id),
  ("priority", u32Value rule.priority)]

def ruleSetValue (ruleSet : RuleSet) : Value := .object [
  ("default_action", actionValue ruleSet.defaultAction),
  ("id", .string ruleSet.id),
  ("rules", .array (ruleSet.rules.map ruleValue)),
  ("strategy", strategyValue ruleSet.strategy),
  ("trace_conditions", .bool ruleSet.traceConditions)]

end Writing

end Pureflow.Format
