import Pureflow.Lib.Json
import Pureflow.Lib.Text

/-!
The rule guest: the records of the `pureflow:rules` interface and the evaluator over them.

The guest walks the arena of a condition by index and nothing bounds the walk, so an arena with
a loop would never return. A walk that returns visits no index twice on the way down; the model
gives it one call for each node and one more, and `none` stands for a walk that does not return.
-/

namespace Pureflow.Wasm

open Pureflow.Lib

namespace Wit

inductive ScalarValue
  | text (s : String)
  | integer (n : Int64)
  | floatValue (x : F64)
  | boolean (b : Bool)
  | nullValue
  deriving DecidableEq

structure ScalarEntry where
  key : String
  value : ScalarValue
  deriving DecidableEq

structure FieldPredicate where
  path : String
  value : ScalarValue
  deriving DecidableEq

structure FieldInPredicate where
  path : String
  values : List ScalarValue
  deriving DecidableEq

structure FieldMatchPredicate where
  path : String
  pattern : String
  deriving DecidableEq

/-- One node in a flattened condition tree; combinators name their children by index. -/
inductive ConditionNode
  | fieldEq (p : FieldPredicate)
  | fieldNeq (p : FieldPredicate)
  | fieldGt (p : FieldPredicate)
  | fieldLt (p : FieldPredicate)
  | fieldGte (p : FieldPredicate)
  | fieldLte (p : FieldPredicate)
  | fieldIn (p : FieldInPredicate)
  | fieldExists (path : String)
  | fieldAbsent (path : String)
  | fieldMatches (p : FieldMatchPredicate)
  | tagEq (entry : ScalarEntry)
  | tagExists (key : String)
  | tagAbsent (key : String)
  | sourceNode (nodeId : String)
  | arrivedOnPort (portId : String)
  | hopCountGt (n : UInt32)
  | hopCountLte (n : UInt32)
  | workflowIs (id : String)
  | executionMetadataEq (entry : ScalarEntry)
  | andNode (children : List UInt32)
  | orNode (children : List UInt32)
  | notNode (child : UInt32)
  | always
  | never
  deriving DecidableEq

structure ConditionTree where
  nodes : List ConditionNode
  root : UInt32
  deriving DecidableEq

inductive RuleAction
  | route (port : String)
  | drop
  | deadLetter (reason : String)
  | tag (entry : ScalarEntry)
  | halt (message : String)
  deriving DecidableEq

inductive EvaluationStrategy
  | firstMatch | allMatches | score
  deriving DecidableEq

structure Rule where
  id : String
  condition : ConditionTree
  action : RuleAction
  priority : UInt32
  description : String
  deriving DecidableEq

structure RuleSet where
  id : String
  strategy : EvaluationStrategy
  rules : List Rule
  defaultAction : RuleAction
  traceConditions : Bool
  deriving DecidableEq

inductive PacketPayload
  | bytes (bytes : List UInt8)
  | control (text : String)
  deriving DecidableEq

structure EvalContext where
  payload : PacketPayload
  tags : List ScalarEntry
  sourceNode : Option String
  arrivalPort : Option String
  hopCount : UInt32
  workflowId : String
  executionMetadata : List ScalarEntry
  deriving DecidableEq

inductive ConditionSurface
  | payload | tag | provenance | executionContext | combinator | constant
  deriving DecidableEq

structure ConditionTrace where
  ruleId : String
  surface : ConditionSurface
  matched : Bool
  deriving DecidableEq

structure RuleDecision where
  action : RuleAction
  matchedRule : Option String
  tagsApplied : List ScalarEntry
  conditionsEvaluated : List ConditionTrace
  deriving DecidableEq

inductive RuleError
  | malformedRuleSet (message : String)
  | evaluationFailure (message : String)
  deriving DecidableEq

end Wit

namespace Guest

open Wit

def defaultDecision (action : RuleAction) (tagsApplied : List ScalarEntry)
    (conditionsEvaluated : List ConditionTrace) : RuleDecision :=
  ⟨action, none, tagsApplied, conditionsEvaluated⟩

def isTerminal : RuleAction → Bool
  | .tag _ => false
  | _ => true

def resolve.go : List String → Json.Value → Option Json.Value
  | [], current => some current
  | segment :: rest, current => (current.get segment).bind (go rest)

def resolve (payload : Option Json.Value) (path : String) : Option Json.Value :=
  payload.bind (resolve.go (Text.split path '.'))

def jsonEq : Json.Value → ScalarValue → Bool
  | .string s, .text r => s == r
  | .number n, .integer i => n.asI64 == some i
  | .number n, .floatValue x => n.asF64.beq x
  | .bool b, .boolean r => b == r
  | .null, .nullValue => true
  | _, _ => false

def scalarToF64 : ScalarValue → Option F64
  | .integer i => some (.ofInt64 i)
  | .floatValue x => some x
  | _ => none

def jsonCmp (json : Json.Value) (scalar : ScalarValue) : Option Ordering := do
  let jsonF ← json.asF64
  let scalarF ← scalarToF64 scalar
  jsonF.compare scalarF

def scalarEq : ScalarValue → ScalarValue → Bool
  | .text x, .text y => x == y
  | .integer x, .integer y => x == y
  | .floatValue x, .floatValue y => x.beq y
  | .boolean x, .boolean y => x == y
  | .nullValue, .nullValue => true
  | _, _ => false

def tagValue (entries : List ScalarEntry) (key : String) : Option ScalarValue :=
  (entries.find? (·.key == key)).map (·.value)

def globMatchInner : List Char → List Char → Bool
  | [], [] => true
  | '*' :: restP, value =>
    if globMatchInner restP value then true
    else
      match value with
      | [] => false
      | _ :: restV => globMatchInner ('*' :: restP) restV
  | '?' :: restP, _ :: restV => globMatchInner restP restV
  | p :: restP, v :: restV => if p = v then globMatchInner restP restV else false
  | _, _ => false
termination_by pattern value => pattern.length + value.length

def globMatch (pattern value : String) : Bool := globMatchInner pattern.toList value.toList

/-- One node, given the value of each index: the body of `eval_node`. -/
def evalNodeBody (payload : Option Json.Value) (ctx : EvalContext)
    (evalChild : UInt32 → Option Bool) : ConditionNode → Option Bool
  | .fieldEq p => some (((resolve payload p.path).map (jsonEq · p.value)).getD false)
  | .fieldNeq p => some (((resolve payload p.path).map (!jsonEq · p.value)).getD false)
  | .fieldGt p =>
    some ((((resolve payload p.path).bind (jsonCmp · p.value)).map (· == .gt)).getD false)
  | .fieldLt p =>
    some ((((resolve payload p.path).bind (jsonCmp · p.value)).map (· == .lt)).getD false)
  | .fieldGte p =>
    some ((((resolve payload p.path).bind (jsonCmp · p.value)).map (· != .lt)).getD false)
  | .fieldLte p =>
    some ((((resolve payload p.path).bind (jsonCmp · p.value)).map (· != .gt)).getD false)
  | .fieldIn p =>
    some (((resolve payload p.path).map fun v => p.values.any (jsonEq v)).getD false)
  | .fieldExists path => some (resolve payload path).isSome
  | .fieldAbsent path => some (((resolve payload path).map Json.Value.isNull).getD true)
  | .fieldMatches p =>
    some ((((resolve payload p.path).bind Json.Value.asStr).map (globMatch p.pattern)).getD false)
  | .tagEq entry => some (((tagValue ctx.tags entry.key).map (scalarEq · entry.value)).getD false)
  | .tagExists key => some (tagValue ctx.tags key).isSome
  | .tagAbsent key => some (tagValue ctx.tags key).isNone
  | .sourceNode nodeId => some (ctx.sourceNode == some nodeId)
  | .arrivedOnPort portId => some (ctx.arrivalPort == some portId)
  | .hopCountGt n => some (n < ctx.hopCount)
  | .hopCountLte n => some (ctx.hopCount ≤ n)
  | .workflowIs id => some (ctx.workflowId == id)
  | .executionMetadataEq entry =>
    some (((tagValue ctx.executionMetadata entry.key).map (scalarEq · entry.value)).getD false)
  | .andNode children => children.allM evalChild
  | .orNode children => children.anyM evalChild
  | .notNode child => (evalChild child).map not
  | .always => some true
  | .never => some false

/-- Evaluate the node at an index; an index outside the arena is false. -/
def evalNode (nodes : List ConditionNode) (payload : Option Json.Value) (ctx : EvalContext) :
    ℕ → UInt32 → Option Bool
  | 0, _ => none
  | fuel + 1, index =>
    match nodes[index.toNat]? with
    | none => some false
    | some node => evalNodeBody payload ctx (evalNode nodes payload ctx fuel) node

def evalRule (rule : Rule) (payload : Option Json.Value) (ctx : EvalContext) : Option Bool :=
  let nodes := rule.condition.nodes
  evalNode nodes payload ctx (nodes.length + 1) rule.condition.root

def surfaceOf : ConditionNode → ConditionSurface
  | .fieldEq _ | .fieldNeq _ | .fieldGt _ | .fieldLt _ | .fieldGte _ | .fieldLte _ | .fieldIn _
  | .fieldExists _ | .fieldAbsent _ | .fieldMatches _ => .payload
  | .tagEq _ | .tagExists _ | .tagAbsent _ => .tag
  | .sourceNode _ | .arrivedOnPort _ | .hopCountGt _ | .hopCountLte _ => .provenance
  | .workflowIs _ | .executionMetadataEq _ => .executionContext
  | .andNode _ | .orNode _ | .notNode _ => .combinator
  | .always | .never => .constant

def traceOf (rule : Rule) (matched : Bool) : ConditionTrace :=
  let root := rule.condition.nodes[rule.condition.root.toNat]?
  ⟨rule.id, (root.map surfaceOf).getD .constant, matched⟩

/-- The traces with one more, when the rule set asks for them. -/
def pushTrace (trace : Bool) (traces : List ConditionTrace) (rule : Rule) (matched : Bool) :
    List ConditionTrace :=
  if trace then traces ++ [traceOf rule matched] else traces

def pushTag (action : RuleAction) (tagsApplied : List ScalarEntry) : List ScalarEntry :=
  match action with
  | .tag entry => tagsApplied ++ [entry]
  | _ => tagsApplied

section Loops

variable (ruleSet : RuleSet) (payload : Option Json.Value) (ctx : EvalContext)

def firstMatch : List Rule → List ConditionTrace → List ScalarEntry → Option RuleDecision
  | [], traces, tagsApplied => some (defaultDecision ruleSet.defaultAction tagsApplied traces)
  | rule :: rest, traces, tagsApplied => do
    let matched ← evalRule rule payload ctx
    let traces := pushTrace ruleSet.traceConditions traces rule matched
    if matched then
      let tagsApplied := pushTag rule.action tagsApplied
      if isTerminal rule.action then some ⟨rule.action, some rule.id, tagsApplied, traces⟩
      else firstMatch rest traces tagsApplied
    else firstMatch rest traces tagsApplied

def allMatches : List Rule → List ConditionTrace → List ScalarEntry → Option RuleDecision
  | [], traces, tagsApplied => some (defaultDecision ruleSet.defaultAction tagsApplied traces)
  | rule :: rest, traces, tagsApplied => do
    let matched ← evalRule rule payload ctx
    let traces := pushTrace ruleSet.traceConditions traces rule matched
    let tagsApplied := if matched then pushTag rule.action tagsApplied else tagsApplied
    allMatches rest traces tagsApplied

def score : List Rule → List ConditionTrace → List ScalarEntry → Option Rule →
    Option RuleDecision
  | [], traces, tagsApplied, best =>
    match best with
    | some rule => some ⟨rule.action, some rule.id, tagsApplied, traces⟩
    | none => some (defaultDecision ruleSet.defaultAction tagsApplied traces)
  | rule :: rest, traces, tagsApplied, best => do
    let matched ← evalRule rule payload ctx
    let traces := pushTrace ruleSet.traceConditions traces rule matched
    if matched then
      let tagsApplied := pushTag rule.action tagsApplied
      let best := if best.isNone && isTerminal rule.action then some rule else best
      score rest traces tagsApplied best
    else score rest traces tagsApplied best

end Loops

/-- The control payload, parsed once; `fromStr` is the guest's JSON parser. -/
def parsePayload (fromStr : String → Option Json.Value) : PacketPayload → Option Json.Value
  | .control text => fromStr text
  | .bytes _ => none

/-- The guest's only export. -/
def evaluate (fromStr : String → Option Json.Value) (ruleSet : RuleSet) (context : EvalContext) :
    Option (Except RuleError RuleDecision) :=
  let payload := parsePayload fromStr context.payload
  Option.map .ok <|
    match ruleSet.strategy with
    | .firstMatch => firstMatch ruleSet payload context ruleSet.rules [] []
    | .allMatches => allMatches ruleSet payload context ruleSet.rules [] []
    | .score => score ruleSet payload context ruleSet.rules [] [] none

end Guest

end Pureflow.Wasm
