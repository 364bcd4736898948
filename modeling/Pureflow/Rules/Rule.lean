import Pureflow.Core.Metadata

/-!
The rule language: scalars, paths, patterns, conditions, actions, rules and rule sets, and the
checks their constructors make.

The checked constructors are not the only way in: deserialisation builds paths, rules and rule
sets field by field, so none of these types carries what its constructor checks.
-/

namespace Pureflow.Rules

open Std Pureflow.Types Pureflow.Core Pureflow.Lib

/-- A scalar value used in condition comparisons. -/
inductive ScalarValue
  | string (s : String)
  | integer (n : Int64)
  | float (x : F64)
  | boolean (b : Bool)
  | null
  deriving DecidableEq

instance : ToString ScalarValue where
  toString
    | .string s => s!"\"{s}\""
    | .integer n => toString n
    | .float x => x.display
    | .boolean b => toString b
    | .null => "null"

/-- Dot-separated key path into a packet payload object. -/
structure FieldPath where
  value : String
  deriving DecidableEq

structure GlobPattern where
  value : String
  deriving DecidableEq

instance : ToString FieldPath := ⟨FieldPath.value⟩

instance : ToString GlobPattern := ⟨GlobPattern.value⟩

/-- Action produced when a rule condition matches. -/
inductive RuleAction
  | route (port : PortId)
  | drop
  | deadLetter (reason : String)
  | tag (key : String) (value : ScalarValue)
  | halt (message : String)
  deriving DecidableEq

def RuleAction.isTerminal : RuleAction → Bool
  | .tag _ _ => false
  | _ => true

instance : ToString RuleAction where
  toString
    | .route port => s!"Route({port})"
    | .drop => "Drop"
    | .deadLetter reason => s!"DeadLetter({reason})"
    | .tag key value => s!"Tag({key}={value})"
    | .halt message => s!"Halt({message})"

inductive RuleError
  | allMatchesTerminalAction (ruleId : String) (action : RuleAction)
  | emptyRuleId
  | emptyRuleSetId
  | emptyFieldPath
  deriving DecidableEq

instance : ToString RuleError where
  toString
    | .allMatchesTerminalAction ruleId action =>
      s!"rule `{ruleId}` in AllMatches rule set uses terminal action `{action}`: " ++
        "AllMatches rules may only use Tag actions"
    | .emptyRuleId => "rule id must not be empty"
    | .emptyRuleSetId => "rule set id must not be empty"
    | .emptyFieldPath => "field path must not be empty"

def FieldPath.new (value : String) : Except RuleError FieldPath :=
  if Text.isBlank value then .error .emptyFieldPath else .ok ⟨value⟩

/-- Follow the keys of a path, one object after another. -/
def FieldPath.resolve.go : List String → Json.Value → Option Json.Value
  | [], current => some current
  | segment :: rest, current => (current.get segment).bind (go rest)

def FieldPath.resolve (path : FieldPath) (root : Json.Value) : Option Json.Value :=
  FieldPath.resolve.go (Text.split path.value '.') root

/-- Glob matching on the characters: `*` takes any sequence and `?` any one character. -/
def globMatchInner : List Char → List Char → Bool
  | [], [] => true
  | '*' :: restP, value =>
    if globMatchInner restP value then true
    else
      match value with
      | [] => false
      | _ :: restV => globMatchInner ('*' :: restP) restV
  | '?' :: restP, _ :: restV => globMatchInner restP restV
  | p :: restP, v :: restV => if p = v then globMatchInner restP restV else false
  | _, _ => false
termination_by pattern value => pattern.length + value.length

def globMatch (pattern value : String) : Bool := globMatchInner pattern.toList value.toList

/-- Test whether the pattern matches a string value. -/
def GlobPattern.matchesText (pattern : GlobPattern) (value : String) : Bool :=
  globMatch pattern.value value

/-- A predicate over a packet and its context. -/
inductive Condition
  | fieldEq (path : FieldPath) (value : ScalarValue)
  | fieldNeq (path : FieldPath) (value : ScalarValue)
  | fieldGt (path : FieldPath) (value : ScalarValue)
  | fieldLt (path : FieldPath) (value : ScalarValue)
  | fieldGte (path : FieldPath) (value : ScalarValue)
  | fieldLte (path : FieldPath) (value : ScalarValue)
  | fieldIn (path : FieldPath) (values : List ScalarValue)
  | fieldExists (path : FieldPath)
  | fieldAbsent (path : FieldPath)
  | fieldMatches (path : FieldPath) (pattern : GlobPattern)
  | tagEq (key : String) (value : ScalarValue)
  | tagExists (key : String)
  | tagAbsent (key : String)
  | sourceNode (nodeId : NodeId)
  | arrivedOnPort (portId : PortId)
  | hopCountGt (n : UInt32)
  | hopCountLte (n : UInt32)
  | workflowIs (workflowId : WorkflowId)
  | executionMetadataEq (key : String) (value : ScalarValue)
  | and (conditions : List Condition)
  | or (conditions : List Condition)
  | not (inner : Condition)
  | always
  | never

/-- Which surface a condition draws its data from. -/
inductive ConditionSurface
  | payload | tag | provenance | executionContext | combinator | constant
  deriving DecidableEq

def Condition.surface : Condition → ConditionSurface
  | .fieldEq .. | .fieldNeq .. | .fieldGt .. | .fieldLt .. | .fieldGte .. | .fieldLte ..
  | .fieldIn .. | .fieldExists _ | .fieldAbsent _ | .fieldMatches .. => .payload
  | .tagEq .. | .tagExists _ | .tagAbsent _ => .tag
  | .sourceNode _ | .arrivedOnPort _ | .hopCountGt _ | .hopCountLte _ => .provenance
  | .workflowIs _ | .executionMetadataEq .. => .executionContext
  | .and _ | .or _ | .not _ => .combinator
  | .always | .never => .constant

namespace Condition

mutual

/-- The number of nodes of the condition tree. -/
def nodeCount : Condition → ℕ
  | .and conditions => nodeCounts conditions + 1
  | .or conditions => nodeCounts conditions + 1
  | .not inner => nodeCount inner + 1
  | _ => 1

def nodeCounts : List Condition → ℕ
  | [] => 0
  | c :: rest => nodeCount c + nodeCounts rest

end

/-- A condition that is no combinator. -/
def isLeaf : Condition → Bool
  | .and _ | .or _ | .not _ => false
  | _ => true

/-- **Induction over condition trees**, with one case for all the leaves. -/
@[elab_as_elim] theorem induction {P : Condition → Prop} (leaf : ∀ c, c.isLeaf = true → P c)
    (and : ∀ cs, (∀ c ∈ cs, P c) → P (.and cs)) (or : ∀ cs, (∀ c ∈ cs, P c) → P (.or cs))
    (not : ∀ c, P c → P (.not c)) (c : Condition) : P c := by
  refine @Condition.rec P (fun cs => ∀ c ∈ cs, P c) ?_ ?_ ?_ ?_ ?_ ?_ ?_ ?_ ?_ ?_ ?_ ?_ ?_ ?_
    ?_ ?_ ?_ ?_ ?_ and or not ?_ ?_ ?_ ?_ c
  case refine_22 =>
    intro c hc
    cases hc
  case refine_23 =>
    intro c cs hc hcs d hd
    rcases List.mem_cons.mp hd with rfl | hd
    · exact hc
    · exact hcs d hd
  all_goals
    intros
    exact leaf _ rfl

lemma nodeCount_leaf {c : Condition} (h : c.isLeaf = true) : c.nodeCount = 1 := by
  cases c <;> first | rfl | cases h

lemma nodeCount_pos (c : Condition) : 0 < c.nodeCount := by
  cases c <;> simp [nodeCount]

end Condition

/-- The context of one packet evaluation, beside its payload. -/
structure EvalContext where
  tags : ExtTreeMap String ScalarValue
  sourceNode : Option NodeId
  arrivalPort : Option PortId
  hopCount : UInt32
  workflowId : WorkflowId
  executionMetadata : ExtTreeMap String ScalarValue

inductive EvaluationStrategy
  | firstMatch | allMatches | score
  deriving DecidableEq

structure Rule where
  id : String
  condition : Condition
  action : RuleAction
  priority : UInt32
  description : String

def Rule.new (id : String) (condition : Condition) (action : RuleAction) (priority : UInt32)
    (description : String) : Except RuleError Rule :=
  if Text.isBlank id then .error .emptyRuleId
  else .ok ⟨id, condition, action, priority, description⟩

/-- An ordered collection of rules evaluated against a packet. -/
structure RuleSet where
  id : String
  strategy : EvaluationStrategy
  rules : List Rule
  defaultAction : RuleAction
  traceConditions : Bool

def rejectTerminalActions : List Rule → Except RuleError Unit
  | [] => .ok ()
  | rule :: rest =>
    if rule.action.isTerminal then .error (.allMatchesTerminalAction rule.id rule.action)
    else rejectTerminalActions rest

/-- Create and validate a rule set; the sort by priority is stable. -/
def RuleSet.new (id : String) (strategy : EvaluationStrategy) (rules : List Rule)
    (defaultAction : RuleAction) (traceConditions : Bool) : Except RuleError RuleSet := do
  if Text.isBlank id then throw .emptyRuleSetId
  if strategy = .allMatches then rejectTerminalActions rules
  let rules := rules.mergeSort fun a b => a.priority ≤ b.priority
  return ⟨id, strategy, rules, defaultAction, traceConditions⟩

/-- The decision produced by evaluating a rule set against one packet. -/
structure RuleDecision where
  action : RuleAction
  matchedRule : Option String
  tagsApplied : List (String × ScalarValue)
  conditionsEvaluated : List ConditionTrace
  deriving DecidableEq

end Pureflow.Rules
