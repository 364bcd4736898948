import Pureflow.Rules.Rule

/-!
The rule set evaluator: a pure function of a rule set, a payload and a context.

Each strategy is one loop over the rules in their order; the loops collect condition traces
and tags in the order they find them.
-/

namespace Pureflow.Rules

open Std Pureflow.Types Pureflow.Core Pureflow.Lib

/-- Resolve a field path against a control payload; bytes have no fields. -/
def resolvePayload (payload : PacketPayload) (path : FieldPath) : Option Json.Value :=
  match payload with
  | .control value => path.resolve value
  | .bytes _ => none

def jsonValueEqScalar : Json.Value → ScalarValue → Bool
  | .string s, .string r => s == r
  | .number n, .integer i => n.asI64 == some i
  | .number n, .float x => n.asF64.beq x
  | .bool b, .boolean r => b == r
  | .null, .null => true
  | _, _ => false

/-- The double a scalar is compared by, when it is a number. -/
def scalarToF64 : ScalarValue → Option F64
  | .integer i => some (.ofInt64 i)
  | .float x => some x
  | _ => none

def jsonValueCmpScalar (json : Json.Value) (scalar : ScalarValue) : Option Ordering := do
  let jsonF ← json.asF64
  let scalarF ← scalarToF64 scalar
  jsonF.compare scalarF

def scalarEq : ScalarValue → ScalarValue → Bool
  | .string s₁, .string s₂ => s₁ == s₂
  | .integer i₁, .integer i₂ => i₁ == i₂
  | .float x₁, .float x₂ => x₁.beq x₂
  | .boolean b₁, .boolean b₂ => b₁ == b₂
  | .null, .null => true
  | _, _ => false

mutual

/-- Evaluate one condition against a packet payload and context. -/
def evalCondition (payload : PacketPayload) (context : EvalContext) : Condition → Bool
  | .fieldEq path value => (resolvePayload payload path).any (jsonValueEqScalar · value)
  | .fieldNeq path value => (resolvePayload payload path).any (!jsonValueEqScalar · value)
  | .fieldGt path value =>
    ((resolvePayload payload path).bind (jsonValueCmpScalar · value)).any (· == .gt)
  | .fieldLt path value =>
    ((resolvePayload payload path).bind (jsonValueCmpScalar · value)).any (· == .lt)
  | .fieldGte path value =>
    ((resolvePayload payload path).bind (jsonValueCmpScalar · value)).any (· != .lt)
  | .fieldLte path value =>
    ((resolvePayload payload path).bind (jsonValueCmpScalar · value)).any (· != .gt)
  | .fieldIn path values =>
    (resolvePayload payload path).any fun v => values.any (jsonValueEqScalar v)
  | .fieldExists path => (resolvePayload payload path).isSome
  | .fieldAbsent path => (resolvePayload payload path).all Json.Value.isNull
  | .fieldMatches path pattern =>
    ((resolvePayload payload path).bind Json.Value.asStr).any pattern.matchesText
  | .tagEq key value => context.tags[key]?.any (scalarEq · value)
  | .tagExists key => context.tags.contains key
  | .tagAbsent key => !context.tags.contains key
  | .sourceNode nodeId => context.sourceNode.any (· == nodeId)
  | .arrivedOnPort portId => context.arrivalPort.any (· == portId)
  | .hopCountGt n => n < context.hopCount
  | .hopCountLte n => context.hopCount ≤ n
  | .workflowIs workflowId => context.workflowId == workflowId
  | .executionMetadataEq key value => context.executionMetadata[key]?.any (scalarEq · value)
  | .and conditions => evalAll payload context conditions
  | .or conditions => evalAny payload context conditions
  | .not inner => !evalCondition payload context inner
  | .always => true
  | .never => false

def evalAll (payload : PacketPayload) (context : EvalContext) : List Condition → Bool
  | [] => true
  | c :: rest => evalCondition payload context c && evalAll payload context rest

def evalAny (payload : PacketPayload) (context : EvalContext) : List Condition → Bool
  | [] => false
  | c :: rest => evalCondition payload context c || evalAny payload context rest

end

lemma evalAll_eq (payload : PacketPayload) (context : EvalContext) (cs : List Condition) :
    evalAll payload context cs = cs.all (evalCondition payload context) := by
  induction cs with
  | nil => rfl
  | cons c cs ih => simp [evalAll, ih]

lemma evalAny_eq (payload : PacketPayload) (context : EvalContext) (cs : List Condition) :
    evalAny payload context cs = cs.any (evalCondition payload context) := by
  induction cs with
  | nil => rfl
  | cons c cs ih => simp [evalAny, ih]

mutual

/-- A human-readable description of a condition for trace records. -/
def conditionDescription : Condition → String
  | .fieldEq path value => s!"{path} == {value}"
  | .fieldNeq path value => s!"{path} != {value}"
  | .fieldGt path value => s!"{path} > {value}"
  | .fieldLt path value => s!"{path} < {value}"
  | .fieldGte path value => s!"{path} >= {value}"
  | .fieldLte path value => s!"{path} <= {value}"
  | .fieldIn path values => s!"{path} in [" ++ ", ".intercalate (values.map toString) ++ "]"
  | .fieldExists path => s!"{path} exists"
  | .fieldAbsent path => s!"{path} absent"
  | .fieldMatches path pattern => s!"{path} matches {pattern}"
  | .tagEq key value => s!"tag:{key} == {value}"
  | .tagExists key => s!"tag:{key} exists"
  | .tagAbsent key => s!"tag:{key} absent"
  | .sourceNode nodeId => s!"source_node == {nodeId}"
  | .arrivedOnPort portId => s!"arrived_on == {portId}"
  | .hopCountGt n => s!"hop_count > {n}"
  | .hopCountLte n => s!"hop_count <= {n}"
  | .workflowIs workflowId => s!"workflow == {workflowId}"
  | .executionMetadataEq key value => s!"exec_meta:{key} == {value}"
  | .and inner => "(" ++ " AND ".intercalate (conditionDescriptions inner) ++ ")"
  | .or inner => "(" ++ " OR ".intercalate (conditionDescriptions inner) ++ ")"
  | .not inner => "NOT (" ++ conditionDescription inner ++ ")"
  | .always => "always"
  | .never => "never"

def conditionDescriptions : List Condition → List String
  | [] => []
  | c :: rest => conditionDescription c :: conditionDescriptions rest

end

def surfaceToRecord : ConditionSurface → ConditionSurfaceRecord
  | .payload => .payload
  | .tag => .tag
  | .provenance => .provenance
  | .executionContext => .executionContext
  | .combinator => .combinator
  | .constant => .constant

def conditionTrace (rule : Rule) (condition : Condition) (matched : Bool) : ConditionTrace :=
  ⟨rule.id, conditionDescription condition, matched, surfaceToRecord condition.surface⟩

/-- The traces with one more, when the rule set asks for them. -/
def RuleSet.pushTrace (ruleSet : RuleSet) (traces : List ConditionTrace) (rule : Rule)
    (matched : Bool) : List ConditionTrace :=
  if ruleSet.traceConditions then traces ++ [conditionTrace rule rule.condition matched] else traces

/-- The tags with the one a tag action adds. -/
def applyTerminalOrTag (rule : Rule) (tagsApplied : List (String × ScalarValue)) :
    List (String × ScalarValue) :=
  match rule.action with
  | .tag key value => tagsApplied ++ [(key, value)]
  | _ => tagsApplied

def evaluateFirstMatch.go (ruleSet : RuleSet) (payload : PacketPayload) (context : EvalContext) :
    List Rule → List ConditionTrace → List (String × ScalarValue) → RuleDecision
  | [], traces, tagsApplied => ⟨ruleSet.defaultAction, none, tagsApplied, traces⟩
  | rule :: rest, traces, tagsApplied =>
    let matched := evalCondition payload context rule.condition
    let traces := ruleSet.pushTrace traces rule matched
    if matched then
      let tagsApplied := applyTerminalOrTag rule tagsApplied
      if rule.action.isTerminal then ⟨rule.action, some rule.id, tagsApplied, traces⟩
      else go ruleSet payload context rest traces tagsApplied
    else go ruleSet payload context rest traces tagsApplied

def evaluateFirstMatch (ruleSet : RuleSet) (packet : PortPacket) (context : EvalContext) :
    Except RuleError RuleDecision :=
  .ok (evaluateFirstMatch.go ruleSet packet.payload context ruleSet.rules [] [])

def evaluateAllMatches.go (ruleSet : RuleSet) (payload : PacketPayload) (context : EvalContext) :
    List Rule → List ConditionTrace → List (String × ScalarValue) → RuleDecision
  | [], traces, tagsApplied => ⟨ruleSet.defaultAction, none, tagsApplied, traces⟩
  | rule :: rest, traces, tagsApplied =>
    let matched := evalCondition payload context rule.condition
    let traces := ruleSet.pushTrace traces rule matched
    let tagsApplied := if matched then applyTerminalOrTag rule tagsApplied else tagsApplied
    go ruleSet payload context rest traces tagsApplied

def evaluateAllMatches (ruleSet : RuleSet) (packet : PortPacket) (context : EvalContext) :
    Except RuleError RuleDecision :=
  .ok (evaluateAllMatches.go ruleSet packet.payload context ruleSet.rules [] [])

def evaluateScore.go (ruleSet : RuleSet) (payload : PacketPayload) (context : EvalContext) :
    List Rule → List ConditionTrace → List (String × ScalarValue) → Option Rule → RuleDecision
  | [], traces, tagsApplied, bestMatch =>
    match bestMatch with
    | some rule => ⟨rule.action, some rule.id, tagsApplied, traces⟩
    | none => ⟨ruleSet.defaultAction, none, tagsApplied, traces⟩
  | rule :: rest, traces, tagsApplied, bestMatch =>
    let matched := evalCondition payload context rule.condition
    let traces := ruleSet.pushTrace traces rule matched
    if matched then
      let tagsApplied := applyTerminalOrTag rule tagsApplied
      let bestMatch :=
        if bestMatch.isNone && rule.action.isTerminal then some rule else bestMatch
      go ruleSet payload context rest traces tagsApplied bestMatch
    else go ruleSet payload context rest traces tagsApplied bestMatch

def evaluateScore (ruleSet : RuleSet) (packet : PortPacket) (context : EvalContext) :
    Except RuleError RuleDecision :=
  .ok (evaluateScore.go ruleSet packet.payload context ruleSet.rules [] [] none)

/-- Evaluate a rule set against one packet and return a routing decision. -/
def evaluate (ruleSet : RuleSet) (packet : PortPacket) (context : EvalContext) :
    Except RuleError RuleDecision :=
  match ruleSet.strategy with
  | .firstMatch => evaluateFirstMatch ruleSet packet context
  | .allMatches => evaluateAllMatches ruleSet packet context
  | .score => evaluateScore ruleSet packet context

section Actions

variable {ruleSet : RuleSet} {payload : PacketPayload} {context : EvalContext}

/-- The action is the default one, or that of a rule of the set. -/
def RuleSet.Takes (ruleSet : RuleSet) (action : RuleAction) : Prop :=
  action = ruleSet.defaultAction ∨ ∃ rule ∈ ruleSet.rules, action = rule.action

lemma firstMatch_takes {rules : List Rule} (hrules : rules ⊆ ruleSet.rules)
    (traces : List ConditionTrace) (tagsApplied : List (String × ScalarValue)) :
    ruleSet.Takes (evaluateFirstMatch.go ruleSet payload context rules traces tagsApplied).action := by
  induction rules generalizing traces tagsApplied with
  | nil => exact .inl rfl
  | cons rule rest ih =>
    have hrest : rest ⊆ ruleSet.rules := fun r hr => hrules (List.mem_cons_of_mem _ hr)
    unfold evaluateFirstMatch.go
    dsimp only
    split_ifs
    · exact .inr ⟨rule, hrules List.mem_cons_self, rfl⟩
    · exact ih hrest _ _
    · exact ih hrest _ _

lemma allMatches_takes (rules : List Rule) (traces : List ConditionTrace)
    (tagsApplied : List (String × ScalarValue)) :
    ruleSet.Takes (evaluateAllMatches.go ruleSet payload context rules traces tagsApplied).action := by
  induction rules generalizing traces tagsApplied with
  | nil => exact .inl rfl
  | cons rule rest ih => exact ih _ _

lemma score_takes {rules : List Rule} (hrules : rules ⊆ ruleSet.rules)
    (traces : List ConditionTrace) (tagsApplied : List (String × ScalarValue))
    {bestMatch : Option Rule} (hbest : ∀ rule ∈ bestMatch, rule ∈ ruleSet.rules) :
    ruleSet.Takes
      (evaluateScore.go ruleSet payload context rules traces tagsApplied bestMatch).action := by
  induction rules generalizing traces tagsApplied bestMatch with
  | nil =>
    cases bestMatch with
    | none => exact .inl rfl
    | some rule => exact .inr ⟨rule, hbest rule rfl, rfl⟩
  | cons rule rest ih =>
    have hrest : rest ⊆ ruleSet.rules := fun r hr => hrules (List.mem_cons_of_mem _ hr)
    unfold evaluateScore.go
    dsimp only
    split_ifs
    · refine ih hrest _ _ fun best hmem => ?_
      cases hmem
      exact hrules List.mem_cons_self
    · exact ih hrest _ _ hbest
    · exact ih hrest _ _ hbest

/-- **Every decision takes an action of its rule set.** -/
theorem evaluate_takes {packet : PortPacket} {decision : RuleDecision}
    (h : evaluate ruleSet packet context = .ok decision) : ruleSet.Takes decision.action := by
  unfold evaluate at h
  split at h
  · cases h
    exact firstMatch_takes (List.Subset.refl _) _ _
  · cases h
    exact allMatches_takes _ _ _
  · cases h
    exact score_takes (List.Subset.refl _) _ _ (by simp)

end Actions

end Pureflow.Rules
