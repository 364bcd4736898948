import Pureflow.Rules.Node
import Pureflow.Rules.Order

/-!
What an evaluation decides, said without its loops.

With the rules in their order, the first one that is terminal and whose condition holds decides,
and the tags are those of the matching tag rules. No strategy looks at the default action, so a
decision is terminal only if a rule or the default action makes it so.
-/

namespace Pureflow.Rules

open Pureflow.Types Pureflow.Core Pureflow.Lib

section Strategies

/-- The condition of the rule holds. -/
def Rule.fires (payload : PacketPayload) (context : EvalContext) (rule : Rule) : Bool :=
  evalCondition payload context rule.condition

/-- The rule is terminal, and its condition holds. -/
def Rule.decides (payload : PacketPayload) (context : EvalContext) (rule : Rule) : Bool :=
  rule.fires payload context && rule.action.isTerminal

/-- The tag that a tag rule applies. -/
def RuleAction.tag? : RuleAction → Option (String × ScalarValue)
  | .tag key value => some (key, value)
  | _ => none

/-- The tags of the matching tag rules, in their order. -/
def firedTags (payload : PacketPayload) (context : EvalContext) (rules : List Rule) :
    List (String × ScalarValue) :=
  (rules.filter (Rule.fires payload context)).filterMap (·.action.tag?)

/-- The decision takes the action and the id of the rule, or the default action. -/
structure RuleDecision.Follows (decision : RuleDecision) (defaultAction : RuleAction)
    (rule? : Option Rule) : Prop where
  action : decision.action = (rule?.map Rule.action).getD defaultAction
  matchedRule : decision.matchedRule = rule?.map Rule.id

/-- What a strategy is to decide, with the rules in their order. -/
def EvaluationStrategy.Specifies (strategy : EvaluationStrategy) (payload : PacketPayload)
    (context : EvalContext) (defaultAction : RuleAction) (order : List Rule)
    (decision : RuleDecision) : Prop :=
  match strategy with
  | .firstMatch =>
    decision.Follows defaultAction (order.find? (Rule.decides payload context)) ∧
    decision.tagsApplied =
      firedTags payload context (order.takeWhile fun rule => !rule.decides payload context)
  | .score =>
    decision.Follows defaultAction (order.find? (Rule.decides payload context)) ∧
    decision.tagsApplied = firedTags payload context order
  | .allMatches =>
    decision.Follows defaultAction none ∧
    decision.tagsApplied = firedTags payload context order

variable {ruleSet : RuleSet} {payload : PacketPayload} {context : EvalContext}

lemma applyTerminalOrTag_eq (rule : Rule) (tags : List (String × ScalarValue)) :
    applyTerminalOrTag rule tags = tags ++ rule.action.tag?.toList := by
  unfold applyTerminalOrTag
  cases rule.action with
  | tag key value => rfl
  | _ => exact (List.append_nil _).symm

lemma firedTags_cons (rule : Rule) (rest : List Rule) :
    firedTags payload context (rule :: rest) =
      (if rule.fires payload context then rule.action.tag?.toList else []) ++
        firedTags payload context rest := by
  unfold firedTags
  cases hfires : rule.fires payload context with
  | false => simp [hfires]
  | true => cases htag : rule.action.tag? <;> simp [hfires, htag]

lemma tag_of_terminal {rule : Rule} (h : rule.action.isTerminal = true) :
    rule.action.tag? = none := by
  cases haction : rule.action with
  | tag key value =>
    rw [haction] at h
    cases h
  | _ => rfl

lemma firstMatch_spec (rules : List Rule) (traces : List ConditionTrace)
    (tags : List (String × ScalarValue)) :
    let decision := evaluateFirstMatch.go ruleSet payload context rules traces tags
    decision.Follows ruleSet.defaultAction (rules.find? (Rule.decides payload context)) ∧
    decision.tagsApplied = tags ++
      firedTags payload context (rules.takeWhile fun rule => !rule.decides payload context) := by
  induction rules generalizing traces tags with
  | nil => exact ⟨⟨rfl, rfl⟩, (List.append_nil _).symm⟩
  | cons rule rest ih =>
    unfold evaluateFirstMatch.go
    have hfires : rule.fires payload context = evalCondition payload context rule.condition := rfl
    dsimp only
    split_ifs with hmatched hterminal
    · have hdecides : rule.decides payload context = true := by
        simp [Rule.decides, hfires, hmatched, hterminal]
      refine ⟨⟨?_, ?_⟩, ?_⟩
      · simp [List.find?_cons_of_pos, hdecides]
      · simp [List.find?_cons_of_pos, hdecides]
      · simp [hdecides, applyTerminalOrTag_eq, tag_of_terminal hterminal, firedTags]
    · have hdecides : rule.decides payload context = false := by
        simp [Rule.decides, hterminal]
      obtain ⟨hfollows, htags⟩ := ih (ruleSet.pushTrace traces rule true)
        (applyTerminalOrTag rule tags)
      rw [hmatched]
      refine ⟨?_, ?_⟩
      · rw [List.find?_cons_of_neg (by simp [hdecides])]
        exact hfollows
      · rw [htags, List.takeWhile_cons_of_pos (by simp [hdecides]), firedTags_cons,
          applyTerminalOrTag_eq, hfires, hmatched, if_pos rfl, List.append_assoc]
    · have hdecides : rule.decides payload context = false := by
        simp [Rule.decides, hfires, hmatched]
      obtain ⟨hfollows, htags⟩ := ih
        (ruleSet.pushTrace traces rule (evalCondition payload context rule.condition)) tags
      refine ⟨?_, ?_⟩
      · rw [List.find?_cons_of_neg (by simp [hdecides])]
        exact hfollows
      · rw [htags, List.takeWhile_cons_of_pos (by simp [hdecides]), firedTags_cons,
          hfires, if_neg hmatched, List.nil_append]

lemma allMatches_spec (rules : List Rule) (traces : List ConditionTrace)
    (tags : List (String × ScalarValue)) :
    let decision := evaluateAllMatches.go ruleSet payload context rules traces tags
    decision.Follows ruleSet.defaultAction none ∧
    decision.tagsApplied = tags ++ firedTags payload context rules := by
  induction rules generalizing traces tags with
  | nil => exact ⟨⟨rfl, rfl⟩, (List.append_nil _).symm⟩
  | cons rule rest ih =>
    unfold evaluateAllMatches.go
    have hfires : rule.fires payload context = evalCondition payload context rule.condition := rfl
    dsimp only
    obtain ⟨hfollows, htags⟩ := ih
      (ruleSet.pushTrace traces rule (evalCondition payload context rule.condition))
      (if evalCondition payload context rule.condition then applyTerminalOrTag rule tags else tags)
    refine ⟨hfollows, ?_⟩
    rw [htags, firedTags_cons, hfires]
    split
    · rw [applyTerminalOrTag_eq, List.append_assoc]
    · rw [List.nil_append]

lemma score_spec (rules : List Rule) (traces : List ConditionTrace)
    (tags : List (String × ScalarValue)) (bestMatch : Option Rule) :
    let decision := evaluateScore.go ruleSet payload context rules traces tags bestMatch
    decision.Follows ruleSet.defaultAction
      (bestMatch.or (rules.find? (Rule.decides payload context))) ∧
    decision.tagsApplied = tags ++ firedTags payload context rules := by
  induction rules generalizing traces tags bestMatch with
  | nil =>
    cases bestMatch with
    | none => exact ⟨⟨rfl, rfl⟩, (List.append_nil _).symm⟩
    | some rule => exact ⟨⟨rfl, rfl⟩, (List.append_nil _).symm⟩
  | cons rule rest ih =>
    unfold evaluateScore.go
    have hfires : rule.fires payload context = evalCondition payload context rule.condition := rfl
    dsimp only
    split_ifs with hmatched hbest
    · obtain ⟨hnone, hterminal⟩ : bestMatch = none ∧ rule.action.isTerminal = true := by
        simpa using hbest
      have hdecides : rule.decides payload context = true := by
        simp [Rule.decides, hfires, hmatched, hterminal]
      obtain ⟨hfollows, htags⟩ := ih
        (ruleSet.pushTrace traces rule (evalCondition payload context rule.condition))
        (applyTerminalOrTag rule tags) (some rule)
      refine ⟨?_, ?_⟩
      · rw [hnone, List.find?_cons_of_pos hdecides]
        exact hfollows
      · rw [htags, firedTags_cons, applyTerminalOrTag_eq, hfires, if_pos hmatched,
          List.append_assoc]
    · obtain ⟨hfollows, htags⟩ := ih
        (ruleSet.pushTrace traces rule (evalCondition payload context rule.condition))
        (applyTerminalOrTag rule tags) bestMatch
      refine ⟨?_, ?_⟩
      · -- the rule does not decide, or another one did before
        cases bestMatch with
        | none =>
          have hdecides : rule.decides payload context = false := by
            simpa [Rule.decides, hfires, hmatched] using hbest
          rw [List.find?_cons_of_neg (by simp [hdecides])]
          exact hfollows
        | some best => exact hfollows
      · rw [htags, firedTags_cons, applyTerminalOrTag_eq, hfires, if_pos hmatched,
          List.append_assoc]
    · have hdecides : rule.decides payload context = false := by
        simp [Rule.decides, hfires, hmatched]
      obtain ⟨hfollows, htags⟩ := ih
        (ruleSet.pushTrace traces rule (evalCondition payload context rule.condition)) tags bestMatch
      refine ⟨?_, ?_⟩
      · rw [List.find?_cons_of_neg (by simp [hdecides])]
        exact hfollows
      · rw [htags, firedTags_cons, hfires, if_neg hmatched, List.nil_append]

lemma evaluate_specified (ruleSet : RuleSet) (packet : PortPacket) (context : EvalContext) :
    ∃ decision, evaluate ruleSet packet context = .ok decision ∧
      ruleSet.strategy.Specifies packet.payload context ruleSet.defaultAction ruleSet.rules
        decision := by
  unfold evaluate
  cases ruleSet.strategy with
  | firstMatch => exact ⟨_, rfl, firstMatch_spec ruleSet.rules [] []⟩
  | allMatches => exact ⟨_, rfl, allMatches_spec ruleSet.rules [] []⟩
  | score => exact ⟨_, rfl, score_spec ruleSet.rules [] [] none⟩

lemma specifies_of_evaluate {packet : PortPacket} {decision : RuleDecision}
    (h : evaluate ruleSet packet context = .ok decision) :
    ruleSet.strategy.Specifies packet.payload context ruleSet.defaultAction ruleSet.rules
      decision := by
  obtain ⟨decision', hdecision', hspec⟩ := evaluate_specified ruleSet packet context
  obtain rfl : decision' = decision := Except.ok.inj (hdecision'.symm.trans h)
  exact hspec

end Strategies

/-- **Evaluation meets its specification.** For a rule set made of any rules, the rules have one
order in which they count, and each strategy decides as it is to with the rules in this order. If
no two rules have the same priority, the rules may be given in any order. -/
theorem evaluate_meets_specification {id : String} {strategy : EvaluationStrategy}
    {rules : List Rule} {defaultAction : RuleAction} {traceConditions : Bool} {ruleSet : RuleSet}
    (h : RuleSet.new id strategy rules defaultAction traceConditions = .ok ruleSet)
    (packet : PortPacket) (context : EvalContext) :
    (∃ order, EvaluationOrder rules order ∧ (∀ other, EvaluationOrder rules other → other = order) ∧
      ∃ decision, evaluate ruleSet packet context = .ok decision ∧
        strategy.Specifies packet.payload context defaultAction order decision) ∧
    ∀ rules', rules'.Perm rules → (rules.map Rule.priority).Nodup →
      ∃ ruleSet', RuleSet.new id strategy rules' defaultAction traceConditions = .ok ruleSet' ∧
        evaluate ruleSet' packet context = evaluate ruleSet packet context := by
  obtain ⟨hid, hterminal, rfl⟩ := RuleSet.new_eq_ok_iff.mp h
  have horder := evaluationOrder_mergeSort rules
  refine ⟨⟨_, horder, fun other hother => horder.unique hother, ?_⟩, fun rules' hperm hdistinct => ?_⟩
  · exact evaluate_specified _ packet context
  · refine ⟨_, RuleSet.new_eq_ok_iff.mpr ⟨hid, fun hstrategy rule hrule => ?_, rfl⟩, ?_⟩
    · exact hterminal hstrategy rule (hperm.mem_iff.mp hrule)
    · have hsame := (evaluationOrder_perm hperm hdistinct horder).unique
        (evaluationOrder_mergeSort rules')
      rw [hsame]

section Sample

/-- A packet without fields. -/
def emptyPacket : PortPacket where
  metadata :=
    { messageId := ⟨"m1", message_m1_valid⟩
      workflowId := ⟨"flow", workflow_flow_valid⟩
      execution := .firstAttempt ⟨"run-1", execution_run_valid⟩
      route := ⟨none, ⟨⟨"rules", node_rules_valid⟩, ⟨"in", port_in_valid⟩⟩⟩ }
  payload := .bytes []

def emptyContext : EvalContext := ⟨∅, none, none, 0, ⟨"flow", workflow_flow_valid⟩, ∅⟩

/-- Two rules of different priorities, given in the other order. -/
def twoRules : List Rule :=
  [⟨"late", .always, .drop, 20, ""⟩, ⟨"early", .always, .tag "seen" (.boolean true), 10, ""⟩]

theorem evaluate_meets_specification_sample :
    ∃ ruleSet, RuleSet.new "rules" .firstMatch twoRules .drop false = .ok ruleSet ∧
      (∃ order, EvaluationOrder twoRules order ∧ ∃ decision,
        evaluate ruleSet emptyPacket emptyContext = .ok decision ∧
          EvaluationStrategy.firstMatch.Specifies emptyPacket.payload emptyContext .drop order
            decision) ∧
      ∃ ruleSet', RuleSet.new "rules" .firstMatch twoRules.reverse .drop false = .ok ruleSet' ∧
        evaluate ruleSet' emptyPacket emptyContext = evaluate ruleSet emptyPacket emptyContext := by
  have hnew : ∃ ruleSet, RuleSet.new "rules" .firstMatch twoRules .drop false = .ok ruleSet :=
    ⟨_, RuleSet.new_eq_ok_iff.mpr ⟨by decide, nofun, rfl⟩⟩
  obtain ⟨ruleSet, hnew⟩ := hnew
  obtain ⟨⟨order, horder, -, hdecision⟩, hperm⟩ :=
    evaluate_meets_specification hnew emptyPacket emptyContext
  have hdistinct : (twoRules.map Rule.priority).Nodup := by decide
  exact ⟨ruleSet, hnew, ⟨order, horder, hdecision⟩,
    hperm twoRules.reverse (List.reverse_perm twoRules) hdistinct⟩

end Sample

section Terminal

variable {payload : PacketPayload} {context : EvalContext}

lemma RuleDecision.Follows.isTerminal_iff {decision : RuleDecision} {defaultAction : RuleAction}
    {rules : List Rule}
    (h : decision.Follows defaultAction (rules.find? (Rule.decides payload context))) :
    decision.action.isTerminal = true ↔
      defaultAction.isTerminal = true ∨ ∃ rule ∈ rules, rule.decides payload context = true := by
  rw [h.action]
  cases hfind : rules.find? (Rule.decides payload context) with
  | none =>
    have hnone := List.find?_eq_none.mp hfind
    have hrules : ¬∃ rule ∈ rules, rule.decides payload context = true :=
      fun ⟨rule, hmem, hdecides⟩ => hnone rule hmem hdecides
    simp [hrules]
  | some rule =>
    have hdecides := List.find?_some hfind
    have hterminal : rule.action.isTerminal = true := ((Bool.and_eq_true _ _).mp hdecides).2
    simp only [Option.map_some, Option.getD_some, hterminal, true_iff]
    exact .inr ⟨rule, List.mem_of_find?_eq_some hfind, hdecides⟩

/-- **A decision is terminal exactly if** the default action is, or the strategy lets rules decide
and a terminal rule matches. Otherwise its action is a tag, and a rule node discards the packet. -/
theorem decision_terminal_iff {id : String} {strategy : EvaluationStrategy}
    {rules : List Rule} {defaultAction : RuleAction} {traceConditions : Bool} {ruleSet : RuleSet}
    (h : RuleSet.new id strategy rules defaultAction traceConditions = .ok ruleSet)
    (packet : PortPacket) (context : EvalContext) {decision : RuleDecision}
    (hdecision : evaluate ruleSet packet context = .ok decision) :
    (decision.action.isTerminal = true ∧ ∀ key value, decision.action ≠ .tag key value) ↔
      defaultAction.isTerminal = true ∨ strategy ≠ .allMatches ∧ ∃ rule ∈ rules,
        evalCondition packet.payload context rule.condition = true ∧
          rule.action.isTerminal = true := by
  obtain ⟨-, -, rfl⟩ := RuleSet.new_eq_ok_iff.mp h
  have hspec := specifies_of_evaluate hdecision
  have htag : (decision.action.isTerminal = true ∧
      ∀ key value, decision.action ≠ .tag key value) ↔ decision.action.isTerminal = true := by
    refine ⟨fun hterminal => hterminal.1, fun hterminal => ⟨hterminal, fun key value haction => ?_⟩⟩
    rw [haction] at hterminal
    cases hterminal
  have hmem (rule : Rule) :
      rule ∈ rules.mergeSort (fun a b => a.priority ≤ b.priority) ↔ rule ∈ rules :=
    (evaluationOrder_mergeSort rules).perm.mem_iff
  rw [htag]
  cases strategy with
  | firstMatch => simpa [hmem, Rule.decides, Rule.fires] using hspec.1.isTerminal_iff
  | score => simpa [hmem, Rule.decides, Rule.fires] using hspec.1.isTerminal_iff
  | allMatches =>
    obtain ⟨⟨haction, -⟩, -⟩ := hspec
    rw [haction]
    simp

/-- A rule that discards every packet. -/
def discardRule : Rule := ⟨"discard", .always, .drop, 10, ""⟩

/-- A terminal rule decides where the default action is a tag. -/
theorem decision_terminal_iff_sample :
    ∃ ruleSet decision,
      RuleSet.new "rules" .firstMatch [discardRule] (.tag "seen" .null) false = .ok ruleSet ∧
      evaluate ruleSet emptyPacket emptyContext = .ok decision ∧
      decision.action.isTerminal = true ∧ ∀ key value, decision.action ≠ .tag key value := by
  have hnew : RuleSet.new "rules" .firstMatch [discardRule] (.tag "seen" .null) false =
      .ok ⟨"rules", .firstMatch, [discardRule], .tag "seen" .null, false⟩ :=
    RuleSet.new_eq_ok_iff.mpr ⟨by decide, nofun, by simp⟩
  have hterminal := (decision_terminal_iff hnew emptyPacket emptyContext rfl).mpr
    (.inr ⟨by decide, discardRule, List.mem_singleton.mpr rfl, rfl, rfl⟩)
  exact ⟨_, _, hnew, rfl, hterminal⟩

/-- A rule set whose default action is a tag is made, decides on the tag, and the packet goes
nowhere. -/
theorem tag_default_discards :
    ∃ ruleSet decision, RuleSet.new "rules" .firstMatch [] (.tag "seen" .null) false = .ok ruleSet ∧
      evaluate ruleSet emptyPacket emptyContext = .ok decision ∧
      decision.action.isTerminal = false ∧
      ∀ ctx seq, executeAction decision.action ctx seq emptyPacket = .between := by
  have hnew : RuleSet.new "rules" .firstMatch [] (.tag "seen" .null) false =
      .ok ⟨"rules", .firstMatch, [], .tag "seen" .null, false⟩ :=
    RuleSet.new_eq_ok_iff.mpr ⟨by decide, nofun, by simp⟩
  exact ⟨_, ⟨.tag "seen" .null, none, [], []⟩, hnew, rfl, rfl, fun _ _ => rfl⟩

end Terminal

end Pureflow.Rules
