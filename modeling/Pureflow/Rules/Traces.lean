import Pureflow.Lib.UpTo
import Pureflow.Rules.Spec

/-!
Which rules an evaluation asks, and what its trace says of them.

The loops are run once more with a log of the rules whose conditions they evaluate. The log does
not depend on whether conditions are traced; a trace, when there is one, has an entry for each rule
of the log, in its order.
-/

namespace Pureflow.Rules

open Std Pureflow.Types Pureflow.Core Pureflow.Lib

section Logged

variable (ruleSet : RuleSet) (payload : PacketPayload) (context : EvalContext)

/-- The first-match loop, with a log of the rules whose conditions are evaluated. -/
def firstMatchLogged : List Rule → List ConditionTrace → List (String × ScalarValue) →
    List Rule → RuleDecision × List Rule
  | [], traces, tagsApplied, log => (⟨ruleSet.defaultAction, none, tagsApplied, traces⟩, log)
  | rule :: rest, traces, tagsApplied, log =>
    let matched := evalCondition payload context rule.condition
    let log := log ++ [rule]
    let traces := ruleSet.pushTrace traces rule matched
    if matched then
      let tagsApplied := applyTerminalOrTag rule tagsApplied
      if rule.action.isTerminal then (⟨rule.action, some rule.id, tagsApplied, traces⟩, log)
      else firstMatchLogged rest traces tagsApplied log
    else firstMatchLogged rest traces tagsApplied log

def allMatchesLogged : List Rule → List ConditionTrace → List (String × ScalarValue) →
    List Rule → RuleDecision × List Rule
  | [], traces, tagsApplied, log => (⟨ruleSet.defaultAction, none, tagsApplied, traces⟩, log)
  | rule :: rest, traces, tagsApplied, log =>
    let matched := evalCondition payload context rule.condition
    let log := log ++ [rule]
    let traces := ruleSet.pushTrace traces rule matched
    let tagsApplied := if matched then applyTerminalOrTag rule tagsApplied else tagsApplied
    allMatchesLogged rest traces tagsApplied log

def scoreLogged : List Rule → List ConditionTrace → List (String × ScalarValue) → Option Rule →
    List Rule → RuleDecision × List Rule
  | [], traces, tagsApplied, bestMatch, log =>
    match bestMatch with
    | some rule => (⟨rule.action, some rule.id, tagsApplied, traces⟩, log)
    | none => (⟨ruleSet.defaultAction, none, tagsApplied, traces⟩, log)
  | rule :: rest, traces, tagsApplied, bestMatch, log =>
    let matched := evalCondition payload context rule.condition
    let log := log ++ [rule]
    let traces := ruleSet.pushTrace traces rule matched
    if matched then
      let tagsApplied := applyTerminalOrTag rule tagsApplied
      let bestMatch :=
        if bestMatch.isNone && rule.action.isTerminal then some rule else bestMatch
      scoreLogged rest traces tagsApplied bestMatch log
    else scoreLogged rest traces tagsApplied bestMatch log

end Logged

/-- Evaluate a rule set, with the rules whose conditions are evaluated. -/
def evaluateLogged (ruleSet : RuleSet) (packet : PortPacket) (context : EvalContext) :
    RuleDecision × List Rule :=
  match ruleSet.strategy with
  | .firstMatch => firstMatchLogged ruleSet packet.payload context ruleSet.rules [] [] []
  | .allMatches => allMatchesLogged ruleSet packet.payload context ruleSet.rules [] [] []
  | .score => scoreLogged ruleSet packet.payload context ruleSet.rules [] [] none []

/-- The rules that a strategy asks. -/
def EvaluationStrategy.asks (strategy : EvaluationStrategy) (payload : PacketPayload)
    (context : EvalContext) (rules : List Rule) : List Rule :=
  match strategy with
  | .firstMatch => upTo (Rule.decides payload context) rules
  | .allMatches => rules
  | .score => rules

/-- The trace that a rule owes. -/
def Rule.trace (payload : PacketPayload) (context : EvalContext) (rule : Rule) : ConditionTrace where
  ruleId := rule.id
  conditionDescription := conditionDescription rule.condition
  matched := evalCondition payload context rule.condition
  surface := surfaceToRecord rule.condition.surface

section Log

variable {ruleSet : RuleSet} {payload : PacketPayload} {context : EvalContext}

/-- **The log changes nothing.** -/
lemma firstMatchLogged_fst (rules : List Rule) (traces : List ConditionTrace)
    (tags : List (String × ScalarValue)) (log : List Rule) :
    (firstMatchLogged ruleSet payload context rules traces tags log).1 =
      evaluateFirstMatch.go ruleSet payload context rules traces tags := by
  induction rules generalizing traces tags log with
  | nil => rfl
  | cons rule rest ih =>
    unfold firstMatchLogged evaluateFirstMatch.go
    dsimp only
    split_ifs
    · rfl
    · exact ih _ _ _
    · exact ih _ _ _

lemma allMatchesLogged_fst (rules : List Rule) (traces : List ConditionTrace)
    (tags : List (String × ScalarValue)) (log : List Rule) :
    (allMatchesLogged ruleSet payload context rules traces tags log).1 =
      evaluateAllMatches.go ruleSet payload context rules traces tags := by
  induction rules generalizing traces tags log with
  | nil => rfl
  | cons rule rest ih => exact ih _ _ _

lemma scoreLogged_fst (rules : List Rule) (traces : List ConditionTrace)
    (tags : List (String × ScalarValue)) (bestMatch : Option Rule) (log : List Rule) :
    (scoreLogged ruleSet payload context rules traces tags bestMatch log).1 =
      evaluateScore.go ruleSet payload context rules traces tags bestMatch := by
  induction rules generalizing traces tags bestMatch log with
  | nil => cases bestMatch <;> rfl
  | cons rule rest ih =>
    unfold scoreLogged evaluateScore.go
    dsimp only
    split_ifs
    · exact ih _ _ _ _
    · exact ih _ _ _ _
    · exact ih _ _ _ _

lemma evaluateLogged_fst (ruleSet : RuleSet) (packet : PortPacket) (context : EvalContext) :
    evaluate ruleSet packet context = .ok (evaluateLogged ruleSet packet context).1 := by
  unfold evaluate evaluateLogged
  cases ruleSet.strategy with
  | firstMatch => exact congrArg _ (firstMatchLogged_fst _ _ _ _).symm
  | allMatches => exact congrArg _ (allMatchesLogged_fst _ _ _ _).symm
  | score => exact congrArg _ (scoreLogged_fst _ _ _ _ _).symm

lemma firstMatchLogged_snd (rules : List Rule) (traces : List ConditionTrace)
    (tags : List (String × ScalarValue)) (log : List Rule) :
    (firstMatchLogged ruleSet payload context rules traces tags log).2 =
      log ++ upTo (Rule.decides payload context) rules := by
  induction rules generalizing traces tags log with
  | nil => exact (List.append_nil log).symm
  | cons rule rest ih =>
    have hfires : rule.fires payload context = evalCondition payload context rule.condition := rfl
    unfold firstMatchLogged
    dsimp only
    split_ifs with hmatched hterminal
    · have hdecides : rule.decides payload context = true := by
        simp [Rule.decides, hfires, hmatched, hterminal]
      rw [upTo_cons_pos hdecides]
    · have hdecides : rule.decides payload context = false := by
        simp [Rule.decides, hterminal]
      rw [ih, upTo_cons_neg hdecides, List.append_assoc, List.singleton_append]
    · have hdecides : rule.decides payload context = false := by
        simp [Rule.decides, hfires, hmatched]
      rw [ih, upTo_cons_neg hdecides, List.append_assoc, List.singleton_append]

lemma allMatchesLogged_snd (rules : List Rule) (traces : List ConditionTrace)
    (tags : List (String × ScalarValue)) (log : List Rule) :
    (allMatchesLogged ruleSet payload context rules traces tags log).2 = log ++ rules := by
  induction rules generalizing traces tags log with
  | nil => exact (List.append_nil log).symm
  | cons rule rest ih =>
    unfold allMatchesLogged
    rw [ih, List.append_assoc, List.singleton_append]

lemma scoreLogged_snd (rules : List Rule) (traces : List ConditionTrace)
    (tags : List (String × ScalarValue)) (bestMatch : Option Rule) (log : List Rule) :
    (scoreLogged ruleSet payload context rules traces tags bestMatch log).2 = log ++ rules := by
  induction rules generalizing traces tags bestMatch log with
  | nil => cases bestMatch <;> exact (List.append_nil log).symm
  | cons rule rest ih =>
    unfold scoreLogged
    dsimp only
    split <;> rw [ih, List.append_assoc, List.singleton_append]

/-- **What is asked** depends on the strategy and the rules, not on the trace. -/
lemma evaluateLogged_snd (ruleSet : RuleSet) (packet : PortPacket) (context : EvalContext) :
    (evaluateLogged ruleSet packet context).2 =
      ruleSet.strategy.asks packet.payload context ruleSet.rules := by
  unfold evaluateLogged EvaluationStrategy.asks
  cases ruleSet.strategy with
  | firstMatch => exact firstMatchLogged_snd _ _ _ _
  | allMatches => exact allMatchesLogged_snd _ _ _ _
  | score => exact scoreLogged_snd _ _ _ _ _

end Log

section Tracing

variable {ruleSet : RuleSet} {payload : PacketPayload} {context : EvalContext}

/-- The loops push one trace for each rule they log. -/
def Traced (ruleSet : RuleSet) (payload : PacketPayload) (context : EvalContext)
    (traces : List ConditionTrace) (log : List Rule) (result : RuleDecision × List Rule) : Prop :=
  ∀ new, result.2 = log ++ new → result.1.conditionsEvaluated =
    traces ++ if ruleSet.traceConditions then new.map (Rule.trace payload context) else []

lemma pushTrace_eq_append (ruleSet : RuleSet) (traces : List ConditionTrace) (rule : Rule) :
    ruleSet.pushTrace traces rule (evalCondition payload context rule.condition) =
      traces ++ if ruleSet.traceConditions then [rule.trace payload context] else [] := by
  unfold RuleSet.pushTrace
  cases ruleSet.traceConditions with
  | true => rfl
  | false => exact (List.append_nil traces).symm

lemma traced_ret (decision : RuleDecision) (log : List Rule) :
    Traced ruleSet payload context decision.conditionsEvaluated log (decision, log) := by
  intro new hnew
  obtain rfl : new = [] := List.append_right_eq_self.mp hnew.symm
  simp

lemma traced_cons {traces : List ConditionTrace} {log : List Rule} {rule : Rule}
    {result : RuleDecision × List Rule} (hlog : log ++ [rule] <+: result.2)
    (h : Traced ruleSet payload context
      (ruleSet.pushTrace traces rule (evalCondition payload context rule.condition))
      (log ++ [rule]) result) : Traced ruleSet payload context traces log result := by
  intro new hnew
  obtain ⟨rest, hrest⟩ := hlog
  obtain rfl : new = rule :: rest := by
    have hsame : log ++ new = log ++ (rule :: rest) := by
      rw [← hnew, ← hrest, List.append_assoc, List.singleton_append]
    exact List.append_cancel_left hsame
  rw [h rest hrest.symm, pushTrace_eq_append, List.append_assoc]
  cases ruleSet.traceConditions with
  | true => rfl
  | false => rfl

lemma firstMatch_traced (rules : List Rule) (traces : List ConditionTrace)
    (tags : List (String × ScalarValue)) (log : List Rule) :
    Traced ruleSet payload context traces log
      (firstMatchLogged ruleSet payload context rules traces tags log) := by
  induction rules generalizing traces tags log with
  | nil => exact traced_ret _ log
  | cons rule rest ih =>
    unfold firstMatchLogged
    dsimp only
    split_ifs
    · exact traced_cons List.prefix_rfl (traced_ret ⟨_, _, _, _⟩ _)
    · refine traced_cons ?_ (ih _ _ _)
      rw [firstMatchLogged_snd]
      exact List.prefix_append _ _
    · refine traced_cons ?_ (ih _ _ _)
      rw [firstMatchLogged_snd]
      exact List.prefix_append _ _

lemma allMatches_traced (rules : List Rule) (traces : List ConditionTrace)
    (tags : List (String × ScalarValue)) (log : List Rule) :
    Traced ruleSet payload context traces log
      (allMatchesLogged ruleSet payload context rules traces tags log) := by
  induction rules generalizing traces tags log with
  | nil => exact traced_ret _ log
  | cons rule rest ih =>
    unfold allMatchesLogged
    refine traced_cons ?_ (ih _ _ _)
    rw [allMatchesLogged_snd]
    exact List.prefix_append _ _

lemma score_traced (rules : List Rule) (traces : List ConditionTrace)
    (tags : List (String × ScalarValue)) (bestMatch : Option Rule) (log : List Rule) :
    Traced ruleSet payload context traces log
      (scoreLogged ruleSet payload context rules traces tags bestMatch log) := by
  induction rules generalizing traces tags bestMatch log with
  | nil => cases bestMatch <;> exact traced_ret ⟨_, _, _, _⟩ log
  | cons rule rest ih =>
    unfold scoreLogged
    dsimp only
    split
    · refine traced_cons ?_ (ih _ _ _ _)
      rw [scoreLogged_snd]
      exact List.prefix_append _ _
    · refine traced_cons ?_ (ih _ _ _ _)
      rw [scoreLogged_snd]
      exact List.prefix_append _ _

/-- **The trace of an evaluation**, if one is kept, is that of the rules it asked. -/
lemma evaluateLogged_traced (ruleSet : RuleSet) (packet : PortPacket) (context : EvalContext) :
    (evaluateLogged ruleSet packet context).1.conditionsEvaluated =
      if ruleSet.traceConditions then
        (evaluateLogged ruleSet packet context).2.map (Rule.trace packet.payload context)
      else [] := by
  have htraced : Traced ruleSet packet.payload context [] []
      (evaluateLogged ruleSet packet context) := by
    unfold evaluateLogged
    cases ruleSet.strategy with
    | firstMatch => exact firstMatch_traced _ _ _ _
    | allMatches => exact allMatches_traced _ _ _ _
    | score => exact score_traced _ _ _ _ _
  exact htraced _ rfl

end Tracing

section Transparent

variable {payload : PacketPayload} {context : EvalContext}

lemma same_of_specifies {strategy : EvaluationStrategy} {defaultAction : RuleAction}
    {order : List Rule} {decision decision' : RuleDecision}
    (h : strategy.Specifies payload context defaultAction order decision)
    (h' : strategy.Specifies payload context defaultAction order decision') :
    decision.action = decision'.action ∧ decision.matchedRule = decision'.matchedRule ∧
      decision.tagsApplied = decision'.tagsApplied := by
  cases strategy <;> exact
    ⟨h.1.action.trans h'.1.action.symm, h.1.matchedRule.trans h'.1.matchedRule.symm,
      h.2.trans h'.2.symm⟩

/-- **Tracing is transparent and faithful.** A rule set decides the same with and without traces.
Without, there are none; with, there is one for each rule whose condition is evaluated, in the
order of evaluation: for the first match these are the rules up to the one that decides, or all of
them if none does, and for the other strategies they are all rules. -/
theorem tracing_transparent (ruleSet : RuleSet) (packet : PortPacket) (context : EvalContext) :
    ∃ on off asked,
      evaluate { ruleSet with traceConditions := true } packet context = .ok on ∧
      evaluate { ruleSet with traceConditions := false } packet context = .ok off ∧
      (evaluateLogged { ruleSet with traceConditions := true } packet context).2 = asked ∧
      (evaluateLogged { ruleSet with traceConditions := false } packet context).2 = asked ∧
      (on.action = off.action ∧ on.matchedRule = off.matchedRule ∧
        on.tagsApplied = off.tagsApplied) ∧
      off.conditionsEvaluated = [] ∧
      on.conditionsEvaluated = asked.map (fun rule =>
        { ruleId := rule.id
          conditionDescription := conditionDescription rule.condition
          matched := evalCondition packet.payload context rule.condition
          surface := surfaceToRecord rule.condition.surface }) ∧
      (ruleSet.strategy ≠ .firstMatch → asked = ruleSet.rules) ∧
      (ruleSet.strategy = .firstMatch →
        (on.matchedRule = none ∧ asked = ruleSet.rules) ∨
        ∃ before rule after, ruleSet.rules = before ++ rule :: after ∧ asked = before ++ [rule] ∧
          rule.action.isTerminal = true ∧ on.action = rule.action ∧
          on.matchedRule = some rule.id) := by
  have hon := evaluateLogged_fst { ruleSet with traceConditions := true } packet context
  have hoff := evaluateLogged_fst { ruleSet with traceConditions := false } packet context
  have hspec := specifies_of_evaluate hon
  have hspec' := specifies_of_evaluate hoff
  refine ⟨_, _, _, hon, hoff, rfl, ?_, same_of_specifies hspec hspec', ?_, ?_, ?all, ?first⟩
  · rw [evaluateLogged_snd, evaluateLogged_snd]
  · exact evaluateLogged_traced { ruleSet with traceConditions := false } packet context
  · exact evaluateLogged_traced { ruleSet with traceConditions := true } packet context
  case all =>
    intro hstrategy
    rw [evaluateLogged_snd]
    cases h : ruleSet.strategy with
    | firstMatch => exact absurd h hstrategy
    | allMatches => rfl
    | score => rfl
  case first =>
    intro hstrategy
    rw [evaluateLogged_snd]
    simp only [hstrategy, EvaluationStrategy.Specifies] at hspec
    simp only [hstrategy, EvaluationStrategy.asks]
    rcases upTo_cases (Rule.decides packet.payload context) ruleSet.rules with
      ⟨hfind, hasked⟩ | ⟨before, rule, after, hrules, hfind, hasked⟩
    · refine .inl ⟨?_, hasked⟩
      rw [hspec.1.matchedRule, hfind]
      rfl
    · have hdecides := List.find?_some hfind
      refine .inr ⟨before, rule, after, hrules, hasked, ?_, ?_, ?_⟩
      · exact ((Bool.and_eq_true _ _).mp hdecides).2
      · rw [hspec.1.action, hfind]
        rfl
      · rw [hspec.1.matchedRule, hfind]
        rfl

end Transparent

end Pureflow.Rules
