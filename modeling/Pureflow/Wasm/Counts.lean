import Pureflow.Rules.Traces
import Pureflow.Wasm.Agree
import Pureflow.Wasm.RuleNode

/-!
The number of rules that an audit record says were evaluated, and the number that were.

The record is built from the rule set, after the evaluation: it counts all rules. The evaluator of
either node stops at a first match, so the count is right if and only if nothing stops it early.
What the evaluator asks is logged, natively as in the guest.
-/

namespace Pureflow.Wasm

open Std Pureflow.Types Pureflow.Core Pureflow.Lib Pureflow.Rules

namespace Guest

section Logged

variable (ruleSet : Wit.RuleSet) (payload : Option Json.Value) (ctx : Wit.EvalContext)

/-- The first-match loop, with a log of the rules whose conditions are evaluated. -/
def firstMatchLogged : List Wit.Rule → List Wit.ConditionTrace → List Wit.ScalarEntry →
    List Wit.Rule → Option (Wit.RuleDecision × List Wit.Rule)
  | [], traces, tagsApplied, log =>
    some (defaultDecision ruleSet.defaultAction tagsApplied traces, log)
  | rule :: rest, traces, tagsApplied, log => do
    let matched ← evalRule rule payload ctx
    let log := log ++ [rule]
    let traces := pushTrace ruleSet.traceConditions traces rule matched
    if matched then
      let tagsApplied := pushTag rule.action tagsApplied
      if isTerminal rule.action then some (⟨rule.action, some rule.id, tagsApplied, traces⟩, log)
      else firstMatchLogged rest traces tagsApplied log
    else firstMatchLogged rest traces tagsApplied log

def allMatchesLogged : List Wit.Rule → List Wit.ConditionTrace → List Wit.ScalarEntry →
    List Wit.Rule → Option (Wit.RuleDecision × List Wit.Rule)
  | [], traces, tagsApplied, log =>
    some (defaultDecision ruleSet.defaultAction tagsApplied traces, log)
  | rule :: rest, traces, tagsApplied, log => do
    let matched ← evalRule rule payload ctx
    let log := log ++ [rule]
    let traces := pushTrace ruleSet.traceConditions traces rule matched
    let tagsApplied := if matched then pushTag rule.action tagsApplied else tagsApplied
    allMatchesLogged rest traces tagsApplied log

def scoreLogged : List Wit.Rule → List Wit.ConditionTrace → List Wit.ScalarEntry →
    Option Wit.Rule → List Wit.Rule → Option (Wit.RuleDecision × List Wit.Rule)
  | [], traces, tagsApplied, best, log =>
    match best with
    | some rule => some (⟨rule.action, some rule.id, tagsApplied, traces⟩, log)
    | none => some (defaultDecision ruleSet.defaultAction tagsApplied traces, log)
  | rule :: rest, traces, tagsApplied, best, log => do
    let matched ← evalRule rule payload ctx
    let log := log ++ [rule]
    let traces := pushTrace ruleSet.traceConditions traces rule matched
    if matched then
      let tagsApplied := pushTag rule.action tagsApplied
      let best := if best.isNone && isTerminal rule.action then some rule else best
      scoreLogged rest traces tagsApplied best log
    else scoreLogged rest traces tagsApplied best log

end Logged

/-- The guest's evaluation, with the rules whose conditions are evaluated. -/
def evaluateLogged (fromStr : String → Option Json.Value) (ruleSet : Wit.RuleSet)
    (context : Wit.EvalContext) : Option (Wit.RuleDecision × List Wit.Rule) :=
  let payload := parsePayload fromStr context.payload
  match ruleSet.strategy with
  | .firstMatch => firstMatchLogged ruleSet payload context ruleSet.rules [] [] []
  | .allMatches => allMatchesLogged ruleSet payload context ruleSet.rules [] [] []
  | .score => scoreLogged ruleSet payload context ruleSet.rules [] [] none []

/-- The guest's condition of the rule holds, and the rule is terminal. -/
def decides (payload : Option Json.Value) (ctx : Wit.EvalContext) (rule : Wit.Rule) : Bool :=
  evalRule rule payload ctx == some true && isTerminal rule.action

section Log

variable {ruleSet : Wit.RuleSet} {payload : Option Json.Value} {ctx : Wit.EvalContext}

/-- **The log changes nothing.** -/
lemma firstMatchLogged_fst (rules : List Wit.Rule) (traces : List Wit.ConditionTrace)
    (tags : List Wit.ScalarEntry) (log : List Wit.Rule) :
    (firstMatchLogged ruleSet payload ctx rules traces tags log).map Prod.fst =
      firstMatch ruleSet payload ctx rules traces tags := by
  induction rules generalizing traces tags log with
  | nil => rfl
  | cons rule rest ih =>
    unfold firstMatchLogged firstMatch
    cases evalRule rule payload ctx with
    | none => rfl
    | some matched =>
      simp only [Option.bind_eq_bind, Option.bind_some]
      split_ifs
      · rfl
      · exact ih _ _ _
      · exact ih _ _ _

lemma allMatchesLogged_fst (rules : List Wit.Rule) (traces : List Wit.ConditionTrace)
    (tags : List Wit.ScalarEntry) (log : List Wit.Rule) :
    (allMatchesLogged ruleSet payload ctx rules traces tags log).map Prod.fst =
      allMatches ruleSet payload ctx rules traces tags := by
  induction rules generalizing traces tags log with
  | nil => rfl
  | cons rule rest ih =>
    unfold allMatchesLogged allMatches
    cases evalRule rule payload ctx with
    | none => rfl
    | some matched => exact ih _ _ _

lemma scoreLogged_fst (rules : List Wit.Rule) (traces : List Wit.ConditionTrace)
    (tags : List Wit.ScalarEntry) (best : Option Wit.Rule) (log : List Wit.Rule) :
    (scoreLogged ruleSet payload ctx rules traces tags best log).map Prod.fst =
      score ruleSet payload ctx rules traces tags best := by
  induction rules generalizing traces tags best log with
  | nil => cases best <;> rfl
  | cons rule rest ih =>
    unfold scoreLogged score
    cases evalRule rule payload ctx with
    | none => rfl
    | some matched =>
      simp only [Option.bind_eq_bind, Option.bind_some]
      split_ifs
      · exact ih _ _ _ _
      · exact ih _ _ _ _
      · exact ih _ _ _ _

lemma evaluateLogged_fst (fromStr : String → Option Json.Value) (ruleSet : Wit.RuleSet)
    (context : Wit.EvalContext) :
    Guest.evaluate fromStr ruleSet context =
      (evaluateLogged fromStr ruleSet context).map fun logged => .ok logged.1 := by
  have hmap (logged : Option (Wit.RuleDecision × List Wit.Rule)) :
      (logged.map fun l => (.ok l.1 : Except Wit.RuleError Wit.RuleDecision)) =
        (logged.map Prod.fst).map .ok := by
    cases logged <;> rfl
  unfold Guest.evaluate evaluateLogged
  rw [hmap]
  cases ruleSet.strategy with
  | firstMatch => exact congrArg (Option.map Except.ok) (firstMatchLogged_fst _ _ _ _).symm
  | allMatches => exact congrArg (Option.map Except.ok) (allMatchesLogged_fst _ _ _ _).symm
  | score => exact congrArg (Option.map Except.ok) (scoreLogged_fst _ _ _ _ _).symm

/-- The log of a loop has grown by the rules asked, and its traces, when they are kept, by one for
each of them. -/
structure Logs (ruleSet : Wit.RuleSet) (traces : List Wit.ConditionTrace)
    (log asked : List Wit.Rule) (result : Wit.RuleDecision × List Wit.Rule) : Prop where
  log : result.2 = log ++ asked
  traces : ruleSet.traceConditions = true →
    result.1.conditionsEvaluated.length = traces.length + asked.length

lemma logs_ret (decision : Wit.RuleDecision) (log : List Wit.Rule) :
    Logs ruleSet decision.conditionsEvaluated log [] (decision, log) :=
  ⟨(List.append_nil log).symm, fun _ => rfl⟩

lemma Logs.cons {traces : List Wit.ConditionTrace} {log asked : List Wit.Rule} {rule : Wit.Rule}
    {matched : Bool} {result : Wit.RuleDecision × List Wit.Rule}
    (h : Logs ruleSet (pushTrace ruleSet.traceConditions traces rule matched) (log ++ [rule]) asked
      result) : Logs ruleSet traces log (rule :: asked) result where
  log := by rw [h.log, List.append_assoc, List.singleton_append]
  traces htrace := by
    have hlength := h.traces htrace
    simp only [pushTrace, htrace, if_true, List.length_append, List.length_singleton] at hlength
    rw [List.length_cons, hlength]
    omega

lemma firstMatchLogged_logs {rules : List Wit.Rule} {traces : List Wit.ConditionTrace}
    {tags : List Wit.ScalarEntry} {log : List Wit.Rule}
    {result : Wit.RuleDecision × List Wit.Rule}
    (h : firstMatchLogged ruleSet payload ctx rules traces tags log = some result) :
    Logs ruleSet traces log (upTo (decides payload ctx) rules) result := by
  induction rules generalizing traces tags log with
  | nil =>
    cases h
    exact logs_ret ⟨_, _, _, _⟩ log
  | cons rule rest ih =>
    unfold firstMatchLogged at h
    obtain ⟨matched, hmatched, h⟩ := Option.bind_eq_some_iff.mp h
    dsimp only at h
    split_ifs at h with hholds hterminal
    · have hdecides : decides payload ctx rule = true := by
        simp [decides, hmatched, hholds, hterminal]
      cases h
      rw [upTo_cons_pos hdecides]
      exact (logs_ret ⟨_, _, _, _⟩ _).cons
    · have hdecides : decides payload ctx rule = false := by
        simp [decides, hterminal]
      rw [upTo_cons_neg hdecides]
      exact (ih h).cons
    · have hdecides : decides payload ctx rule = false := by
        simp [decides, hmatched, hholds]
      rw [upTo_cons_neg hdecides]
      exact (ih h).cons

lemma allMatchesLogged_logs {rules : List Wit.Rule} {traces : List Wit.ConditionTrace}
    {tags : List Wit.ScalarEntry} {log : List Wit.Rule}
    {result : Wit.RuleDecision × List Wit.Rule}
    (h : allMatchesLogged ruleSet payload ctx rules traces tags log = some result) :
    Logs ruleSet traces log rules result := by
  induction rules generalizing traces tags log with
  | nil =>
    cases h
    exact logs_ret ⟨_, _, _, _⟩ log
  | cons rule rest ih =>
    unfold allMatchesLogged at h
    obtain ⟨matched, -, h⟩ := Option.bind_eq_some_iff.mp h
    exact (ih h).cons

lemma scoreLogged_logs {rules : List Wit.Rule} {traces : List Wit.ConditionTrace}
    {tags : List Wit.ScalarEntry} {best : Option Wit.Rule} {log : List Wit.Rule}
    {result : Wit.RuleDecision × List Wit.Rule}
    (h : scoreLogged ruleSet payload ctx rules traces tags best log = some result) :
    Logs ruleSet traces log rules result := by
  induction rules generalizing traces tags best log with
  | nil =>
    cases best <;> cases h <;> exact logs_ret ⟨_, _, _, _⟩ log
  | cons rule rest ih =>
    unfold scoreLogged at h
    obtain ⟨matched, -, h⟩ := Option.bind_eq_some_iff.mp h
    dsimp only at h
    split_ifs at h
    · exact (ih h).cons
    · exact (ih h).cons
    · exact (ih h).cons

lemma evaluateLogged_logs {fromStr : String → Option Json.Value} {context : Wit.EvalContext}
    {result : Wit.RuleDecision × List Wit.Rule}
    (h : evaluateLogged fromStr ruleSet context = some result) :
    Logs ruleSet [] []
      (if ruleSet.strategy = .firstMatch then
        upTo (decides (parsePayload fromStr context.payload) context) ruleSet.rules
      else ruleSet.rules) result := by
  unfold evaluateLogged at h
  cases hstrategy : ruleSet.strategy with
  | firstMatch =>
    rw [hstrategy] at h
    exact firstMatchLogged_logs h
  | allMatches =>
    rw [hstrategy] at h
    exact allMatchesLogged_logs h
  | score =>
    rw [hstrategy] at h
    exact scoreLogged_logs h

end Log

end Guest

section Guests

/-- What a component returns is what the rule guest answers to the lowered parameters; it may also
fail. `fromStr` is the guest's JSON parser. -/
def RuleComponent.RunsGuest (component : RuleComponent) (fromStr : String → Option Json.Value) :
    Prop :=
  ∀ ruleSet context result, (component.call ruleSet context).result = .ok result →
    ∃ gs gc answer, Wit.lowerRuleSet ruleSet = some gs ∧ Wit.lowerContext context = some gc ∧
      Guest.evaluate fromStr gs gc = some answer ∧ result = Wit.liftResult answer

/-- The guest's rule for a rule. -/
def guestRule (rule : Rules.Rule) : Option Wit.Rule :=
  (ruleToVal rule).toOption.bind Wit.lowerRule

namespace WasmRuleNode

variable (node : WasmRuleNode) (ctx : NodeContext) (packet : PortPacket)

/-- The rule set that the guest is given. -/
def guestRuleSet : Option Wit.RuleSet := (ruleSetToVal node.ruleSet).toOption.bind Wit.lowerRuleSet

/-- The context that the guest is given for a packet. -/
def guestContext : Option Wit.EvalContext :=
  (evalContextToVal node.component.jsonText (buildHostContext ctx packet)).toOption.bind
    Wit.lowerContext

end WasmRuleNode

variable {node : WasmRuleNode} {ctx : NodeContext} {packet : PortPacket}

lemma guestRule_action {rule : Rules.Rule} {w : Wit.Rule} (h : guestRule rule = some w) :
    w.action = ofAction rule.action := by
  simp only [guestRule, ruleToVal, Except.toOption, Option.bind_some, Wit.lowerRule,
    Wit.lowerString, Wit.lowerU32, lowerAction_actionToVal, Option.bind_eq_bind,
    Option.bind_eq_some_iff, Option.some.injEq, Option.pure_def] at h
  obtain ⟨tree, -, rfl⟩ := h
  rfl

lemma guestRuleSet_eq_some {gs : Wit.RuleSet} (h : node.guestRuleSet = some gs) :
    gs.strategy = ofStrategy node.ruleSet.strategy ∧
      gs.traceConditions = node.ruleSet.traceConditions ∧
      List.Forall₂ (fun rule w => guestRule rule = some w) node.ruleSet.rules gs.rules := by
  obtain ⟨vs, hvs⟩ : ∃ vs, node.ruleSet.rules.mapM ruleToVal = .ok vs := by
    cases hmap : node.ruleSet.rules.mapM ruleToVal with
    | ok vs => exact ⟨vs, rfl⟩
    | error e =>
      rw [WasmRuleNode.guestRuleSet, ruleSetToVal, hmap] at h
      cases h
  have hval : (ruleSetToVal node.ruleSet).toOption = some (.record
      [("id", .string node.ruleSet.id), ("strategy", strategyToVal node.ruleSet.strategy),
        ("rules", .list vs), ("default-action", actionToVal node.ruleSet.defaultAction),
        ("trace-conditions", .bool node.ruleSet.traceConditions)]) := by
    rw [ruleSetToVal, hvs]
    rfl
  rw [WasmRuleNode.guestRuleSet, hval, Option.bind_some] at h
  simp only [Wit.lowerRuleSet, Wit.lowerString, Wit.lowerList, Wit.lowerBool,
    lowerAction_actionToVal, lowerStrategy_strategyToVal, Option.bind_eq_bind,
    Option.bind_eq_some_iff, Option.some.injEq, Option.pure_def] at h
  obtain ⟨id, rfl, strategy, rfl, rules, hrules, action, rfl, trace, rfl, rfl⟩ := h
  refine ⟨rfl, rfl, ?_⟩
  have hencoded := Result.mapM_eq_ok.mp hvs
  have hlowered := Result.mapM_eq_some.mp hrules
  clear hval hrules hvs
  generalize node.ruleSet.rules = encoded at hencoded
  induction hencoded generalizing rules with
  | nil =>
    cases hlowered
    exact .nil
  | cons hrule _ ih =>
    cases hlowered with
    | cons hw hrest =>
      refine .cons ?_ (ih _ hrest)
      rw [guestRule, hrule]
      exact hw

end Guests

section Counting

def RuleExecutor.ruleSet : RuleExecutor → Rules.RuleSet
  | .native node => node.ruleSet
  | .wasm node => node.ruleSet

/-- In some run, the node hands this record to the sink when it processes the packet. -/
def RuleExecutor.Emits (node : RuleExecutor) (ctx : NodeContext) (counter : UInt64)
    (packet : PortPacket) (record : RuleEvalRecord) : Prop :=
  ∃ events s answer, ((node.loop ctx).process counter packet).Yields events s ∧
    ⟨.record (.ruleEval record), answer⟩ ∈ events

variable (fromStr : String → Option Json.Value) (ctx : NodeContext) (packet : PortPacket)

/-- So many rules are asked by the evaluator of the node. -/
def RuleExecutor.Asks (count : ℕ) : RuleExecutor → Prop
  | .native node => count = (evaluateLogged node.ruleSet packet (evalContext ctx packet)).2.length
  | .wasm node => ∃ gs gc logged, node.guestRuleSet = some gs ∧
      node.guestContext ctx packet = some gc ∧ Guest.evaluateLogged fromStr gs gc = some logged ∧
      count = logged.2.length

/-- The evaluator of the node finds that the condition of the rule holds. -/
def RuleExecutor.Finds (rule : Rules.Rule) : RuleExecutor → Prop
  | .native _ => evalCondition packet.payload (evalContext ctx packet) rule.condition = true
  | .wasm node => ∃ w gc, guestRule rule = some w ∧ node.guestContext ctx packet = some gc ∧
      Guest.evalRule w (Guest.parsePayload fromStr gc.payload) gc = some true

/-- Nothing stops the evaluation of the packet before the last rule. -/
def RuleExecutor.AsksAll (node : RuleExecutor) : Prop :=
  node.ruleSet.strategy ≠ .firstMatch ∨
    ∀ rule ∈ node.ruleSet.rules.dropLast, rule.action.isTerminal = true →
      ¬ node.Finds fromStr ctx packet rule

variable {fromStr ctx packet} {counter : UInt64} {record : RuleEvalRecord}

/-- What a record says of an evaluation: how many rules the set has, and the traces. -/
structure RecordsDecision (ruleSet : Rules.RuleSet) (decision : Rules.RuleDecision)
    (record : RuleEvalRecord) : Prop where
  rulesEvaluated : record.rulesEvaluated = .ofNat ruleSet.rules.length
  conditionsEvaluated : record.conditionsEvaluated = decision.conditionsEvaluated

lemma calls_ruleEval {P : RuleEvalRecord → Prop} {sink : Bool} {r : RuleEvalRecord} {k : LoopState}
    (h : P r) : (do PortM.record sink (.ruleEval r); return k : PortM LoopState).Calls fun op =>
      ∀ record, op = .record (.ruleEval record) → P record := by
  cases sink with
  | false => exact trivial
  | true =>
    refine ⟨fun record hop => ?_, fun _ => trivial⟩
    cases hop
    exact h

lemma native_records {node : RuleNode}
    (hemits : (RuleExecutor.native node).Emits ctx counter packet record) :
    RecordsDecision node.ruleSet (evaluateLogged node.ruleSet packet (evalContext ctx packet)).1
      record := by
  obtain ⟨events, s, answer, hyields, hmem⟩ := hemits
  have hcalls : (node.process ctx counter packet).Calls fun op =>
      ∀ record, op = .record (.ruleEval record) → RecordsDecision node.ruleSet
        (evaluateLogged node.ruleSet packet (evalContext ctx packet)).1 record := by
    rw [RuleNode.process, evaluateLogged_fst]
    exact calls_ruleEval ⟨rfl, rfl⟩
  exact hyields.calls hcalls _ hmem record rfl

lemma evaluateWithCancellation_ends (component : RuleComponent) (request : CancellationRequest)
    (ruleSet : Rules.RuleSet) (context : HostEvalContext) :
    (component.evaluateWithCancellation request ruleSet context).Ends fun answer =>
      ∀ decision, answer = .ok decision → component.evaluate ruleSet context = .ok decision := by
  unfold RuleComponent.evaluateWithCancellation RuleComponent.evaluate
  intro before
  cases before with
  | true => exact nofun
  | false =>
    cases component.params ruleSet context with
    | error err => exact nofun
    | ok params =>
      intro during
      cases during with
      | true => exact nofun
      | false => exact fun decision hdecision => hdecision

lemma evaluateWithCancellation_calls (component : RuleComponent) (request : CancellationRequest)
    (ruleSet : Rules.RuleSet) (context : HostEvalContext) :
    (component.evaluateWithCancellation request ruleSet context).Calls fun op =>
      ∀ r, op ≠ .record r := by
  have hlook : PortM.isCancelled.Calls fun op => ∀ r, op ≠ .record r := by
    refine Prog.calls_perform fun r hr => ?_
    cases hr
  unfold RuleComponent.evaluateWithCancellation
  refine Prog.calls_bind hlook fun before => ?_
  cases before with
  | true => exact trivial
  | false =>
    cases component.params ruleSet context with
    | error err => exact trivial
    | ok params =>
      refine Prog.calls_bind hlook fun during => ?_
      cases during <;> exact trivial

lemma wasm_records {node : WasmRuleNode}
    (hemits : (RuleExecutor.wasm node).Emits ctx counter packet record) :
    ∃ decision,
      node.component.evaluate node.ruleSet (buildHostContext ctx packet) = .ok decision ∧
      RecordsDecision node.ruleSet decision record := by
  obtain ⟨events, s, answer, hyields, hmem⟩ := hemits
  have hcalls : (node.process ctx counter packet).Calls fun op =>
      ∀ record, op = .record (.ruleEval record) → ∃ decision,
        node.component.evaluate node.ruleSet (buildHostContext ctx packet) = .ok decision ∧
        RecordsDecision node.ruleSet decision record := by
    refine Prog.calls_bind_ends ?_ (evaluateWithCancellation_ends node.component node.request
      node.ruleSet (buildHostContext ctx packet)) fun answer hanswer => ?_
    · refine (evaluateWithCancellation_calls _ _ _ _).mono fun op hop record hrecord => ?_
      exact absurd hrecord (hop _)
    · cases answer with
      | error e => exact trivial
      | ok decision => exact calls_ruleEval ⟨decision, hanswer decision rfl, rfl, rfl⟩
  exact hyields.calls hcalls _ hmem record rfl

lemma decodes_length {d : Wit.RuleDecision} {decision : Rules.RuleDecision}
    (h : decisionFromVal (Wit.liftDecision d) = .ok decision) :
    decision.conditionsEvaluated.length = d.conditionsEvaluated.length := by
  simp only [decisionFromVal, Wit.liftDecision, recordFields, Result.bind_eq_ok, Except.ok.injEq,
    exists_eq_left'] at h
  obtain ⟨_, -, action, -, _, -, matched, -, tags, -, applied, -, traces, htraces, evaluated,
    hevaluated, hdecision⟩ := h
  have hfield : requiredListField
      [("action", Wit.liftAction d.action),
        ("matched-rule", Val.option (d.matchedRule.map Val.string)),
        ("tags-applied", Val.list (d.tagsApplied.map Wit.liftEntry)),
        ("conditions-evaluated", Val.list (d.conditionsEvaluated.map Wit.liftTrace))]
      "conditions-evaluated" "rule decision" = .ok (d.conditionsEvaluated.map Wit.liftTrace) := by
    simp [requiredListField, requiredField, List.lookup]
  have hlist : traces = d.conditionsEvaluated.map Wit.liftTrace :=
    Except.ok.inj (htraces.symm.trans hfield)
  obtain rfl := Except.ok.inj hdecision
  have hlength := (Result.mapM_eq_ok.mp hevaluated).length_eq
  rw [hlist, List.length_map] at hlength
  exact hlength.symm

lemma guest_decision {node : WasmRuleNode} {decision : Rules.RuleDecision}
    (hguest : node.component.RunsGuest fromStr)
    (h : node.component.evaluate node.ruleSet (buildHostContext ctx packet) = .ok decision) :
    ∃ gs gc logged, node.guestRuleSet = some gs ∧ node.guestContext ctx packet = some gc ∧
      Guest.evaluateLogged fromStr gs gc = some logged ∧
      decision.conditionsEvaluated.length = logged.1.conditionsEvaluated.length := by
  obtain ⟨⟨rv, cv⟩, hparams, hanswer⟩ := Result.bind_eq_ok.mp h
  obtain ⟨⟨⟩, -, hencoded⟩ := Result.bind_eq_ok.mp hparams
  obtain ⟨rv', hrv, hencoded⟩ := Result.bind_eq_ok.mp hencoded
  obtain ⟨cv', hcv, hencoded⟩ := Result.bind_eq_ok.mp hencoded
  obtain ⟨rfl, rfl⟩ := Prod.mk.inj (Except.ok.inj hencoded)
  rw [RuleComponent.answer] at hanswer
  cases hresult : (node.component.call rv' cv').result with
  | error err =>
    simp only [hresult] at hanswer
    cases hanswer
  | ok result =>
    simp only [hresult] at hanswer
    obtain ⟨gs, gc, answer, hgs, hgc, heval, rfl⟩ := hguest rv' cv' result hresult
    rw [Guest.evaluateLogged_fst] at heval
    obtain ⟨logged, hlogged, rfl⟩ := Option.map_eq_some_iff.mp heval
    refine ⟨gs, gc, logged, ?_, ?_, hlogged, decodes_length hanswer⟩
    · rw [WasmRuleNode.guestRuleSet, hrv]
      exact hgs
    · rw [WasmRuleNode.guestContext, hcv]
      exact hgc

lemma native_asksAll_iff (node : RuleNode) :
    node.ruleSet.rules.length =
        (evaluateLogged node.ruleSet packet (evalContext ctx packet)).2.length ↔
      (RuleExecutor.native node).AsksAll fromStr ctx packet := by
  rw [evaluateLogged_snd]
  by_cases hstrategy : node.ruleSet.strategy = .firstMatch
  · have hdecides (rule : Rules.Rule) : rule.decides packet.payload (evalContext ctx packet) = false ↔
        (rule.action.isTerminal = true →
          ¬ (RuleExecutor.native node).Finds fromStr ctx packet rule) := by
      simp only [Rule.decides, Rule.fires, RuleExecutor.Finds, Bool.and_eq_false_iff]
      cases rule.action.isTerminal <;> simp
    rw [hstrategy, EvaluationStrategy.asks, length_upTo_eq_iff, RuleExecutor.AsksAll]
    simp only [hdecides, RuleExecutor.ruleSet, hstrategy, ne_eq, not_true, false_or]
  · have hall : node.ruleSet.strategy.asks packet.payload (evalContext ctx packet)
        node.ruleSet.rules = node.ruleSet.rules := by
      cases h : node.ruleSet.strategy with
      | firstMatch => exact absurd h hstrategy
      | allMatches | score => rfl
    rw [hall]
    exact iff_of_true rfl (.inl hstrategy)

lemma wasm_asksAll_iff {node : WasmRuleNode} {gs : Wit.RuleSet} {gc : Wit.EvalContext}
    {logged : Wit.RuleDecision × List Wit.Rule} (hgs : node.guestRuleSet = some gs)
    (hgc : node.guestContext ctx packet = some gc)
    (hlogged : Guest.evaluateLogged fromStr gs gc = some logged) :
    node.ruleSet.rules.length = logged.2.length ↔
      (RuleExecutor.wasm node).AsksAll fromStr ctx packet := by
  obtain ⟨hstrategy, -, hrules⟩ := guestRuleSet_eq_some hgs
  have hlog := (Guest.evaluateLogged_logs hlogged).log
  rw [List.nil_append] at hlog
  rw [hlog, hrules.length_eq]
  by_cases hfirst : node.ruleSet.strategy = .firstMatch
  · have hguest : gs.strategy = .firstMatch := by rw [hstrategy, hfirst, ofStrategy]
    have hdecides (rule : Rules.Rule) (w : Wit.Rule) (hw : guestRule rule = some w) :
        (rule.action.isTerminal = true → ¬ (RuleExecutor.wasm node).Finds fromStr ctx packet rule) ↔
          Guest.decides (Guest.parsePayload fromStr gc.payload) gc w = false := by
      have hfinds : (RuleExecutor.wasm node).Finds fromStr ctx packet rule ↔
          Guest.evalRule w (Guest.parsePayload fromStr gc.payload) gc = some true := by
        simp [RuleExecutor.Finds, hw, hgc]
      rw [hfinds, Guest.decides, guestRule_action hw, isTerminal_ofAction, Bool.and_eq_false_iff]
      cases rule.action.isTerminal <;> simp
    have hdropLast : List.Forall₂ (fun rule w => guestRule rule = some w)
        node.ruleSet.rules.dropLast gs.rules.dropLast := by
      rw [List.dropLast_eq_take, List.dropLast_eq_take, hrules.length_eq]
      exact List.forall₂_take _ hrules
    rw [if_pos hguest, length_upTo_eq_iff, ← Result.forall_mem_iff hdecides hdropLast,
      RuleExecutor.AsksAll]
    simp only [RuleExecutor.ruleSet, hfirst, ne_eq, not_true, false_or]
  · have hguest : gs.strategy ≠ .firstMatch := by
      rw [hstrategy]
      cases h : node.ruleSet.strategy with
      | firstMatch => exact absurd h hfirst
      | allMatches | score => exact nofun
    rw [if_neg hguest]
    exact iff_of_true rfl (.inl hfirst)

lemma RecordsDecision.toNat {ruleSet : Rules.RuleSet} {decision : Rules.RuleDecision}
    (h : RecordsDecision ruleSet decision record) (hrules : ruleSet.rules.length < 2 ^ 32) :
    record.rulesEvaluated.toNat = ruleSet.rules.length := by
  rw [h.rulesEvaluated, UInt32.toNat_ofNat']
  exact Nat.mod_eq_of_lt hrules

/-- **What the record counts.** For either kind of rule node, the record of a packet says how many
rules the set has. That is how many rules were evaluated, if and only if nothing stops the
evaluation before the last rule: the strategy is not to take the first match, or no rule before the
last is terminal and found to hold. The traces, when they are kept, are always as many as the rules
that were evaluated. -/
theorem rules_evaluated_iff (node : RuleExecutor) (fromStr : String → Option Json.Value)
    (ctx : NodeContext) (counter : UInt64) (packet : PortPacket) (record : RuleEvalRecord)
    (hrules : node.ruleSet.rules.length < 2 ^ 32)
    (hguest : ∀ wasm, node = .wasm wasm → wasm.component.RunsGuest fromStr)
    (hemits : node.Emits ctx counter packet record) :
    record.rulesEvaluated.toNat = node.ruleSet.rules.length ∧
    ∃ count, node.Asks fromStr ctx packet count ∧
      (record.rulesEvaluated.toNat = count ↔ node.AsksAll fromStr ctx packet) ∧
      (node.ruleSet.traceConditions = true → record.conditionsEvaluated.length = count) := by
  cases node with
  | native node =>
    have hrecords := native_records hemits
    refine ⟨hrecords.toNat hrules, _, rfl, ?_, fun htrace => ?_⟩
    · rw [hrecords.toNat hrules]
      exact native_asksAll_iff node
    · have htrace : node.ruleSet.traceConditions = true := htrace
      rw [hrecords.conditionsEvaluated, evaluateLogged_traced, if_pos htrace, List.length_map]
  | wasm node =>
    obtain ⟨decision, hdecision, hrecords⟩ := wasm_records hemits
    obtain ⟨gs, gc, logged, hgs, hgc, hlogged, hlength⟩ :=
      guest_decision (hguest node rfl) hdecision
    refine ⟨hrecords.toNat hrules, _, ⟨gs, gc, logged, hgs, hgc, hlogged, rfl⟩, ?_,
      fun htrace => ?_⟩
    · rw [hrecords.toNat hrules]
      exact wasm_asksAll_iff hgs hgc hlogged
    · obtain ⟨hstrategy, htraces, -⟩ := guestRuleSet_eq_some hgs
      have hlogs := Guest.evaluateLogged_logs hlogged
      rw [hrecords.conditionsEvaluated, hlength, hlogs.traces (htraces.trans htrace), hlogs.log,
        List.nil_append, List.length_nil, Nat.zero_add]

lemma native_emits (node : RuleNode) (hsink : node.metadataSink = true) (ctx : NodeContext)
    (counter : UInt64) (packet : PortPacket) :
    (RuleExecutor.native node).Emits ctx counter packet (node.buildRuleEvalRecord ctx packet
      (evaluateLogged node.ruleSet packet (evalContext ctx packet)).1 ∅) := by
  have hprocess : ∃ s, (node.process ctx counter packet).Yields [⟨.record (.ruleEval
      (node.buildRuleEvalRecord ctx packet
        (evaluateLogged node.ruleSet packet (evalContext ctx packet)).1 ∅)), .ok ()⟩] s := by
    rw [RuleNode.process, evaluateLogged_fst, hsink]
    exact ⟨_, .call .ret⟩
  obtain ⟨s, hyields⟩ := hprocess
  exact ⟨_, s, _, hyields, List.mem_singleton_self _⟩

lemma wasm_emits {node : WasmRuleNode} (hsink : node.metadataSink = true)
    {decision : Rules.RuleDecision}
    (h : node.component.evaluate node.ruleSet (buildHostContext ctx packet) = .ok decision) :
    (RuleExecutor.wasm node).Emits ctx counter packet
      (node.buildRuleEvalRecord ctx packet decision) := by
  obtain ⟨params, hparams, hanswer⟩ := Result.bind_eq_ok.mp h
  have hevaluation : (node.component.evaluateWithCancellation node.request node.ruleSet
      (buildHostContext ctx packet)).Yields [⟨.isCancelled, false⟩, ⟨.isCancelled, false⟩]
      (.ok decision) := by
    rw [RuleComponent.evaluateWithCancellation, hparams, ← hanswer]
    exact .call (.call .ret)
  have hact : ∃ s, (node.act ctx counter packet (.ok decision)).Yields
      [⟨.record (.ruleEval (node.buildRuleEvalRecord ctx packet decision)), .ok ()⟩] s := by
    rw [WasmRuleNode.act, hsink]
    exact ⟨_, .call .ret⟩
  obtain ⟨s, hact⟩ := hact
  exact ⟨_, s, _, hevaluation.bind hact, List.mem_append_right _ (List.mem_singleton_self _)⟩

end Counting

section Sample

/-- A component that runs the rule guest, and fails where the guest cannot be called or does not
return. -/
def guestComponent (json : JsonText) : RuleComponent where
  fuel := 1000
  instantiate := .ok ()
  call ruleSet context :=
    match Wit.lowerRuleSet ruleSet, Wit.lowerContext context with
    | some gs, some gc =>
      match Guest.evaluate json.fromStr gs gc with
      | some answer => ⟨.ok (Wit.liftResult answer), some 1⟩
      | none => ⟨.error "all fuel consumed", some 0⟩
    | _, _ => ⟨.error "type mismatch with parameters", some 1⟩
  jsonText := json.toString

lemma guestComponent_runsGuest (json : JsonText) :
    (guestComponent json).RunsGuest json.fromStr := by
  intro ruleSet context result hresult
  simp only [guestComponent] at hresult
  cases hgs : Wit.lowerRuleSet ruleSet with
  | none =>
    simp only [hgs] at hresult
    cases hresult
  | some gs =>
    cases hgc : Wit.lowerContext context with
    | none =>
      simp only [hgs, hgc] at hresult
      cases hresult
    | some gc =>
      cases hanswer : Guest.evaluate json.fromStr gs gc with
      | none =>
        simp only [hgs, hgc, hanswer] at hresult
        cases hresult
      | some answer =>
        simp only [hgs, hgc, hanswer, Except.ok.injEq] at hresult
        exact ⟨gs, gc, answer, rfl, rfl, hanswer, hresult.symm⟩

lemma guestComponent_evaluate {json : JsonText} {ruleSet : Rules.RuleSet}
    {context : HostEvalContext} {decision : Rules.RuleDecision}
    (h : evaluateInGuest json ruleSet context = some (.ok decision)) :
    (guestComponent json).evaluate ruleSet context = .ok decision := by
  rw [evaluateInGuest] at h
  cases hrv : ruleSetToVal ruleSet with
  | error err =>
    simp only [hrv] at h
    cases h
  | ok rv =>
    cases hcv : evalContextToVal json.toString context with
    | error err =>
      simp only [hrv, hcv] at h
      cases h
    | ok cv =>
      simp only [hrv, hcv, Option.bind_eq_bind, Option.bind_eq_some_iff] at h
      obtain ⟨gs, hgs, gc, hgc, answer, hanswer, hdecision⟩ := h
      have hparams : (guestComponent json).params ruleSet context = .ok (rv, cv) := by
        simp [RuleComponent.params, guestComponent, hrv, hcv, pure, Except.pure]
      rw [RuleComponent.evaluate, hparams]
      refine Eq.trans ?_ (Option.some.inj hdecision)
      simp [RuleComponent.answer, guestComponent, hgs, hgc, hanswer, bind, Except.bind]

/-- Two rules that always match. -/
def twoDrops : List Rules.Rule :=
  [⟨"first", .always, .drop, 10, ""⟩, ⟨"second", .always, .drop, 20, ""⟩]

def countedContext : NodeContext :=
  .new ⟨"flow", workflow_flow_valid⟩ ⟨"rules", node_rules_valid⟩
    (.firstAttempt ⟨"run-1", execution_run_valid⟩)

def countedNative (strategy : Rules.EvaluationStrategy) : RuleNode where
  ruleSet := ⟨"rules", strategy, twoDrops, .drop, true⟩
  metadataSink := true
  jsonText _ := ""

def countedWasm (strategy : Rules.EvaluationStrategy) : WasmRuleNode where
  ruleSet := ⟨"rules", strategy, twoDrops, .drop, true⟩
  component := guestComponent sampleJson
  metadataSink := true
  jsonText _ := ""
  request := ⟨"operator stop"⟩

lemma countedWasm_emits (strategy : Rules.EvaluationStrategy) : ∃ record,
    (RuleExecutor.wasm (countedWasm strategy)).Emits countedContext 0 emptyPacket record ∧
    record.rulesEvaluated = 2 ∧
    record.conditionsEvaluated.length = (evaluateLogged (countedWasm strategy).ruleSet emptyPacket
      (evalContext countedContext emptyPacket)).1.conditionsEvaluated.length := by
  have hcount : ∀ rule ∈ (countedWasm strategy).ruleSet.rules,
      rule.condition.nodeCount < 2 ^ 32 := by
    simp [countedWasm, twoDrops, Condition.nodeCount]
  have hfaithful : sampleJson.Faithful emptyPacket.payload := trivial
  obtain ⟨rv, ws, hrv, hpres, hrlow⟩ := lowerRuleSet_ruleSetToVal hcount
  obtain ⟨cv, p, hcv, hclow, hparse⟩ := lowerContext_evalContextToVal hfaithful
    (evalContext countedContext emptyPacket)
  obtain ⟨native, (hnative : evaluate _ _ (evalContext countedContext emptyPacket) = _), hguest⟩ :=
    guest_evaluate_eq hpres emptyPacket hparse
  have hwasm : evaluateInGuest sampleJson (countedWasm strategy).ruleSet
      (.ofNative emptyPacket.payload (evalContext countedContext emptyPacket)) = some (.ok
        { native with
          conditionsEvaluated := native.conditionsEvaluated.map withoutDescription }) := by
    simp [evaluateInGuest, hrv, hcv, hrlow, hclow, hguest, Wit.liftResult, decisionFromResultVal,
      decisionFromVal_lift]
  rw [evaluateLogged_fst] at hnative
  obtain rfl := Except.ok.inj hnative
  rw [← buildHostContext_eq] at hwasm
  exact ⟨_, wasm_emits rfl (guestComponent_evaluate hwasm), rfl, List.length_map _⟩

theorem rules_evaluated_iff_sample : ∃ record,
    (RuleExecutor.wasm (countedWasm .score)).Emits countedContext 0 emptyPacket record ∧
    record.rulesEvaluated.toNat = record.conditionsEvaluated.length := by
  obtain ⟨record, hemits, -, -⟩ := countedWasm_emits .score
  have hguest (wasm : WasmRuleNode)
      (h : RuleExecutor.wasm (countedWasm .score) = .wasm wasm) :
      wasm.component.RunsGuest sampleJson.fromStr := by
    cases h
    exact guestComponent_runsGuest sampleJson
  obtain ⟨-, count, -, hcount, htraces⟩ := rules_evaluated_iff (.wasm (countedWasm .score))
    sampleJson.fromStr countedContext 0 emptyPacket record (by decide) hguest hemits
  refine ⟨record, hemits, ?_⟩
  have hasks : (RuleExecutor.wasm (countedWasm .score)).AsksAll sampleJson.fromStr
      countedContext emptyPacket := .inl (by decide)
  rw [hcount.mpr hasks, htraces rfl]

/-- **A record counts rules that were not evaluated**: the first of two rules decides, natively or
in the guest, and the record says that two were evaluated. -/
theorem stopped_evaluation_overcounted :
    (∃ record, (RuleExecutor.native (countedNative .firstMatch)).Emits countedContext 0
        emptyPacket record ∧
      (RuleExecutor.native (countedNative .firstMatch)).Asks sampleJson.fromStr
        countedContext emptyPacket 1 ∧
      record.rulesEvaluated = 2 ∧ record.conditionsEvaluated.length = 1) ∧
    ∃ record, (RuleExecutor.wasm (countedWasm .firstMatch)).Emits countedContext 0
        emptyPacket record ∧
      record.rulesEvaluated = 2 ∧ record.conditionsEvaluated.length = 1 := by
  obtain ⟨record, hemits, hrules, htraces⟩ := countedWasm_emits .firstMatch
  exact ⟨⟨_, native_emits (countedNative .firstMatch) rfl _ _ _, rfl, rfl, rfl⟩,
    ⟨record, hemits, hrules, htraces⟩⟩

end Sample

end Pureflow.Wasm
