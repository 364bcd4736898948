import Pureflow.Rules.Spec

/-!
Introspection of rule sets: their rules with the surfaces and ports they touch, and the rules found
to be unreachable.

The analysis says that a rule cannot fire where its condition is never, and, if the first match
decides, where an earlier rule always matches or has the same field equation. It does not ask
whether the earlier rule is terminal, and a tag rule does not end an evaluation.
-/

namespace Pureflow.Introspection

open Pureflow.Types Pureflow.Core Pureflow.Lib Pureflow.Rules

/-- Summary of a rule action for introspection purposes. -/
inductive RuleActionSummary
  | route (port : PortId)
  | drop
  | deadLetter
  | tag (key : String)
  | halt
  deriving DecidableEq

/-- Which packet surfaces a condition evaluates against. -/
structure ConditionSurfaceSummary where
  payload : Bool := false
  tag : Bool := false
  provenance : Bool := false
  executionContext : Bool := false
  constant : Bool := false
  deriving DecidableEq

structure RuleIntrospection where
  id : String
  priority : UInt32
  description : String
  action : RuleActionSummary
  conditionSurfaces : ConditionSurfaceSummary
  targetPorts : List PortId
  deriving DecidableEq

/-- Why a rule was identified as unreachable. -/
inductive UnreachableReason
  | conditionIsNever
  | shadowedByAlways (shadowingRuleId : String)
  | exactFieldEqSubsumed (shadowingRuleId : String)
  deriving DecidableEq

structure UnreachableRule where
  ruleId : String
  reason : UnreachableReason
  deriving DecidableEq

structure RuleSetIntrospection where
  id : String
  strategy : RuleEvalStrategy
  rules : List RuleIntrospection
  defaultAction : RuleActionSummary
  traceConditions : Bool
  unreachableRules : List UnreachableRule
  deriving DecidableEq

section Projection

def markSurface (out : ConditionSurfaceSummary) : ConditionSurface → ConditionSurfaceSummary
  | .payload => { out with payload := true }
  | .tag => { out with tag := true }
  | .provenance => { out with provenance := true }
  | .executionContext => { out with executionContext := true }
  | .constant => { out with constant := true }
  | .combinator => out

mutual

def collectSurfacesInner (out : ConditionSurfaceSummary) : Condition → ConditionSurfaceSummary
  | .and inner => collectSurfacesAll (markSurface out .combinator) inner
  | .or inner => collectSurfacesAll (markSurface out .combinator) inner
  | .not inner => collectSurfacesInner (markSurface out .combinator) inner
  | condition => markSurface out condition.surface

def collectSurfacesAll (out : ConditionSurfaceSummary) : List Condition → ConditionSurfaceSummary
  | [] => out
  | c :: rest => collectSurfacesAll (collectSurfacesInner out c) rest

end

/-- Collect the condition surfaces used anywhere in a condition tree. -/
def collectSurfaces (condition : Condition) : ConditionSurfaceSummary :=
  collectSurfacesInner {} condition

/-- Collect output ports targeted by an action. -/
def collectTargetPorts : RuleAction → List PortId
  | .route port => [port]
  | _ => []

def actionSummary : RuleAction → RuleActionSummary
  | .route port => .route port
  | .drop => .drop
  | .deadLetter _ => .deadLetter
  | .tag key _ => .tag key
  | .halt _ => .halt

end Projection

section Detection

def isNever : Condition → Bool
  | .never => true
  | _ => false

def isAlways : Condition → Bool
  | .always => true
  | _ => false

/-- The rules that never match. -/
def neverRules (rules : List Rule) : List UnreachableRule :=
  (rules.filter (isNever ·.condition)).map fun rule => ⟨rule.id, .conditionIsNever⟩

/-- The rules after the first one that always matches. -/
def shadowedByAlways : Option String → List Rule → List UnreachableRule
  | _, [] => []
  | alwaysRuleId, rule :: rest =>
    let reported :=
      match alwaysRuleId with
      | some shadower =>
        -- a rule that never matches was reported before
        if isNever rule.condition then [] else [⟨rule.id, .shadowedByAlways shadower⟩]
      | none => []
    let alwaysRuleId :=
      if isAlways rule.condition && alwaysRuleId.isNone then some rule.id else alwaysRuleId
    reported ++ shadowedByAlways alwaysRuleId rest

/-- The condition is the same field equation. -/
def sameFieldEq (path : FieldPath) (value : ScalarValue) : Condition → Bool
  | .fieldEq path' value' => path == path' && scalarEq value value'
  | _ => false

/-- Report the later rules with the field equation of a rule, unless they were reported. -/
def subsumeLater (ruleId : String) (path : FieldPath) (value : ScalarValue) :
    List Rule → List UnreachableRule → List UnreachableRule
  | [], unreachable => unreachable
  | later :: rest, unreachable =>
    if sameFieldEq path value later.condition && !unreachable.any (·.ruleId == later.id) then
      subsumeLater ruleId path value rest
        (unreachable ++ [⟨later.id, .exactFieldEqSubsumed ruleId⟩])
    else subsumeLater ruleId path value rest unreachable

def subsumeFieldEq : List Rule → List UnreachableRule → List UnreachableRule
  | [], unreachable => unreachable
  | rule :: rest, unreachable =>
    match rule.condition with
    | .fieldEq path value =>
      subsumeFieldEq rest (subsumeLater rule.id path value rest unreachable)
    | _ => subsumeFieldEq rest unreachable

/-- Detect unreachable rules. -/
def detectUnreachable (ruleSet : RuleSet) : List UnreachableRule :=
  let unreachable := neverRules ruleSet.rules
  if ruleSet.strategy = .firstMatch then
    subsumeFieldEq ruleSet.rules (unreachable ++ shadowedByAlways none ruleSet.rules)
  else unreachable

end Detection

/-- Build an introspection view from a rule set. -/
def introspectRuleSet (ruleSet : RuleSet) : RuleSetIntrospection where
  id := ruleSet.id
  strategy := strategyToEval ruleSet.strategy
  rules := ruleSet.rules.map fun rule =>
    { id := rule.id
      priority := rule.priority
      description := rule.description
      action := actionSummary rule.action
      conditionSurfaces := collectSurfaces rule.condition
      targetPorts := collectTargetPorts rule.action }
  defaultAction := actionSummary ruleSet.defaultAction
  traceConditions := ruleSet.traceConditions
  unreachableRules := detectUnreachable ruleSet

section Listed

/-- The earlier condition is taken to shadow the later one: it always holds, or both are the same
field equation. -/
def Shadows (earlier later : Condition) : Prop :=
  earlier = .always ∨
    ∃ path value, earlier = .fieldEq path value ∧ sameFieldEq path value later = true

lemma isNever_iff {condition : Condition} : isNever condition = true ↔ condition = .never := by
  cases condition <;> simp [isNever]

lemma isAlways_iff {condition : Condition} : isAlways condition = true ↔ condition = .always := by
  cases condition <;> simp [isAlways]

/-- A property of a rule and those before it, somewhere in a list. -/
def Occurs (P : List Rule → Rule → Prop) (rules : List Rule) : Prop :=
  ∃ before rule after, rules = before ++ rule :: after ∧ P before rule

lemma occurs_nil {P : List Rule → Rule → Prop} : ¬Occurs P [] := by
  rintro ⟨before, rule, after, hrules, -⟩
  cases before <;> cases hrules

lemma occurs_cons {P : List Rule → Rule → Prop} {first : Rule} {rest : List Rule} :
    Occurs P (first :: rest) ↔ P [] first ∨ Occurs (fun before => P (first :: before)) rest := by
  constructor
  · rintro ⟨before, rule, after, hrules, h⟩
    cases before with
    | nil =>
      cases hrules
      exact .inl h
    | cons b before =>
      cases hrules
      exact .inr ⟨before, rule, after, rfl, h⟩
  · rintro (h | ⟨before, rule, after, rfl, h⟩)
    · exact ⟨[], first, rest, rfl, h⟩
    · exact ⟨first :: before, rule, after, rfl, h⟩

lemma occurs_congr {P Q : List Rule → Rule → Prop} {rules : List Rule}
    (h : ∀ before rule, P before rule ↔ Q before rule) : Occurs P rules ↔ Occurs Q rules := by
  simp only [Occurs, h]

lemma occurs_or {P Q : List Rule → Rule → Prop} {rules : List Rule} :
    Occurs (fun before rule => P before rule ∨ Q before rule) rules ↔
      Occurs P rules ∨ Occurs Q rules := by
  constructor
  · rintro ⟨before, rule, after, hrules, h | h⟩
    · exact .inl ⟨before, rule, after, hrules, h⟩
    · exact .inr ⟨before, rule, after, hrules, h⟩
  · rintro (⟨before, rule, after, hrules, h⟩ | ⟨before, rule, after, hrules, h⟩)
    · exact ⟨before, rule, after, hrules, .inl h⟩
    · exact ⟨before, rule, after, hrules, .inr h⟩

lemma mem_neverRules {id : String} {rules : List Rule} :
    id ∈ (neverRules rules).map (·.ruleId) ↔
      Occurs (fun _ rule => rule.id = id ∧ isNever rule.condition = true) rules := by
  induction rules with
  | nil => simpa [neverRules] using occurs_nil
  | cons rule rest ih =>
    rw [occurs_cons, ← ih]
    cases hnever : isNever rule.condition with
    | true => simp [neverRules, hnever, @eq_comm _ id]
    | false => simp [neverRules, hnever]

/-- Once a rule always matches, all the later ones are listed but those that never match. -/
lemma mem_shadowed_some {id shadower : String} {rules : List Rule} :
    id ∈ (shadowedByAlways (some shadower) rules).map (·.ruleId) ↔
      Occurs (fun _ rule => rule.id = id ∧ isNever rule.condition = false) rules := by
  induction rules with
  | nil => simpa [shadowedByAlways] using occurs_nil
  | cons rule rest ih =>
    rw [occurs_cons, ← ih]
    cases hnever : isNever rule.condition with
    | true => simp [shadowedByAlways, hnever]
    | false => simp [shadowedByAlways, hnever, @eq_comm _ id]

lemma mem_shadowed_none {id : String} {rules : List Rule} :
    id ∈ (shadowedByAlways none rules).map (·.ruleId) ↔
      Occurs (fun before rule => rule.id = id ∧ isNever rule.condition = false ∧
        ∃ earlier ∈ before, isAlways earlier.condition = true) rules := by
  induction rules with
  | nil => simpa [shadowedByAlways] using occurs_nil
  | cons rule rest ih =>
    rw [occurs_cons]
    cases halways : isAlways rule.condition with
    | true =>
      have hrest : id ∈ (shadowedByAlways (some rule.id) rest).map (·.ruleId) ↔ _ :=
        mem_shadowed_some
      simpa [shadowedByAlways, halways] using hrest
    | false => simpa [shadowedByAlways, halways] using ih

lemma mem_subsumeLater {id ruleId : String} {path : FieldPath} {value : ScalarValue}
    {rules : List Rule} {unreachable : List UnreachableRule} :
    id ∈ (subsumeLater ruleId path value rules unreachable).map (·.ruleId) ↔
      id ∈ unreachable.map (·.ruleId) ∨
        Occurs (fun _ rule => rule.id = id ∧ sameFieldEq path value rule.condition = true)
          rules := by
  induction rules generalizing unreachable with
  | nil => simpa [subsumeLater] using fun h => absurd h occurs_nil
  | cons rule rest ih =>
    rw [occurs_cons, subsumeLater]
    by_cases hsame : sameFieldEq path value rule.condition = true
    · by_cases hreported : unreachable.any (·.ruleId == rule.id) = true
      · -- a rule that was reported is listed already
        rw [if_neg (by simp [hreported]), ih]
        have hlisted : rule.id ∈ unreachable.map (·.ruleId) := by
          simpa using hreported
        constructor
        · tauto
        · rintro (h | ⟨rfl, -⟩ | h)
          · exact .inl h
          · exact .inl hlisted
          · exact .inr h
      · rw [if_pos (by simp [hsame, hreported]), ih, List.map_append, List.mem_append]
        simp only [List.map_cons, List.map_nil, List.mem_singleton, hsame, and_true,
          @eq_comm _ id, or_assoc]
    · rw [if_neg (by simp [hsame]), ih]
      simp [hsame]

lemma mem_subsumeFieldEq {id : String} {rules : List Rule} {unreachable : List UnreachableRule} :
    id ∈ (subsumeFieldEq rules unreachable).map (·.ruleId) ↔
      id ∈ unreachable.map (·.ruleId) ∨
        Occurs (fun before rule => rule.id = id ∧ ∃ earlier ∈ before, ∃ path value,
          earlier.condition = .fieldEq path value ∧ sameFieldEq path value rule.condition = true)
          rules := by
  induction rules generalizing unreachable with
  | nil => simpa [subsumeFieldEq] using fun h => absurd h occurs_nil
  | cons rule rest ih =>
    -- the rules after the first are subsumed by it, or by one between
    have hsplit : Occurs (fun before later => later.id = id ∧
          ∃ earlier ∈ rule :: before, ∃ path value, earlier.condition = .fieldEq path value ∧
            sameFieldEq path value later.condition = true) rest ↔
        Occurs (fun _ later => later.id = id ∧ ∃ path value,
          rule.condition = .fieldEq path value ∧
            sameFieldEq path value later.condition = true) rest ∨
        Occurs (fun before later => later.id = id ∧ ∃ earlier ∈ before, ∃ path value,
          earlier.condition = .fieldEq path value ∧
            sameFieldEq path value later.condition = true) rest := by
      rw [← occurs_or]
      refine occurs_congr fun before later => ?_
      simp only [List.exists_mem_cons_iff, and_or_left]
    have hfirst : ¬(rule.id = id ∧ ∃ earlier ∈ ([] : List Rule), ∃ path value,
        earlier.condition = .fieldEq path value ∧
          sameFieldEq path value rule.condition = true) := by
      simp
    rw [occurs_cons, hsplit, or_iff_right hfirst, subsumeFieldEq]
    cases hcondition : rule.condition with
    | fieldEq path value =>
      rw [ih, mem_subsumeLater, or_assoc]
      simp
    | _ =>
      rw [ih]
      simp [Occurs]

/-- **What is listed**: a rule that never matches and, if the first match decides, a rule that is
shadowed by an earlier one. -/
lemma mem_detectUnreachable {id : String} {ruleSet : RuleSet} :
    id ∈ (detectUnreachable ruleSet).map (·.ruleId) ↔
      Occurs (fun before rule => rule.id = id ∧ (rule.condition = .never ∨
        ruleSet.strategy = .firstMatch ∧
          ∃ earlier ∈ before, Shadows earlier.condition rule.condition)) ruleSet.rules := by
  unfold detectUnreachable
  by_cases hstrategy : ruleSet.strategy = .firstMatch
  · simp only [hstrategy, if_true, mem_subsumeFieldEq, List.map_append, List.mem_append,
      mem_neverRules, mem_shadowed_none, ← occurs_or, true_and]
    refine occurs_congr fun before rule => ?_
    simp only [isNever_iff, isAlways_iff, ← Bool.not_eq_true, Shadows]
    constructor
    · rintro ((⟨hid, h⟩ | ⟨hid, -, earlier, hmem, h⟩) | ⟨hid, earlier, hmem, h⟩)
      · exact ⟨hid, .inl h⟩
      · exact ⟨hid, .inr ⟨earlier, hmem, .inl h⟩⟩
      · exact ⟨hid, .inr ⟨earlier, hmem, .inr h⟩⟩
    · rintro ⟨hid, h | ⟨earlier, hmem, h | h⟩⟩
      · exact .inl (.inl ⟨hid, h⟩)
      · by_cases hnever : rule.condition = .never
        · exact .inl (.inl ⟨hid, hnever⟩)
        · exact .inl (.inr ⟨hid, hnever, earlier, hmem, h⟩)
      · exact .inr ⟨hid, earlier, hmem, h⟩
  · simp [hstrategy, mem_neverRules, isNever_iff]

end Listed

/-- The rule set without the rule of this id. -/
def withoutRule (ruleSet : RuleSet) (id : String) : RuleSet :=
  { ruleSet with rules := ruleSet.rules.filter (·.id ≠ id) }

/-- The rule has no influence on how a packet is decided: it is not the rule that matched, and
without it the action, the matched rule and the tags are the same. -/
def Inert (ruleSet : RuleSet) (packet : PortPacket) (context : EvalContext) (id : String) : Prop :=
  ∀ decision other, evaluate ruleSet packet context = .ok decision →
    evaluate (withoutRule ruleSet id) packet context = .ok other →
    decision.matchedRule ≠ some id ∧ other.action = decision.action ∧
      other.matchedRule = decision.matchedRule ∧ other.tagsApplied = decision.tagsApplied

section Influence

variable {payload : PacketPayload} {context : EvalContext} {before after : List Rule} {rule : Rule}

lemma filter_without (h : ((before ++ rule :: after).map Rule.id).Nodup) :
    (before ++ rule :: after).filter (·.id ≠ rule.id) = before ++ after := by
  have hother : ∀ r ∈ before ++ after, r.id ≠ rule.id := by
    have hperm : ((before ++ rule :: after).map Rule.id).Perm
        (rule.id :: (before ++ after).map Rule.id) := List.perm_middle.map Rule.id
    rw [hperm.nodup_iff, List.nodup_cons] at h
    intro r hr hid
    exact h.1 (List.mem_map.mpr ⟨r, hr, hid⟩)
  rw [List.filter_append, List.filter_cons_of_neg (by simp), ← List.filter_append,
    List.filter_eq_self]
  simpa using hother

lemma find?_without (h : rule.decides payload context = false) :
    (before ++ rule :: after).find? (Rule.decides payload context) =
      (before ++ after).find? (Rule.decides payload context) := by
  rw [List.find?_append, List.find?_cons_of_neg (by simp [h]), ← List.find?_append]

lemma firedTags_append (xs ys : List Rule) :
    firedTags payload context (xs ++ ys) =
      firedTags payload context xs ++ firedTags payload context ys := by
  simp [firedTags]

lemma firedTags_takeWhile_without (h : rule.fires payload context = false) :
    firedTags payload context
        ((before ++ rule :: after).takeWhile fun r => !r.decides payload context) =
      firedTags payload context
        ((before ++ after).takeWhile fun r => !r.decides payload context) := by
  have hdecides : rule.decides payload context = false := by simp [Rule.decides, h]
  induction before with
  | nil => simp [hdecides, firedTags_cons, h]
  | cons first before ih =>
    simp only [List.cons_append, List.takeWhile_cons]
    split
    · rw [firedTags_cons, firedTags_cons, ih]
    · rfl

lemma takeWhile_of_decided (h : ∃ earlier ∈ before, earlier.decides payload context = true)
    (rest : List Rule) :
    (before ++ rest).takeWhile (fun r => !r.decides payload context) =
      before.takeWhile fun r => !r.decides payload context := by
  obtain ⟨earlier, hmem, hdecides⟩ := h
  induction before with
  | nil => cases hmem
  | cons first before ih =>
    simp only [List.cons_append, List.takeWhile_cons]
    split
    · next hfirst =>
      rcases List.mem_cons.mp hmem with rfl | hmem
      · simp [hdecides] at hfirst
      · rw [ih hmem]
    · rfl

lemma find?_of_decided (h : ∃ earlier ∈ before, earlier.decides payload context = true)
    (rest : List Rule) :
    (before ++ rest).find? (Rule.decides payload context) =
      before.find? (Rule.decides payload context) := by
  obtain ⟨earlier, hmem, hdecides⟩ := h
  cases hfind : before.find? (Rule.decides payload context) with
  | none => exact absurd hdecides (List.find?_eq_none.mp hfind earlier hmem)
  | some r => rw [List.find?_append, hfind, Option.some_or]

end Influence

section Soundness

variable {ruleSet : RuleSet} {packet : PortPacket} {context : EvalContext}
  {before after : List Rule} {rule : Rule}

lemma id_ne_of_mem (h : ((before ++ rule :: after).map Rule.id).Nodup) {r : Rule}
    (hr : r ∈ before ++ after) : r.id ≠ rule.id := by
  rw [← filter_without h, List.mem_filter] at hr
  exact of_decide_eq_true hr.2

lemma withoutRule_rules (hrules : ruleSet.rules = before ++ rule :: after)
    (hids : (ruleSet.rules.map Rule.id).Nodup) :
    (withoutRule ruleSet rule.id).rules = before ++ after := by
  rw [hrules] at hids
  rw [withoutRule, hrules, filter_without hids]

lemma same_of_follows {decision other : RuleDecision} {defaultAction : RuleAction}
    {rule? : Option Rule} {id : String} (h : decision.Follows defaultAction rule?)
    (h' : other.Follows defaultAction rule?) (hid : ∀ r ∈ rule?, r.id ≠ id) :
    decision.matchedRule ≠ some id ∧ other.action = decision.action ∧
      other.matchedRule = decision.matchedRule := by
  refine ⟨?_, h'.action.trans h.action.symm, h'.matchedRule.trans h.matchedRule.symm⟩
  rw [h.matchedRule]
  cases rule? with
  | none => simp
  | some r => simpa using hid r rfl

/-- **A rule whose condition does not hold is inert**, under every strategy. -/
lemma inert_of_unmatched (hrules : ruleSet.rules = before ++ rule :: after)
    (hids : (ruleSet.rules.map Rule.id).Nodup)
    (h : rule.fires packet.payload context = false) : Inert ruleSet packet context rule.id := by
  have hdecides : rule.decides packet.payload context = false := by simp [Rule.decides, h]
  have htags : firedTags packet.payload context (before ++ rule :: after) =
      firedTags packet.payload context (before ++ after) := by
    rw [firedTags_append, firedTags_append, firedTags_cons, h, if_neg (by simp), List.nil_append]
  intro decision other hdecision hother
  have hspec := specifies_of_evaluate hdecision
  have hspec' := specifies_of_evaluate hother
  have hstrategy : (withoutRule ruleSet rule.id).strategy = ruleSet.strategy := rfl
  rw [withoutRule_rules hrules hids, hstrategy] at hspec'
  rw [hrules] at hspec hids
  have hfound : ∀ r ∈ (before ++ after).find? (Rule.decides packet.payload context),
      r.id ≠ rule.id :=
    fun r hr => id_ne_of_mem hids (List.mem_of_find?_eq_some hr)
  cases hs : ruleSet.strategy with
  | firstMatch =>
    rw [hs] at hspec hspec'
    obtain ⟨hfollows, htagged⟩ := hspec
    obtain ⟨hfollows', htagged'⟩ := hspec'
    rw [find?_without hdecides] at hfollows
    obtain ⟨hid, haction, hmatched⟩ := same_of_follows hfollows hfollows' hfound
    exact ⟨hid, haction, hmatched, by rw [htagged, htagged', firedTags_takeWhile_without h]⟩
  | score =>
    rw [hs] at hspec hspec'
    obtain ⟨hfollows, htagged⟩ := hspec
    obtain ⟨hfollows', htagged'⟩ := hspec'
    rw [find?_without hdecides] at hfollows
    obtain ⟨hid, haction, hmatched⟩ := same_of_follows hfollows hfollows' hfound
    exact ⟨hid, haction, hmatched, by rw [htagged, htagged', htags]⟩
  | allMatches =>
    rw [hs] at hspec hspec'
    obtain ⟨hfollows, htagged⟩ := hspec
    obtain ⟨hfollows', htagged'⟩ := hspec'
    obtain ⟨hid, haction, hmatched⟩ := same_of_follows hfollows hfollows' (by simp)
    exact ⟨hid, haction, hmatched, by rw [htagged, htagged', htags]⟩

/-- **Where the first match decides**, a rule whose condition holds is inert exactly if an earlier
rule decides. -/
lemma inert_iff_decided (hstrategy : ruleSet.strategy = .firstMatch)
    (hrules : ruleSet.rules = before ++ rule :: after) (hids : (ruleSet.rules.map Rule.id).Nodup)
    (h : rule.fires packet.payload context = true) :
    Inert ruleSet packet context rule.id ↔
      ∃ earlier ∈ before, earlier.decides packet.payload context = true := by
  obtain ⟨decision, hdecision, hspec⟩ := evaluate_specified ruleSet packet context
  obtain ⟨other, hother, hspec'⟩ := evaluate_specified (withoutRule ruleSet rule.id) packet context
  have hwithout : (withoutRule ruleSet rule.id).strategy = .firstMatch := hstrategy
  rw [withoutRule_rules hrules hids, hwithout] at hspec'
  rw [hrules, hstrategy] at hspec
  rw [hrules] at hids
  obtain ⟨hfollows, htagged⟩ := hspec
  obtain ⟨hfollows', htagged'⟩ := hspec'
  constructor
  · intro hinert
    obtain ⟨hid, -, -, htags⟩ := hinert decision other hdecision hother
    by_contra hnone
    have hnone : ∀ r ∈ before, r.decides packet.payload context = false := by
      simpa using hnone
    have hfind : before.find? (Rule.decides packet.payload context) = none := by
      rw [List.find?_eq_none]
      exact fun r hr => by simp [hnone r hr]
    have hwhile (rest : List Rule) :
        (before ++ rest).takeWhile (fun r => !r.decides packet.payload context) =
          before ++ rest.takeWhile fun r => !r.decides packet.payload context :=
      List.takeWhile_append_of_pos fun r hr => by simp [hnone r hr]
    cases hterminal : rule.action.isTerminal with
    | true =>
      -- a terminal rule would have matched
      have hdecides : rule.decides packet.payload context = true := by
        simp [Rule.decides, h, hterminal]
      rw [List.find?_append, hfind, Option.none_or, List.find?_cons_of_pos hdecides] at hfollows
      exact hid hfollows.matchedRule
    | false =>
      -- a tag rule would have applied its tag
      have hdecides : rule.decides packet.payload context = false := by
        simp [Rule.decides, hterminal]
      obtain ⟨tag, htag⟩ : ∃ tag, rule.action.tag? = some tag := by
        cases haction : rule.action with
        | tag key value => exact ⟨_, rfl⟩
        | _ =>
          rw [haction] at hterminal
          cases hterminal
      rw [htagged, htagged', hwhile, hwhile, List.takeWhile_cons_of_pos (by simp [hdecides]),
        firedTags_append, firedTags_append, firedTags_cons, h, if_pos rfl, htag] at htags
      have hlength := congrArg List.length htags
      simp at hlength
  · intro hdecided
    rw [find?_of_decided hdecided] at hfollows hfollows'
    rw [takeWhile_of_decided hdecided] at htagged htagged'
    have hfound : ∀ r ∈ before.find? (Rule.decides packet.payload context), r.id ≠ rule.id :=
      fun r hr => id_ne_of_mem hids (List.mem_append_left _ (List.mem_of_find?_eq_some hr))
    obtain ⟨hid, haction, hmatched⟩ := same_of_follows hfollows hfollows' hfound
    intro decision₂ other₂ hdecision₂ hother₂
    obtain rfl := Except.ok.inj (hdecision.symm.trans hdecision₂)
    obtain rfl := Except.ok.inj (hother.symm.trans hother₂)
    exact ⟨hid, haction, hmatched, htagged'.trans htagged.symm⟩

end Soundness

/-- **The analysis is sound for a packet exactly if** no shadowed rule slips through: where the first
match decides and the condition of a rule holds that is taken to be shadowed, the condition of an
earlier rule holds, too, that is terminal. -/
theorem unreachable_inert_iff (ruleSet : RuleSet) (hids : (ruleSet.rules.map Rule.id).Nodup)
    (packet : PortPacket) (context : EvalContext) :
    (∀ listed ∈ (introspectRuleSet ruleSet).unreachableRules,
      Inert ruleSet packet context listed.ruleId) ↔
    (ruleSet.strategy = .firstMatch →
      ∀ before rule after, ruleSet.rules = before ++ rule :: after →
        (∃ earlier ∈ before, Shadows earlier.condition rule.condition) →
        evalCondition packet.payload context rule.condition = true →
        ∃ earlier ∈ before, evalCondition packet.payload context earlier.condition = true ∧
          earlier.action.isTerminal = true) := by
  have hdecides (earlier : Rule) : earlier.decides packet.payload context = true ↔
      evalCondition packet.payload context earlier.condition = true ∧
        earlier.action.isTerminal = true := by
    rw [Rule.decides, Bool.and_eq_true]
    rfl
  constructor
  · intro hsound hstrategy before rule after hrules hshadowed hfires
    have hlisted : rule.id ∈ (detectUnreachable ruleSet).map (·.ruleId) :=
      mem_detectUnreachable.mpr ⟨before, rule, after, hrules, rfl, .inr ⟨hstrategy, hshadowed⟩⟩
    obtain ⟨listed, hmem, hid⟩ := List.mem_map.mp hlisted
    have hinert := hsound listed hmem
    rw [hid] at hinert
    obtain ⟨earlier, hearlier, hdecided⟩ :=
      (inert_iff_decided hstrategy hrules hids hfires).mp hinert
    exact ⟨earlier, hearlier, (hdecides earlier).mp hdecided⟩
  · intro hcovered listed hmem
    obtain ⟨before, rule, after, hrules, hid, hreason⟩ :=
      mem_detectUnreachable.mp (List.mem_map_of_mem hmem)
    rw [← hid]
    cases hfires : rule.fires packet.payload context with
    | false => exact inert_of_unmatched hrules hids hfires
    | true =>
      rcases hreason with hnever | ⟨hstrategy, hshadowed⟩
      · rw [Rule.fires, hnever] at hfires
        cases hfires
      · obtain ⟨earlier, hearlier, hdecided⟩ :=
          hcovered hstrategy before rule after hrules hshadowed hfires
        exact (inert_iff_decided hstrategy hrules hids hfires).mpr
          ⟨earlier, hearlier, (hdecides earlier).mpr hdecided⟩

section Sample

/-- A tag rule that always matches, and a terminal one after it. -/
def taggedRules : List Rule :=
  [⟨"mark", .always, .tag "seen" (.boolean true), 10, ""⟩, ⟨"send", .always, .drop, 20, ""⟩]

/-- The same, the other way round. -/
def guardedRules : List Rule :=
  [⟨"send", .always, .drop, 10, ""⟩, ⟨"mark", .always, .tag "seen" (.boolean true), 20, ""⟩]

theorem unreachable_inert_iff_sample :
    (∃ listed ∈ (introspectRuleSet ⟨"rules", .firstMatch, guardedRules, .drop, false⟩).unreachableRules,
      listed.ruleId = "mark") ∧
    ∀ listed ∈ (introspectRuleSet ⟨"rules", .firstMatch, guardedRules, .drop, false⟩).unreachableRules,
      Inert ⟨"rules", .firstMatch, guardedRules, .drop, false⟩ emptyPacket emptyContext
        listed.ruleId := by
  have hids : (guardedRules.map Rule.id).Nodup := by decide
  refine ⟨⟨⟨"mark", .shadowedByAlways "send"⟩, by decide, rfl⟩,
    (unreachable_inert_iff _ hids emptyPacket emptyContext).mpr
      fun _ before rule after hrules hshadowed _ => ?_⟩
  -- the first rule is terminal and always matches
  cases before with
  | nil => simp at hshadowed
  | cons first before =>
    obtain ⟨rfl, -⟩ := List.cons.inj hrules
    exact ⟨_, List.mem_cons_self, rfl, rfl⟩

/-- A rule is listed as unreachable, after a tag rule that always matches, and decides. -/
theorem unreachable_rule_matches :
    ∃ ruleSet, RuleSet.new "rules" .firstMatch taggedRules (.halt "none") false = .ok ruleSet ∧
      (ruleSet.rules.map Rule.id).Nodup ∧
      (∃ listed ∈ (introspectRuleSet ruleSet).unreachableRules, listed.ruleId = "send") ∧
      ∃ decision, evaluate ruleSet emptyPacket emptyContext = .ok decision ∧
        decision.matchedRule = some "send" := by
  have hsorted : taggedRules.mergeSort (fun a b => a.priority ≤ b.priority) = taggedRules :=
    List.mergeSort_of_pairwise (by decide)
  refine ⟨⟨"rules", .firstMatch, taggedRules, .halt "none", false⟩,
    RuleSet.new_eq_ok_iff.mpr ⟨by decide, nofun, by rw [hsorted]⟩, by decide,
    ⟨⟨"send", .shadowedByAlways "mark"⟩, by decide, rfl⟩, ?_⟩
  exact ⟨⟨.drop, some "send", [("seen", .boolean true)], []⟩, rfl, rfl⟩

end Sample

section Terminal

variable {payload : PacketPayload} {context : EvalContext}

lemma jsonValueEqScalar_congr {x y : ScalarValue} (h : scalarEq x y = true) (v : Json.Value) :
    jsonValueEqScalar v x = jsonValueEqScalar v y := by
  cases x with
  | float x =>
    cases y with
    | float y =>
      have hbeq := F64.beq_congr h
      cases v <;> simp [jsonValueEqScalar, hbeq]
    | _ => cases h
  | null =>
    cases y with
    | null => rfl
    | _ => cases h
  | string x =>
    cases y with
    | string y => rw [eq_of_beq h]
    | _ => cases h
  | integer x =>
    cases y with
    | integer y => rw [eq_of_beq h]
    | _ => cases h
  | boolean x =>
    cases y with
    | boolean y => rw [eq_of_beq h]
    | _ => cases h

lemma evalCondition_of_shadows {earlier later : Condition} (h : Shadows earlier later)
    (hlater : evalCondition payload context later = true) :
    evalCondition payload context earlier = true := by
  rcases h with rfl | ⟨path, value, rfl, hsame⟩
  · rfl
  · cases later with
    | fieldEq path' value' =>
      obtain ⟨hpath, hvalue⟩ := (Bool.and_eq_true _ _).mp hsame
      rw [eq_of_beq hpath]
      simpa [evalCondition, jsonValueEqScalar_congr hvalue] using hlater
    | _ => cases hsame

/-- **If only terminal rules shadow others, the analysis is sound** for every packet. -/
theorem inert_of_terminal_shadows {ruleSet : RuleSet} (hids : (ruleSet.rules.map Rule.id).Nodup)
    (hterminal : ∀ before rule after, ruleSet.rules = before ++ rule :: after →
      ∀ earlier ∈ before, Shadows earlier.condition rule.condition →
        earlier.action.isTerminal = true)
    {listed : UnreachableRule} (hlisted : listed ∈ (introspectRuleSet ruleSet).unreachableRules)
    (packet : PortPacket) (context : EvalContext) :
    Inert ruleSet packet context listed.ruleId := by
  obtain ⟨before, rule, after, hrules, hid, hreason⟩ :=
    mem_detectUnreachable.mp (List.mem_map_of_mem hlisted)
  rw [← hid]
  cases hfires : rule.fires packet.payload context with
  | false => exact inert_of_unmatched hrules hids hfires
  | true =>
    rcases hreason with hnever | ⟨hstrategy, earlier, hearlier, hshadows⟩
    · rw [Rule.fires, hnever] at hfires
      cases hfires
    · refine (inert_iff_decided hstrategy hrules hids hfires).mpr ⟨earlier, hearlier, ?_⟩
      rw [Rule.decides, Bool.and_eq_true]
      exact ⟨evalCondition_of_shadows hshadows hfires,
        hterminal before rule after hrules earlier hearlier hshadows⟩

end Terminal

end Pureflow.Introspection
