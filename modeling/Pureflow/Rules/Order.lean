import Pureflow.Rules.Rule

/-!
The order in which rules count: that of their priorities, and where these are the same, the order in
which the rules were given. The constructor of rule sets puts them in it.
-/

namespace Pureflow.Rules

open Pureflow.Lib

/-- The rules in the order they count: ascending by priority, ties as they were given. -/
structure EvaluationOrder (rules order : List Rule) : Prop where
  perm : order.Perm rules
  ascending : order.Pairwise (·.priority ≤ ·.priority)
  ties : ∀ priority, order.filter (·.priority = priority) = rules.filter (·.priority = priority)

section Order

lemma eq_of_ties {a b : List Rule} (ha : a.Pairwise (·.priority ≤ ·.priority))
    (hb : b.Pairwise (·.priority ≤ ·.priority))
    (h : ∀ priority, a.filter (·.priority = priority) = b.filter (·.priority = priority)) :
    a = b := by
  have hmem (r : Rule) : r ∈ a ↔ r ∈ b := by
    have hr := congrArg (r ∈ ·) (h r.priority)
    simpa using hr
  induction a generalizing b with
  | nil =>
    refine (List.eq_nil_iff_forall_not_mem.mpr fun r hr => ?_).symm
    exact absurd ((hmem r).mpr hr) List.not_mem_nil
  | cons x a ih =>
    cases b with
    | nil => exact absurd ((hmem x).mp List.mem_cons_self) List.not_mem_nil
    | cons y b =>
      rw [List.pairwise_cons] at ha hb
      -- the least priorities agree, and with them the heads
      have hxy : x.priority = y.priority := by
        have hle : x.priority ≤ y.priority := by
          rcases List.mem_cons.mp ((hmem y).mpr List.mem_cons_self) with rfl | hy
          · exact UInt32.le_refl _
          · exact ha.1 y hy
        have hge : y.priority ≤ x.priority := by
          rcases List.mem_cons.mp ((hmem x).mp List.mem_cons_self) with rfl | hx
          · exact UInt32.le_refl _
          · exact hb.1 x hx
        exact UInt32.le_antisymm hle hge
      have hhead := h x.priority
      rw [List.filter_cons_of_pos (by simp), List.filter_cons_of_pos (by simp [hxy]),
        List.cons.injEq] at hhead
      obtain ⟨rfl, htail⟩ := hhead
      have hties : ∀ priority,
          a.filter (·.priority = priority) = b.filter (·.priority = priority) := by
        intro priority
        by_cases hp : x.priority = priority
        · rw [← hp]
          exact htail
        · simpa [hp] using h priority
      have hrest (r : Rule) : r ∈ a ↔ r ∈ b := by
        have hr := congrArg (r ∈ ·) (hties r.priority)
        simpa using hr
      rw [ih ha.2 hb.2 hties hrest]

lemma EvaluationOrder.unique {rules order other : List Rule} (h : EvaluationOrder rules order)
    (hother : EvaluationOrder rules other) : other = order :=
  eq_of_ties hother.ascending h.ascending fun priority =>
    (hother.ties priority).trans (h.ties priority).symm

lemma evaluationOrder_mergeSort (rules : List Rule) :
    EvaluationOrder rules (rules.mergeSort fun a b => a.priority ≤ b.priority) := by
  let le : Rule → Rule → Bool := fun a b => a.priority ≤ b.priority
  have htrans : ∀ a b c : Rule, le a b = true → le b c = true → le a c = true := by
    intro a b c hab hbc
    simp only [le, decide_eq_true_eq] at hab hbc ⊢
    exact UInt32.le_trans hab hbc
  have htotal : ∀ a b : Rule, (le a b || le b a) = true := by
    intro a b
    simpa [le] using UInt32.le_total a.priority b.priority
  have hperm : (rules.mergeSort le).Perm rules := List.mergeSort_perm rules le
  refine ⟨hperm, ?_, fun priority => ?_⟩
  · simpa [le] using List.pairwise_mergeSort htrans htotal rules
  · -- the rules of one priority are sorted among themselves, and stay in their order
    have hties : (rules.filter (·.priority = priority)).Pairwise fun a b => le a b = true := by
      refine List.pairwise_of_forall_mem_list fun a ha b hb => ?_
      simp only [List.mem_filter, decide_eq_true_eq] at ha hb
      simp [le, ha.2, hb.2]
    have hsub := (List.sublist_mergeSort htrans htotal hties List.filter_sublist).filter
      (·.priority = priority)
    simp only [List.filter_filter, Bool.and_self] at hsub
    exact (hsub.eq_of_length (hperm.filter _).length_eq.symm).symm

lemma evaluationOrder_perm {rules rules' order : List Rule} (hperm : rules'.Perm rules)
    (hdistinct : (rules.map Rule.priority).Nodup) (h : EvaluationOrder rules order) :
    EvaluationOrder rules' order := by
  refine ⟨h.perm.trans hperm.symm, h.ascending, fun priority => (h.ties priority).trans ?_⟩
  have hfilter := hperm.symm.filter (·.priority = priority)
  have hone : (rules.filter (·.priority = priority)).length ≤ 1 := by
    have hcount := List.nodup_iff_count_le_one.mp hdistinct priority
    rw [List.count, List.countP_map, List.countP_eq_length_filter] at hcount
    exact hcount
  match hrules : rules.filter (·.priority = priority) with
  | [] =>
    rw [hrules] at hfilter ⊢
    exact hfilter.symm.eq_nil.symm
  | [rule] =>
    rw [hrules] at hfilter ⊢
    exact (List.perm_singleton.mp hfilter.symm).symm
  | _ :: _ :: _ =>
    rw [hrules] at hone
    simp at hone

end Order

section Construction

lemma rejectTerminalActions_ok {rules : List Rule} :
    rejectTerminalActions rules = .ok () ↔ ∀ rule ∈ rules, rule.action.isTerminal = false := by
  induction rules with
  | nil => simp [rejectTerminalActions]
  | cons rule rest ih =>
    unfold rejectTerminalActions
    split
    · next h => simp [h]
    · next h => simp [ih, h]

/-- A rule set is made if it has an id and, where all matches are to apply, no terminal rule. -/
lemma RuleSet.new_eq_ok_iff {id : String} {strategy : EvaluationStrategy} {rules : List Rule}
    {defaultAction : RuleAction} {traceConditions : Bool} {ruleSet : RuleSet} :
    RuleSet.new id strategy rules defaultAction traceConditions = .ok ruleSet ↔
      Text.isBlank id = false ∧
      (strategy = .allMatches → ∀ rule ∈ rules, rule.action.isTerminal = false) ∧
      ruleSet = ⟨id, strategy, rules.mergeSort fun a b => a.priority ≤ b.priority, defaultAction,
        traceConditions⟩ := by
  unfold RuleSet.new
  rw [← rejectTerminalActions_ok]
  cases Text.isBlank id with
  | true => simp [throw, throwThe, MonadExceptOf.throw, bind, Except.bind]
  | false =>
    by_cases hstrategy : strategy = .allMatches
    · cases hreject : rejectTerminalActions rules with
      | error err => simp [hstrategy, bind, Except.bind]
      | ok u => simp [hstrategy, bind, Except.bind, pure, Except.pure, eq_comm]
    · simp [hstrategy, pure, Except.pure, eq_comm]

end Construction

end Pureflow.Rules
