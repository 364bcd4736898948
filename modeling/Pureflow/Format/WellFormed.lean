import Pureflow.Format.RuleJson
import Pureflow.Lib.Result
import Pureflow.Rules.Order

/-!
Well-formed rule sets, and the documents that are read as such.

Reading makes none of the checks of the constructors, so a rule set that is read is as well formed
as its document.
-/

namespace Pureflow.Rules

open Pureflow.Lib

namespace Condition

mutual

/-- The field paths of a condition, at any depth. -/
def paths : Condition → List FieldPath
  | .fieldEq path _ | .fieldNeq path _ | .fieldGt path _ | .fieldLt path _ | .fieldGte path _
  | .fieldLte path _ | .fieldIn path _ | .fieldExists path | .fieldAbsent path
  | .fieldMatches path _ => [path]
  | .and conditions => pathsAll conditions
  | .or conditions => pathsAll conditions
  | .not inner => paths inner
  | _ => []

def pathsAll : List Condition → List FieldPath
  | [] => []
  | c :: rest => paths c ++ pathsAll rest

end

/-- No field path is blank. -/
def Sound (c : Condition) : Prop := ∀ path ∈ c.paths, Text.isBlank path.value = false

lemma mem_pathsAll {path : FieldPath} {conditions : List Condition} :
    path ∈ pathsAll conditions ↔ ∃ c ∈ conditions, path ∈ c.paths := by
  induction conditions with
  | nil => simp [pathsAll]
  | cons c rest ih => simp [pathsAll, ih]

lemma sound_and {conditions : List Condition} :
    (Condition.and conditions).Sound ↔ ∀ c ∈ conditions, c.Sound := by
  simp only [Sound, paths, mem_pathsAll]
  exact ⟨fun h c hc path hpath => h path ⟨c, hc, hpath⟩,
    fun h path ⟨c, hc, hpath⟩ => h c hc path hpath⟩

lemma sound_or {conditions : List Condition} :
    (Condition.or conditions).Sound ↔ ∀ c ∈ conditions, c.Sound := sound_and

lemma sound_not {inner : Condition} : (Condition.not inner).Sound ↔ inner.Sound := Iff.rfl

end Condition

/-- Everything the checked constructors enforce. -/
structure RuleSet.WellFormed (ruleSet : RuleSet) : Prop where
  id : Text.isBlank ruleSet.id = false
  ruleIds : ∀ rule ∈ ruleSet.rules, Text.isBlank rule.id = false
  paths : ∀ rule ∈ ruleSet.rules, rule.condition.Sound
  ascending : ruleSet.rules.Pairwise (·.priority ≤ ·.priority)
  tagsOnly : ruleSet.strategy = .allMatches → ∀ rule ∈ ruleSet.rules, rule.action.isTerminal = false

lemma Rule.new_eq_self (rule : Rule) :
    Rule.new rule.id rule.condition rule.action rule.priority rule.description = .ok rule ↔
      Text.isBlank rule.id = false := by
  unfold Rule.new
  cases h : Text.isBlank rule.id with
  | true => simp
  | false => simp

lemma FieldPath.new_eq_self (path : FieldPath) :
    FieldPath.new path.value = .ok path ↔ Text.isBlank path.value = false := by
  unfold FieldPath.new
  cases h : Text.isBlank path.value with
  | true => simp
  | false => simp

lemma mergeSort_eq_self {rules : List Rule} :
    rules = rules.mergeSort (fun a b => a.priority ≤ b.priority) ↔
      rules.Pairwise (·.priority ≤ ·.priority) := by
  refine ⟨fun h => ?_, fun h => ?_⟩
  · rw [h]
    exact (evaluationOrder_mergeSort rules).ascending
  · exact (evaluationOrder_mergeSort rules).unique ⟨.refl _, h, fun _ => rfl⟩

lemma RuleSet.new_eq_self (ruleSet : RuleSet) :
    RuleSet.new ruleSet.id ruleSet.strategy ruleSet.rules ruleSet.defaultAction
        ruleSet.traceConditions = .ok ruleSet ↔
      Text.isBlank ruleSet.id = false ∧ ruleSet.rules.Pairwise (·.priority ≤ ·.priority) ∧
      (ruleSet.strategy = .allMatches → ∀ rule ∈ ruleSet.rules, rule.action.isTerminal = false) := by
  obtain ⟨id, strategy, rules, defaultAction, traceConditions⟩ := ruleSet
  rw [RuleSet.new_eq_ok_iff]
  simp only [RuleSet.mk.injEq, true_and, and_true, mergeSort_eq_self]
  tauto

/-- **The constructors enforce well-formedness**: a rule set is well formed exactly if they give
it back, its rules and its paths unchanged. -/
theorem RuleSet.wellFormed_iff_new (ruleSet : RuleSet) :
    ruleSet.WellFormed ↔
      RuleSet.new ruleSet.id ruleSet.strategy ruleSet.rules ruleSet.defaultAction
        ruleSet.traceConditions = .ok ruleSet ∧
      ∀ rule ∈ ruleSet.rules,
        Rule.new rule.id rule.condition rule.action rule.priority rule.description = .ok rule ∧
        ∀ path ∈ rule.condition.paths, FieldPath.new path.value = .ok path := by
  simp only [RuleSet.new_eq_self, Rule.new_eq_self, FieldPath.new_eq_self]
  constructor
  · intro h
    exact ⟨⟨h.id, h.ascending, h.tagsOnly⟩, fun rule hrule => ⟨h.ruleIds rule hrule, h.paths rule hrule⟩⟩
  · rintro ⟨⟨hid, hascending, htags⟩, hrules⟩
    exact ⟨hid, fun rule hrule => (hrules rule hrule).1, fun rule hrule => (hrules rule hrule).2,
      hascending, htags⟩

end Pureflow.Rules

namespace Pureflow.Format

open Pureflow.Types Pureflow.Rules Pureflow.Lib Pureflow.Lib.Serde Pureflow.Lib.Json

section Documents

/-- A text that is not blank. -/
def nonblank : Option Value → Bool
  | some (.string s) => !Text.isBlank s
  | _ => false

/-- The variants of conditions with a field path. -/
def pathTags : List String :=
  ["FieldEq", "FieldNeq", "FieldGt", "FieldLt", "FieldGte", "FieldLte", "FieldIn", "FieldExists",
    "FieldAbsent", "FieldMatches"]

def leafDocument (tag : String) (data : Value) : Bool :=
  if tag ∈ pathTags then nonblank (member ["path"] "path" data) else true

mutual

/-- No field path in the document of a condition is blank, at any depth. -/
def conditionDocument : Value → Bool
  | .object [(tag, data)] =>
    match tag, data with
    | "And", .array items => conditionDocuments items
    | "Or", .array items => conditionDocuments items
    | "Not", inner => conditionDocument inner
    | tag, data => leafDocument tag data
  | _ => true
termination_by structural v => v

def conditionDocuments : List Value → Bool
  | [] => true
  | v :: rest => conditionDocument v && conditionDocuments rest
termination_by structural items => items

end

def rulesOf (v : Value) : List Value :=
  match member ruleSetFields "rules" v with
  | some (.array rules) => rules
  | _ => []

def strategyOf (v : Value) : Option String := (member ruleSetFields "strategy" v).bind variantName

def actionOf (rule : Value) : Option String := (member ruleFields "action" rule).bind variantName

def priorityOf (rule : Value) : Option UInt32 := (member ruleFields "priority" rule).bind readU32

/-- The document of a well-formed rule set. -/
structure WellFormedDocument (v : Value) : Prop where
  id : nonblank (member ruleSetFields "id" v) = true
  ruleIds : ∀ rule ∈ rulesOf v, nonblank (member ruleFields "id" rule) = true
  paths : ∀ rule ∈ rulesOf v, ∀ condition ∈ member ruleFields "condition" rule,
    conditionDocument condition = true
  ascending : (rulesOf v).Pairwise fun a b =>
    ∀ m ∈ priorityOf a, ∀ n ∈ priorityOf b, m ≤ n
  tagsOnly : strategyOf v = some "AllMatches" → ∀ rule ∈ rulesOf v, actionOf rule = some "Tag"

end Documents

section Conditions

variable {form : Form} {c : Condition} {tag : String} {data : Value}

lemma sound_of_paths (h : c.paths = []) : c.Sound := by
  simp [Condition.Sound, h]

lemma sound_path {path : FieldPath} {w : Value} (hpaths : c.paths = [path])
    (hw : member ["path"] "path" data = some w) (hread : readFieldPath w = some path) :
    c.Sound ↔ nonblank (member ["path"] "path" data) = true := by
  obtain ⟨s, hs, rfl⟩ := Option.map_eq_some_iff.mp hread
  cases w with
  | string text =>
    obtain rfl := Option.some.inj hs
    simp [Condition.Sound, hpaths, hw, nonblank]
  | _ => cases hs

lemma sound_variant₁ {make : FieldPath → Condition} (hpaths : ∀ p, (make p).paths = [p])
    (h : variant₁ form "path" readFieldPath make (some data) = some c) :
    c.Sound ↔ nonblank (member ["path"] "path" data) = true := by
  obtain ⟨v, w, path, hv, hw, hread, rfl⟩ := variant₁_eq_some h
  obtain rfl := Option.some.inj hv
  exact sound_path (hpaths path) hw hread

lemma sound_variant₂ {β : Type} {name : String} {read₂ : Value → Option β}
    {make : FieldPath → β → Condition} (hpaths : ∀ p b, (make p b).paths = [p])
    (h : variant₂ form "path" readFieldPath name read₂ make (some data) = some c) :
    c.Sound ↔ nonblank (member ["path"] "path" data) = true := by
  obtain ⟨v, w, path, b, hv, hw, hread, rfl⟩ := variant₂_eq_some h
  obtain rfl := Option.some.inj hv
  exact sound_path (hpaths path b) hw hread

lemma sound_other₁ {α : Type} {name : String} {read : Value → Option α} {make : α → Condition}
    {data : Option Value} (hpaths : ∀ a, (make a).paths = [])
    (h : variant₁ form name read make data = some c) : c.Sound := by
  obtain ⟨-, -, a, -, -, -, rfl⟩ := variant₁_eq_some h
  exact sound_of_paths (hpaths a)

lemma sound_other₂ {α β : Type} {name₁ name₂ : String} {read₁ : Value → Option α}
    {read₂ : Value → Option β} {make : α → β → Condition} {data : Option Value}
    (hpaths : ∀ a b, (make a b).paths = [])
    (h : variant₂ form name₁ read₁ name₂ read₂ make data = some c) : c.Sound := by
  obtain ⟨-, -, a, b, -, -, -, rfl⟩ := variant₂_eq_some h
  exact sound_of_paths (hpaths a b)

lemma sound_unit {a : Condition} {data : Option Value} (hpaths : a.paths = [])
    (h : unitVariant a data = some c) : c.Sound := by
  rw [unitVariant_eq_some h]
  exact sound_of_paths hpaths

lemma leafDocument_path (htag : tag ∈ pathTags) :
    leafDocument tag data = nonblank (member ["path"] "path" data) := if_pos htag

lemma leafDocument_other (htag : tag ∉ pathTags) : leafDocument tag data = true := if_neg htag

lemma conditionVariants_sound : ∀ variant ∈ conditionVariants form, ∀ data c,
    variant.2 (some data) = some c → (c.Sound ↔ leafDocument variant.1 data = true) := by
  have path₁ {tag : String} {make : FieldPath → Condition} (htag : tag ∈ pathTags)
      (hpaths : ∀ p, (make p).paths = [p]) (data : Value) (c : Condition)
      (h : variant₁ form "path" readFieldPath make (some data) = some c) :
      c.Sound ↔ leafDocument tag data = true := by
    rw [leafDocument_path htag]
    exact sound_variant₁ hpaths h
  have path₂ {β : Type} {tag name : String} {read₂ : Value → Option β}
      {make : FieldPath → β → Condition} (htag : tag ∈ pathTags)
      (hpaths : ∀ p b, (make p b).paths = [p]) (data : Value) (c : Condition)
      (h : variant₂ form "path" readFieldPath name read₂ make (some data) = some c) :
      c.Sound ↔ leafDocument tag data = true := by
    rw [leafDocument_path htag]
    exact sound_variant₂ hpaths h
  have other {tag : String} {read : Option Value → Option Condition} (htag : tag ∉ pathTags)
      (hsound : ∀ data c, read data = some c → c.Sound) (data : Value) (c : Condition)
      (h : read (some data) = some c) : c.Sound ↔ leafDocument tag data = true :=
    iff_of_true (hsound _ c h) (leafDocument_other htag)
  simp only [conditionVariants, List.forall_mem_cons, List.not_mem_nil, false_imp_iff, implies_true,
    and_true]
  refine ⟨?_, ?_, ?_, ?_, ?_, ?_, ?_, ?_, ?_, ?_, ?_, ?_, ?_, ?_, ?_, ?_, ?_, ?_, ?_, ?_, ?_⟩
  · exact path₂ (by decide) fun _ _ => rfl
  · exact path₂ (by decide) fun _ _ => rfl
  · exact path₂ (by decide) fun _ _ => rfl
  · exact path₂ (by decide) fun _ _ => rfl
  · exact path₂ (by decide) fun _ _ => rfl
  · exact path₂ (by decide) fun _ _ => rfl
  · exact path₂ (by decide) fun _ _ => rfl
  · exact path₁ (by decide) fun _ => rfl
  · exact path₁ (by decide) fun _ => rfl
  · exact path₂ (by decide) fun _ _ => rfl
  · exact other (by decide) fun _ _ => sound_other₂ fun _ _ => rfl
  · exact other (by decide) fun _ _ => sound_other₁ fun _ => rfl
  · exact other (by decide) fun _ _ => sound_other₁ fun _ => rfl
  · exact other (by decide) fun _ _ => sound_other₁ fun _ => rfl
  · exact other (by decide) fun _ _ => sound_other₁ fun _ => rfl
  · exact other (by decide) fun _ _ => sound_other₁ fun _ => rfl
  · exact other (by decide) fun _ _ => sound_other₁ fun _ => rfl
  · exact other (by decide) fun _ _ => sound_other₁ fun _ => rfl
  · exact other (by decide) fun _ _ => sound_other₂ fun _ _ => rfl
  · exact other (by decide) fun _ _ => sound_unit rfl
  · exact other (by decide) fun _ _ => sound_unit rfl

lemma conditionVariants_unit : ∀ variant ∈ conditionVariants form, ∀ c,
    variant.2 none = some c → c.Sound := by
  simp only [conditionVariants, List.forall_mem_cons, variant₁, variant₂, Option.bind_eq_bind,
    Option.bind_none, reduceCtorEq, false_imp_iff, implies_true, true_and, List.not_mem_nil, and_true]
  exact ⟨fun _ => sound_unit rfl, fun _ => sound_unit rfl⟩

/-- **A condition is as sound as its document.** -/
theorem readCondition_sound {v : Value} (h : readCondition form v = some c) :
    c.Sound ↔ conditionDocument v = true := by
  -- along the recursion of the reader, for lists of conditions too
  refine readCondition.induct
    (fun v => ∀ c, readCondition form v = some c → (c.Sound ↔ conditionDocument v = true))
    (fun items => ∀ cs, readConditions form items = some cs →
      ((∀ c ∈ cs, c.Sound) ↔ conditionDocuments items = true))
    ?string ?and ?or ?not ?leaf ?none ?nil ?cons v c h
  case string =>
    intro tag c h
    obtain ⟨read, hmem, hread⟩ := Variants.mem_of_read h
    exact iff_of_true (conditionVariants_unit _ hmem c hread) rfl
  case and =>
    intro items ih c h
    obtain ⟨cs, hcs, rfl⟩ := Option.map_eq_some_iff.mp h
    exact Condition.sound_and.trans (ih cs hcs)
  case or =>
    intro items ih c h
    obtain ⟨cs, hcs, rfl⟩ := Option.map_eq_some_iff.mp h
    exact Condition.sound_or.trans (ih cs hcs)
  case not =>
    intro inner ih c h
    obtain ⟨inner, hinner, rfl⟩ := Option.map_eq_some_iff.mp h
    exact Condition.sound_not.trans (ih inner hinner)
  case leaf =>
    intro tag data hand hor hnot c h
    rw [readCondition] at h
    · obtain ⟨read, hmem, hread⟩ := Variants.mem_of_read h
      rw [conditionDocument]
      · exact conditionVariants_sound _ hmem data c hread
      all_goals assumption
    all_goals assumption
  case none =>
    intro v hstring hobject c h
    rw [readCondition] at h
    · cases h
    all_goals assumption
  case nil =>
    intro cs h
    cases h
    simp [conditionDocuments]
  case cons =>
    intro v rest ih ihs cs h
    simp only [readConditions, Option.bind_eq_bind, Option.bind_eq_some_iff, Option.pure_def,
      Option.some.injEq] at h
    obtain ⟨c, hc, more, hmore, rfl⟩ := h
    rw [List.forall_mem_cons, conditionDocuments, Bool.and_eq_true, ih c hc, ihs more hmore]

lemma leaf_path {path : FieldPath} (htag : tag ∈ pathTags) (hpaths : c.paths = [path])
    (hmember : member ["path"] "path" data = some (.string path.value)) :
    leafDocument tag data = true ↔ c.Sound := by
  rw [leafDocument_path htag, hmember]
  simp [nonblank, Condition.Sound, hpaths]

lemma leaf_other (htag : tag ∉ pathTags) (hpaths : c.paths = []) :
    leafDocument tag data = true ↔ c.Sound :=
  iff_of_true (leafDocument_other htag) (sound_of_paths hpaths)

lemma conditionValue_leaf (hleaf : c.isLeaf = true) :
    conditionDocument (conditionValue c) = true ↔ c.Sound := by
  cases c with
  | fieldEq path value => exact leaf_path (by decide : "FieldEq" ∈ pathTags) rfl rfl
  | fieldNeq path value => exact leaf_path (by decide : "FieldNeq" ∈ pathTags) rfl rfl
  | fieldGt path value => exact leaf_path (by decide : "FieldGt" ∈ pathTags) rfl rfl
  | fieldLt path value => exact leaf_path (by decide : "FieldLt" ∈ pathTags) rfl rfl
  | fieldGte path value => exact leaf_path (by decide : "FieldGte" ∈ pathTags) rfl rfl
  | fieldLte path value => exact leaf_path (by decide : "FieldLte" ∈ pathTags) rfl rfl
  | fieldIn path values => exact leaf_path (by decide : "FieldIn" ∈ pathTags) rfl rfl
  | fieldExists path => exact leaf_path (by decide : "FieldExists" ∈ pathTags) rfl rfl
  | fieldAbsent path => exact leaf_path (by decide : "FieldAbsent" ∈ pathTags) rfl rfl
  | fieldMatches path pattern => exact leaf_path (by decide : "FieldMatches" ∈ pathTags) rfl rfl
  | tagEq key value => exact leaf_other (by decide : "TagEq" ∉ pathTags) rfl
  | tagExists key => exact leaf_other (by decide : "TagExists" ∉ pathTags) rfl
  | tagAbsent key => exact leaf_other (by decide : "TagAbsent" ∉ pathTags) rfl
  | sourceNode nodeId => exact leaf_other (by decide : "SourceNode" ∉ pathTags) rfl
  | arrivedOnPort portId => exact leaf_other (by decide : "ArrivedOnPort" ∉ pathTags) rfl
  | hopCountGt n => exact leaf_other (by decide : "HopCountGt" ∉ pathTags) rfl
  | hopCountLte n => exact leaf_other (by decide : "HopCountLte" ∉ pathTags) rfl
  | workflowIs workflowId => exact leaf_other (by decide : "WorkflowIs" ∉ pathTags) rfl
  | executionMetadataEq key value =>
    exact leaf_other (by decide : "ExecutionMetadataEq" ∉ pathTags) rfl
  | always => exact iff_of_true rfl (sound_of_paths rfl)
  | never => exact iff_of_true rfl (sound_of_paths rfl)
  | and conditions => cases hleaf
  | or conditions => cases hleaf
  | not inner => cases hleaf

lemma conditionValues_sound {cs : List Condition}
    (ih : ∀ c ∈ cs, (conditionDocument (conditionValue c) = true ↔ c.Sound)) :
    conditionDocuments (conditionValues cs) = true ↔ ∀ c ∈ cs, c.Sound := by
  induction cs with
  | nil => simp [conditionValues, conditionDocuments]
  | cons c cs ihs =>
    rw [List.forall_mem_cons] at ih ⊢
    rw [conditionValues, conditionDocuments, Bool.and_eq_true, ih.1, ihs ih.2]

/-- **What is written of a condition is as sound as it is.** -/
theorem conditionValue_sound (c : Condition) :
    conditionDocument (conditionValue c) = true ↔ c.Sound := by
  induction c using Condition.induction with
  | leaf c hleaf => exact conditionValue_leaf hleaf
  | and cs ih => exact (conditionValues_sound ih).trans Condition.sound_and.symm
  | or cs ih => exact (conditionValues_sound ih).trans Condition.sound_or.symm
  | not c ih => exact ih.trans Condition.sound_not.symm

end Conditions

section RuleSets

variable {form : Form} {v : Value} {rule : Rule} {ruleSet : RuleSet}

/-- What a document says of a rule, as far as the constructors look. -/
structure DescribesRule (v : Value) (rule : Rule) : Prop where
  id : nonblank (member ruleFields "id" v) = true ↔ Text.isBlank rule.id = false
  condition : (∀ condition ∈ member ruleFields "condition" v, conditionDocument condition = true) ↔
    rule.condition.Sound
  action : actionOf v = some "Tag" ↔ rule.action.isTerminal = false
  priority : priorityOf v = some rule.priority

structure DescribesRuleSet (v : Value) (ruleSet : RuleSet) : Prop where
  id : nonblank (member ruleSetFields "id" v) = true ↔ Text.isBlank ruleSet.id = false
  strategy : strategyOf v = some "AllMatches" ↔ ruleSet.strategy = .allMatches
  rules : List.Forall₂ DescribesRule (rulesOf v) ruleSet.rules

/-- **A rule set is as well formed as a document that describes it.** -/
theorem DescribesRuleSet.wellFormed_iff (h : DescribesRuleSet v ruleSet) :
    ruleSet.WellFormed ↔ WellFormedDocument v := by
  have hids := Result.forall_mem_iff (fun _ _ hrule => hrule.id) h.rules
  have hpaths := Result.forall_mem_iff (fun _ _ hrule => hrule.condition) h.rules
  have hactions := Result.forall_mem_iff (fun _ _ hrule => hrule.action) h.rules
  have hascending : (rulesOf v).Pairwise
      (fun a b => ∀ m ∈ priorityOf a, ∀ n ∈ priorityOf b, m ≤ n) ↔
        ruleSet.rules.Pairwise (·.priority ≤ ·.priority) := by
    refine Result.pairwise_iff (fun a rule b rule' ha hb => ?_) h.rules
    simp [ha.priority, hb.priority]
  constructor
  · intro hwf
    refine ⟨h.id.mpr hwf.id, hids.mpr hwf.ruleIds, hpaths.mpr hwf.paths,
      hascending.mpr hwf.ascending, fun hall => ?_⟩
    exact hactions.mpr (hwf.tagsOnly (h.strategy.mp hall))
  · intro hdoc
    refine ⟨h.id.mp hdoc.id, hids.mp hdoc.ruleIds, hpaths.mp hdoc.paths,
      hascending.mp hdoc.ascending, fun hall => ?_⟩
    exact hactions.mp (hdoc.tagsOnly (h.strategy.mpr hall))

lemma nonblank_iff {o : Option Value} {w : Value} {s : String} (ho : o = some w)
    (hs : readString w = some s) : nonblank o = true ↔ Text.isBlank s = false := by
  cases w with
  | string text =>
    obtain rfl := Option.some.inj hs
    simp [ho, nonblank]
  | _ => cases hs

lemma readAction_tag {w : Value} {action : RuleAction} (h : readAction form w = some action) :
    variantName w = some "Tag" ↔ action.isTerminal = false := by
  obtain ⟨tag, data, read, hname, hmem, hread⟩ := readEnum_eq_some h
  rw [hname, Option.some.injEq]
  simp only [actionVariants, List.mem_cons, Prod.mk.injEq, List.not_mem_nil, or_false] at hmem
  rcases hmem with ⟨rfl, rfl⟩ | ⟨rfl, rfl⟩ | ⟨rfl, rfl⟩ | ⟨rfl, rfl⟩ | ⟨rfl, rfl⟩
  · obtain ⟨port, rfl⟩ := newtypeVariant_eq_some hread
    exact iff_of_false (by decide) (by simp [RuleAction.isTerminal])
  · rw [unitVariant_eq_some hread]
    exact iff_of_false (by decide) (by simp [RuleAction.isTerminal])
  · obtain ⟨reason, rfl⟩ := newtypeVariant_eq_some hread
    exact iff_of_false (by decide) (by simp [RuleAction.isTerminal])
  · obtain ⟨-, -, key, value, -, -, -, rfl⟩ := variant₂_eq_some hread
    exact iff_of_true rfl rfl
  · obtain ⟨message, rfl⟩ := newtypeVariant_eq_some hread
    exact iff_of_false (by decide) (by simp [RuleAction.isTerminal])

lemma readStrategy_allMatches {w : Value} {strategy : EvaluationStrategy}
    (h : readStrategy w = some strategy) :
    variantName w = some "AllMatches" ↔ strategy = .allMatches := by
  obtain ⟨tag, data, read, hname, hmem, hread⟩ := readEnum_eq_some h
  rw [hname, Option.some.injEq]
  simp only [strategyVariants, List.mem_cons, Prod.mk.injEq, List.not_mem_nil, or_false] at hmem
  rcases hmem with ⟨rfl, rfl⟩ | ⟨rfl, rfl⟩ | ⟨rfl, rfl⟩
  all_goals
    rw [unitVariant_eq_some hread]
    decide

lemma describes_readRule (h : readRule form v = some rule) : DescribesRule v rule := by
  simp only [readRule, Option.bind_eq_bind, Option.bind_eq_some_iff, field_eq_some, Option.pure_def,
    Option.some.injEq] at h
  obtain ⟨-, -, id, ⟨idDoc, hidDoc, hid⟩, condition, ⟨conditionDoc, hconditionDoc, hcondition⟩,
    action, ⟨actionDoc, hactionDoc, haction⟩, priority, ⟨priorityDoc, hpriorityDoc, hpriority⟩,
    description, -, rfl⟩ := h
  refine ⟨nonblank_iff hidDoc hid, ?_, ?_, ?_⟩
  · simpa [hconditionDoc] using (readCondition_sound hcondition).symm
  · rw [actionOf, hactionDoc]
    exact readAction_tag haction
  · rw [priorityOf, hpriorityDoc]
    exact hpriority

/-- **A document describes the rule set that is read from it.** -/
theorem describes_readRuleSet (h : readRuleSet form v = some ruleSet) :
    DescribesRuleSet v ruleSet := by
  simp only [readRuleSet, Option.bind_eq_bind, Option.bind_eq_some_iff, field_eq_some,
    Option.pure_def, Option.some.injEq] at h
  obtain ⟨-, -, id, ⟨idDoc, hidDoc, hid⟩, strategy, ⟨strategyDoc, hstrategyDoc, hstrategy⟩,
    rules, ⟨rulesDoc, hrulesDoc, hrules⟩, defaultAction, -, traceConditions, -, rfl⟩ := h
  refine ⟨nonblank_iff hidDoc hid, ?_, ?_⟩
  · rw [strategyOf, hstrategyDoc]
    exact readStrategy_allMatches hstrategy
  · cases rulesDoc with
    | array items =>
      rw [rulesOf, hrulesDoc]
      exact (Result.mapM_eq_some.mp hrules).imp fun _ _ => describes_readRule
    | _ => cases hrules

lemma readU32_u32Value (n : UInt32) : readU32 (u32Value n) = some n := by
  have hlt : n.toUInt64.toNat < 2 ^ 32 := by
    rw [UInt32.toNat_toUInt64]
    exact n.toNat_lt
  rw [u32Value, readU32, if_pos hlt, UInt32.toUInt32_toUInt64]

lemma describes_ruleValue (rule : Rule) : DescribesRule (ruleValue rule) rule := by
  have hid : member ruleFields "id" (ruleValue rule) = some (.string rule.id) := rfl
  have hcondition : member ruleFields "condition" (ruleValue rule) =
      some (conditionValue rule.condition) := rfl
  have haction : member ruleFields "action" (ruleValue rule) = some (actionValue rule.action) := rfl
  have hpriority : member ruleFields "priority" (ruleValue rule) = some (u32Value rule.priority) :=
    rfl
  refine ⟨nonblank_iff hid rfl, ?_, ?_, ?_⟩
  · simpa [hcondition] using conditionValue_sound rule.condition
  · rw [actionOf, haction]
    cases rule.action <;> simp [actionValue, tagged, variantName, RuleAction.isTerminal]
  · rw [priorityOf, hpriority]
    exact readU32_u32Value rule.priority

/-- **What is written of a rule set describes it.** -/
theorem describes_ruleSetValue (ruleSet : RuleSet) :
    DescribesRuleSet (ruleSetValue ruleSet) ruleSet := by
  have hid : member ruleSetFields "id" (ruleSetValue ruleSet) = some (.string ruleSet.id) := rfl
  have hstrategy : member ruleSetFields "strategy" (ruleSetValue ruleSet) =
      some (strategyValue ruleSet.strategy) := rfl
  refine ⟨nonblank_iff hid rfl, ?_, ?_⟩
  · rw [strategyOf, hstrategy]
    cases ruleSet.strategy <;> simp [strategyValue, variantName]
  · show List.Forall₂ DescribesRule (ruleSet.rules.map ruleValue) ruleSet.rules
    rw [List.forall₂_map_left_iff]
    exact List.forall₂_same.mpr fun rule _ => describes_ruleValue rule

end RuleSets

end Pureflow.Format
