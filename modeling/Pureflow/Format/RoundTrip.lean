import Pureflow.Format.WellFormed

/-!
Rule sets written as JSON are read back as they were, when their floats are finite.
-/

namespace Pureflow.Rules

/-- No float that JSON has no number for. -/
def ScalarValue.Finite : ScalarValue → Prop
  | .float x => x.isFinite = true
  | _ => True

def RuleAction.Finite : RuleAction → Prop
  | .tag _ value => value.Finite
  | _ => True

namespace Condition

mutual

/-- The scalars a condition compares with, at any depth. -/
def scalars : Condition → List ScalarValue
  | .fieldEq _ value | .fieldNeq _ value | .fieldGt _ value | .fieldLt _ value | .fieldGte _ value
  | .fieldLte _ value | .tagEq _ value | .executionMetadataEq _ value => [value]
  | .fieldIn _ values => values
  | .and conditions => scalarsAll conditions
  | .or conditions => scalarsAll conditions
  | .not inner => scalars inner
  | _ => []

def scalarsAll : List Condition → List ScalarValue
  | [] => []
  | c :: rest => scalars c ++ scalarsAll rest

end

def Finite (c : Condition) : Prop := ∀ value ∈ c.scalars, value.Finite

lemma mem_scalarsAll {value : ScalarValue} {conditions : List Condition} :
    value ∈ scalarsAll conditions ↔ ∃ c ∈ conditions, value ∈ c.scalars := by
  induction conditions with
  | nil => simp [scalarsAll]
  | cons c rest ih => simp [scalarsAll, ih]

lemma finite_and {conditions : List Condition} :
    (Condition.and conditions).Finite ↔ ∀ c ∈ conditions, c.Finite := by
  simp only [Finite, scalars, mem_scalarsAll]
  exact ⟨fun h c hc value hvalue => h value ⟨c, hc, hvalue⟩,
    fun h value ⟨c, hc, hvalue⟩ => h c hc value hvalue⟩

lemma finite_or {conditions : List Condition} :
    (Condition.or conditions).Finite ↔ ∀ c ∈ conditions, c.Finite := finite_and

end Condition

/-- All floats of a rule set are finite. -/
structure RuleSet.Finite (ruleSet : RuleSet) : Prop where
  conditions : ∀ rule ∈ ruleSet.rules, rule.condition.Finite
  actions : ∀ rule ∈ ruleSet.rules, rule.action.Finite
  defaultAction : ruleSet.defaultAction.Finite

end Pureflow.Rules

namespace Pureflow.Format

open Pureflow.Types Pureflow.Rules Pureflow.Lib Pureflow.Lib.Serde Pureflow.Lib.Json

variable {form : Form}

lemma readIdentifier_value {kind : IdentifierKind} (id : Identifier kind) :
    readIdentifier kind (.string id.value) = some id := by
  simp [readIdentifier, readString, Identifier.new_value, Except.toOption]

lemma readI64_ofInt64 (n : Int64) : readI64 (.ofInt64 n) = some n := by
  unfold Value.ofInt64
  by_cases h : 0 ≤ n
  · have hn : 0 ≤ n.toInt := by simpa using Int64.le_iff_toInt_le.mp h
    have hlt : n.toUInt64.toNat < 2 ^ 63 := by
      rw [Int64.toNat_toUInt64_of_le h, Int64.toNatClampNeg, Int.toNat_lt hn]
      exact n.toInt_lt
    simp only [h, if_true, readI64, Number.asI64, hlt]
    simp
  · simp [h, readI64, Number.asI64]

lemma readF64_ofF64 {x : F64} (h : x.isFinite = true) : readF64 (.ofF64 x) = some x := by
  unfold Float.Model.isFinite at h
  unfold Value.ofF64
  cases hx : x.unpack with
  | notANumber => simp [hx, Float.Model.UnpackedFloat.isFinite] at h
  | infinity s => simp [hx, Float.Model.UnpackedFloat.isFinite] at h
  | zero s => rfl
  | finite s m e hm => rfl

lemma readScalar_scalarValue {value : ScalarValue} (h : value.Finite) :
    readScalar (scalarValue value) = some value := by
  cases value with
  | string s => rfl
  | integer n =>
    calc readScalar (scalarValue (.integer n))
        = (readI64 (.ofInt64 n)).map .integer := rfl
      _ = some (.integer n) := by rw [readI64_ofInt64]; rfl
  | float x =>
    calc readScalar (scalarValue (.float x))
        = (readF64 (.ofF64 x)).map .float := rfl
      _ = some (.float x) := by rw [readF64_ofF64 h]; rfl
  | boolean b => rfl
  | null => rfl

lemma readList_scalars {values : List ScalarValue} (h : ∀ value ∈ values, value.Finite) :
    readList readScalar (.array (values.map scalarValue)) = some values := by
  rw [readList, Result.mapM_eq_some, List.forall₂_map_left_iff]
  exact List.forall₂_same.mpr fun value hvalue => readScalar_scalarValue (h value hvalue)

lemma readAction_actionValue {action : RuleAction} (h : action.Finite) :
    readAction form (actionValue action) = some action := by
  cases action with
  | route port =>
    calc readAction form (actionValue (.route port))
        = (readIdentifier .port (.string port.value)).map .route := rfl
      _ = some (.route port) := by rw [readIdentifier_value]; rfl
  | drop => rfl
  | deadLetter reason => rfl
  | tag key value =>
    calc readAction form (actionValue (.tag key value))
        = (readScalar (scalarValue value)).bind fun v => some (.tag key v) := rfl
      _ = some (.tag key value) := by rw [readScalar_scalarValue h]; rfl
  | halt message => rfl

lemma readConditions_eq_mapM (items : List Value) :
    readConditions form items = items.mapM (readCondition form) := by
  induction items with
  | nil => rfl
  | cons v rest ih => rw [readConditions, ih, List.mapM_cons]

lemma conditionValues_eq_map (conditions : List Condition) :
    conditionValues conditions = conditions.map conditionValue := by
  induction conditions with
  | nil => rfl
  | cons c rest ih => rw [conditionValues, ih, List.map_cons]

lemma readConditions_values (form : Form) {conditions : List Condition}
    (h : ∀ c ∈ conditions, readCondition form (conditionValue c) = some c) :
    readConditions form (conditionValues conditions) = some conditions := by
  rw [readConditions_eq_mapM, conditionValues_eq_map, Result.mapM_eq_some,
    List.forall₂_map_left_iff]
  exact List.forall₂_same.mpr h

section Variants

variable {α β γ : Type} {name name₁ name₂ : String} {read₁ : Value → Option α}
  {read₂ : Value → Option β} {v₁ v₂ : Value} {a : α} {b : β}

lemma variant₁_object {make : α → γ} (h₁ : read₁ v₁ = some a) :
    variant₁ form name read₁ make (some (.object [(name, v₁)])) = some (make a) := by
  simp [variant₁, isVariantRecord, isRecord, field, member, entry, h₁]

lemma variant₂_object {make : α → β → γ} (hne : name₁ ≠ name₂) (h₁ : read₁ v₁ = some a)
    (h₂ : read₂ v₂ = some b) :
    variant₂ form name₁ read₁ name₂ read₂ make (some (.object [(name₁, v₁), (name₂, v₂)])) =
      some (make a b) := by
  simp [variant₂, isVariantRecord, isRecord, field, member, entry, h₁, h₂, hne, hne.symm]

end Variants

lemma readPathScalar (form : Form) (make : FieldPath → ScalarValue → Condition) (path : FieldPath)
    {value : ScalarValue} (h : value.Finite) :
    variant₂ form "path" readFieldPath "value" readScalar make
      (some (.object [("path", .string path.value), ("value", scalarValue value)])) =
        some (make path value) :=
  variant₂_object (by decide) rfl (readScalar_scalarValue h)

lemma readKeyScalar (form : Form) (make : String → ScalarValue → Condition) (key : String)
    {value : ScalarValue} (h : value.Finite) :
    variant₂ form "key" readString "value" readScalar make
      (some (.object [("key", .string key), ("value", scalarValue value)])) =
        some (make key value) :=
  variant₂_object (by decide) rfl (readScalar_scalarValue h)

lemma readCondition_leaf {c : Condition} (hleaf : c.isLeaf = true) (h : c.Finite) :
    readCondition form (conditionValue c) = some c := by
  cases c with
  | fieldEq path value => exact readPathScalar form .fieldEq path (h value List.mem_cons_self)
  | fieldNeq path value => exact readPathScalar form .fieldNeq path (h value List.mem_cons_self)
  | fieldGt path value => exact readPathScalar form .fieldGt path (h value List.mem_cons_self)
  | fieldLt path value => exact readPathScalar form .fieldLt path (h value List.mem_cons_self)
  | fieldGte path value => exact readPathScalar form .fieldGte path (h value List.mem_cons_self)
  | fieldLte path value => exact readPathScalar form .fieldLte path (h value List.mem_cons_self)
  | fieldIn path values =>
    have hvalues : readList readScalar (.array (values.map scalarValue)) = some values :=
      readList_scalars h
    have hread : variant₂ form "path" readFieldPath "values" (readList readScalar) Condition.fieldIn
        (some (.object [("path", .string path.value),
          ("values", .array (values.map scalarValue))])) = some (.fieldIn path values) :=
      variant₂_object (by decide) rfl hvalues
    exact hread
  | tagEq key value => exact readKeyScalar form .tagEq key (h value List.mem_cons_self)
  | executionMetadataEq key value =>
    exact readKeyScalar form .executionMetadataEq key (h value List.mem_cons_self)
  | sourceNode nodeId =>
    have hread : variant₁ form "node_id" (readIdentifier .node) Condition.sourceNode
        (some (.object [("node_id", .string nodeId.value)])) = some (.sourceNode nodeId) :=
      variant₁_object (readIdentifier_value nodeId)
    exact hread
  | arrivedOnPort portId =>
    have hread : variant₁ form "port_id" (readIdentifier .port) Condition.arrivedOnPort
        (some (.object [("port_id", .string portId.value)])) = some (.arrivedOnPort portId) :=
      variant₁_object (readIdentifier_value portId)
    exact hread
  | workflowIs workflowId =>
    have hread : variant₁ form "workflow_id" (readIdentifier .workflow) Condition.workflowIs
        (some (.object [("workflow_id", .string workflowId.value)])) =
          some (.workflowIs workflowId) :=
      variant₁_object (readIdentifier_value workflowId)
    exact hread
  | hopCountGt n =>
    have hread : variant₁ form "n" readU32 Condition.hopCountGt (some (.object [("n", u32Value n)])) =
        some (.hopCountGt n) := variant₁_object (readU32_u32Value n)
    exact hread
  | hopCountLte n =>
    have hread : variant₁ form "n" readU32 Condition.hopCountLte (some (.object [("n", u32Value n)])) =
        some (.hopCountLte n) := variant₁_object (readU32_u32Value n)
    exact hread
  | fieldMatches path pattern => rfl
  | fieldExists path => rfl
  | fieldAbsent path => rfl
  | tagExists key => rfl
  | tagAbsent key => rfl
  | always => rfl
  | never => rfl
  | and conditions => cases hleaf
  | or conditions => cases hleaf
  | not inner => cases hleaf

lemma readCondition_conditionValue {c : Condition} (h : c.Finite) :
    readCondition form (conditionValue c) = some c := by
  induction c using Condition.induction with
  | leaf c hleaf => exact readCondition_leaf hleaf h
  | and conditions ih =>
    have hread := readConditions_values form fun c hc =>
      ih c hc (Condition.finite_and.mp h c hc)
    calc readCondition form (conditionValue (.and conditions))
        = (readConditions form (conditionValues conditions)).map .and := rfl
      _ = some (.and conditions) := by rw [hread]; rfl
  | or conditions ih =>
    have hread := readConditions_values form fun c hc =>
      ih c hc (Condition.finite_or.mp h c hc)
    calc readCondition form (conditionValue (.or conditions))
        = (readConditions form (conditionValues conditions)).map .or := rfl
      _ = some (.or conditions) := by rw [hread]; rfl
  | not inner ih =>
    calc readCondition form (conditionValue (.not inner))
        = (readCondition form (conditionValue inner)).map .not := rfl
      _ = some (.not inner) := by rw [ih h]; rfl

lemma readStrategy_strategyValue (strategy : EvaluationStrategy) :
    readStrategy (strategyValue strategy) = some strategy := by
  cases strategy <;> rfl

lemma readRule_ruleValue {rule : Rule} (hcondition : rule.condition.Finite)
    (haction : rule.action.Finite) : readRule form (ruleValue rule) = some rule := by
  have hid : field ruleFields "id" readString (ruleValue rule) = some rule.id := rfl
  have hc : field ruleFields "condition" (readCondition form) (ruleValue rule) =
      some rule.condition := readCondition_conditionValue hcondition
  have ha : field ruleFields "action" (readAction form) (ruleValue rule) = some rule.action :=
    readAction_actionValue haction
  have hp : field ruleFields "priority" readU32 (ruleValue rule) = some rule.priority :=
    readU32_u32Value rule.priority
  have hd : field ruleFields "description" readString (ruleValue rule) = some rule.description :=
    rfl
  have hrecord : isRecord ruleFields (ruleValue rule) = true := rfl
  simp only [readRule, hrecord, guard_true, hid, hc, ha, hp, hd, Option.bind_eq_bind,
    Option.bind_some, Option.pure_def]

/-- **Rule sets round trip**: what is written of a rule set with finite floats is read as it. -/
theorem readRuleSet_ruleSetValue {ruleSet : RuleSet} (h : ruleSet.Finite) :
    readRuleSet form (ruleSetValue ruleSet) = some ruleSet := by
  have hid : field ruleSetFields "id" readString (ruleSetValue ruleSet) = some ruleSet.id := rfl
  have hs : field ruleSetFields "strategy" readStrategy (ruleSetValue ruleSet) =
      some ruleSet.strategy := readStrategy_strategyValue ruleSet.strategy
  have hr : field ruleSetFields "rules" (readList (readRule form)) (ruleSetValue ruleSet) =
      some ruleSet.rules := by
    have hrules : (ruleSet.rules.map ruleValue).mapM (readRule form) = some ruleSet.rules := by
      rw [Result.mapM_eq_some, List.forall₂_map_left_iff]
      exact List.forall₂_same.mpr fun rule hrule =>
        readRule_ruleValue (h.conditions rule hrule) (h.actions rule hrule)
    exact hrules
  have hd : field ruleSetFields "default_action" (readAction form) (ruleSetValue ruleSet) =
      some ruleSet.defaultAction := readAction_actionValue h.defaultAction
  have ht : field ruleSetFields "trace_conditions" readBool (ruleSetValue ruleSet) =
      some ruleSet.traceConditions := rfl
  have hrecord : isRecord ruleSetFields (ruleSetValue ruleSet) = true := rfl
  simp only [readRuleSet, hrecord, guard_true, hid, hs, hr, hd, ht, Option.bind_eq_bind,
    Option.bind_some, Option.pure_def]

end Pureflow.Format
