import Pureflow.Introspection.Rules
import Pureflow.Rules.Leaves

/-!
What the surfaces collected from a condition say about its evaluations.

A surface is a view of the payload and the context. A leaf sees no more than the view of its own
surface, the collected summary marks the surfaces of all the leaves, and so an evaluation may only
change with a view that is marked.
-/

namespace Pureflow.Introspection

open Std Pureflow.Types Pureflow.Core Pureflow.Lib Pureflow.Rules

/-- Return `true` if the condition only uses constant values and never depends on packet content. -/
def ConditionSurfaceSummary.isConstantOnly (summary : ConditionSurfaceSummary) : Bool :=
  summary.constant && !summary.payload && !summary.tag && !summary.provenance &&
    !summary.executionContext

/-- The flag of the summary for a surface; a combinator has none. -/
def ConditionSurfaceSummary.marks (summary : ConditionSurfaceSummary) : ConditionSurface → Bool
  | .payload => summary.payload
  | .tag => summary.tag
  | .provenance => summary.provenance
  | .executionContext => summary.executionContext
  | .constant => summary.constant
  | .combinator => false

section Collected

lemma marks_empty (surface : ConditionSurface) :
    (ConditionSurfaceSummary.marks {} surface) = false := by
  cases surface <;> rfl

lemma marks_markSurface (out : ConditionSurfaceSummary) {surface marked : ConditionSurface}
    (hsurface : surface ≠ .combinator) :
    (markSurface out marked).marks surface = (out.marks surface || surface == marked) := by
  cases surface <;> cases marked <;>
    first | exact absurd rfl hsurface | simp [markSurface, ConditionSurfaceSummary.marks]

lemma marks_combinator (out : ConditionSurfaceSummary) (surface : ConditionSurface) :
    (markSurface out .combinator).marks surface = out.marks surface := rfl

lemma collectSurfacesInner_of_isLeaf (out : ConditionSurfaceSummary) {c : Condition}
    (h : c.isLeaf = true) : collectSurfacesInner out c = markSurface out c.surface := by
  cases c <;> first | rfl | cases h

lemma marks_collectAll {surface : ConditionSurface} {cs : List Condition}
    (h : ∀ c ∈ cs, ∀ out : ConditionSurfaceSummary, (collectSurfacesInner out c).marks surface =
      (out.marks surface || c.leaves.any fun leaf => surface == leaf.surface))
    (out : ConditionSurfaceSummary) :
    (collectSurfacesAll out cs).marks surface =
      (out.marks surface ||
        (cs.flatMap Condition.leaves).any fun leaf => surface == leaf.surface) := by
  induction cs generalizing out with
  | nil => simp [collectSurfacesAll]
  | cons c cs ih =>
    rw [collectSurfacesAll, ih (fun d hd => h d (List.mem_cons_of_mem c hd)),
      h c List.mem_cons_self, List.flatMap_cons, List.any_append, Bool.or_assoc]

lemma marks_collectInner {surface : ConditionSurface} (hsurface : surface ≠ .combinator)
    (c : Condition) (out : ConditionSurfaceSummary) :
    (collectSurfacesInner out c).marks surface =
      (out.marks surface || c.leaves.any fun leaf => surface == leaf.surface) := by
  induction c using Condition.induction generalizing out with
  | leaf c hc =>
    rw [collectSurfacesInner_of_isLeaf out hc, marks_markSurface out hsurface,
      Condition.leaves_of_isLeaf hc]
    simp
  | and cs ih =>
    rw [collectSurfacesInner, marks_collectAll ih, marks_combinator, Condition.leaves_and]
  | or cs ih =>
    rw [collectSurfacesInner, marks_collectAll ih, marks_combinator, Condition.leaves_or]
  | not c ih => rw [collectSurfacesInner, ih, marks_combinator, Condition.leaves_not]

/-- **The summary marks the surfaces of the leaves**, and no others. -/
theorem marks_collectSurfaces {surface : ConditionSurface} (hsurface : surface ≠ .combinator)
    (c : Condition) :
    (collectSurfaces c).marks surface = true ↔ ∃ leaf ∈ c.leaves, leaf.surface = surface := by
  rw [collectSurfaces, marks_collectInner hsurface, marks_empty, Bool.false_or, List.any_eq_true]
  simp only [beq_iff_eq, @eq_comm _ surface]

end Collected

section Views

/-- The two evaluations show the same to a condition of the surface. -/
def SameView (payload payload' : PacketPayload) (context context' : EvalContext) :
    ConditionSurface → Prop
  | .payload => payload = payload'
  | .tag => context.tags = context'.tags
  | .provenance =>
    context.sourceNode = context'.sourceNode ∧ context.arrivalPort = context'.arrivalPort ∧
      context.hopCount = context'.hopCount
  | .executionContext =>
    context.workflowId = context'.workflowId ∧
      context.executionMetadata = context'.executionMetadata
  | .combinator | .constant => True

variable {payload payload' : PacketPayload} {context context' : EvalContext}

lemma evalCondition_leaf {leaf : Condition} (hleaf : leaf.isLeaf = true)
    (hview : SameView payload payload' context context' leaf.surface) :
    evalCondition payload context leaf = evalCondition payload' context' leaf := by
  cases leaf with
  | fieldEq path value | fieldNeq path value | fieldGt path value | fieldLt path value
  | fieldGte path value | fieldLte path value | fieldIn path values | fieldExists path
  | fieldAbsent path | fieldMatches path pattern =>
    have hpayload : payload = payload' := hview
    subst hpayload
    rfl
  | tagEq key value | tagExists key | tagAbsent key =>
    have htags : context.tags = context'.tags := hview
    simp only [evalCondition, htags]
  | sourceNode nodeId | arrivedOnPort portId | hopCountGt n | hopCountLte n =>
    obtain ⟨hsource, harrival, hhops⟩ := hview
    simp only [evalCondition, hsource, harrival, hhops]
  | workflowIs workflowId | executionMetadataEq key value =>
    obtain ⟨hworkflow, hmetadata⟩ := hview
    simp only [evalCondition, hworkflow, hmetadata]
  | and cs | or cs | not c => cases hleaf
  | always | never => rfl

/-- **An evaluation changes only with a marked view.** -/
theorem evalCondition_of_marked {c : Condition}
    (hview : ∀ surface, (collectSurfaces c).marks surface = true →
      SameView payload payload' context context' surface) :
    evalCondition payload context c = evalCondition payload' context' c := by
  refine evalCondition_congr fun leaf hmem => ?_
  have hleaf := Condition.isLeaf_of_mem_leaves hmem
  have hsurface := Condition.surface_of_isLeaf hleaf
  exact evalCondition_leaf hleaf
    (hview leaf.surface ((marks_collectSurfaces hsurface c).mpr ⟨leaf, hmem, rfl⟩))

lemma evalCondition_of_unmarked {c : Condition} (hidden : ConditionSurface)
    (hunmarked : (collectSurfaces c).marks hidden = false)
    (hview : ∀ surface, surface ≠ hidden → SameView payload payload' context context' surface) :
    evalCondition payload context c = evalCondition payload' context' c := by
  refine evalCondition_of_marked fun surface hmarked => hview surface ?_
  rintro rfl
  rw [hunmarked] at hmarked
  cases hmarked

end Views

/-- **What a condition is reported to ignore, it ignores.** A surface that the summary of a
condition does not name may be changed at will, with everything else as it was, and the condition
evaluates to the same; a condition of constants only evaluates to the same everywhere. -/
theorem surface_noninterference (c : Condition) :
    ((collectSurfaces c).payload = false → ∀ payload payload' context,
      evalCondition payload context c = evalCondition payload' context c) ∧
    ((collectSurfaces c).tag = false → ∀ payload (context : EvalContext) tags tags',
      evalCondition payload { context with tags := tags } c =
        evalCondition payload { context with tags := tags' } c) ∧
    ((collectSurfaces c).provenance = false → ∀ payload (context : EvalContext) sourceNode
        sourceNode' arrivalPort arrivalPort' hopCount hopCount',
      evalCondition payload
          { context with
            sourceNode := sourceNode, arrivalPort := arrivalPort, hopCount := hopCount } c =
        evalCondition payload
          { context with
            sourceNode := sourceNode', arrivalPort := arrivalPort', hopCount := hopCount' } c) ∧
    ((collectSurfaces c).executionContext = false → ∀ payload (context : EvalContext) workflowId
        workflowId' executionMetadata executionMetadata',
      evalCondition payload
          { context with workflowId := workflowId, executionMetadata := executionMetadata } c =
        evalCondition payload
          { context with workflowId := workflowId', executionMetadata := executionMetadata' } c) ∧
    ((collectSurfaces c).isConstantOnly = true → ∀ payload payload' context context',
      evalCondition payload context c = evalCondition payload' context' c) := by
  refine ⟨?payload, ?tag, ?provenance, ?executionContext, ?constant⟩
  case payload =>
    intro hunmarked payload payload' context
    refine evalCondition_of_unmarked .payload hunmarked fun surface hsurface => ?_
    cases surface <;> first | exact absurd rfl hsurface | simp [SameView]
  case tag =>
    intro hunmarked payload context tags tags'
    refine evalCondition_of_unmarked .tag hunmarked fun surface hsurface => ?_
    cases surface <;> first | exact absurd rfl hsurface | simp [SameView]
  case provenance =>
    intro hunmarked payload context sourceNode sourceNode' arrivalPort arrivalPort' hopCount
      hopCount'
    refine evalCondition_of_unmarked .provenance hunmarked fun surface hsurface => ?_
    cases surface <;> first | exact absurd rfl hsurface | simp [SameView]
  case executionContext =>
    intro hunmarked payload context workflowId workflowId' executionMetadata executionMetadata'
    refine evalCondition_of_unmarked .executionContext hunmarked fun surface hsurface => ?_
    cases surface <;> first | exact absurd rfl hsurface | simp [SameView]
  case constant =>
    intro hconstant payload payload' context context'
    simp only [ConditionSurfaceSummary.isConstantOnly, Bool.and_eq_true,
      Bool.not_eq_true'] at hconstant
    obtain ⟨⟨⟨⟨-, hpayload⟩, htag⟩, hprovenance⟩, hexecution⟩ := hconstant
    refine evalCondition_of_marked fun surface hmarked => ?_
    cases surface <;> simp_all [SameView, ConditionSurfaceSummary.marks]

section Sample

/-- The tags decide this condition, and nothing else does. -/
def taggedOrNever : Condition := .or [.never, .not (.and [.tagExists "seen", .always])]

theorem surface_noninterference_sample :
    (∀ payload payload' context,
      evalCondition payload context taggedOrNever =
        evalCondition payload' context taggedOrNever) ∧
    evalCondition (.bytes []) emptyContext taggedOrNever ≠
      evalCondition (.bytes [])
        { emptyContext with tags := emptyContext.tags.insert "seen" .null } taggedOrNever := by
  refine ⟨(surface_noninterference taggedOrNever).1 rfl, ?_⟩
  simp [taggedOrNever, evalCondition, evalAll, evalAny, emptyContext]

end Sample

end Pureflow.Introspection
