import Pureflow.Wasm.Arena

/-!
The shape of a pushed arena: a condition can be rebuilt from it, and every walk of it returns.

Children are pushed before their parents, so the indices a node holds are smaller than its own.
A walk that follows them goes down, stays among the nodes of its condition, and ends. The index
alone says so: nothing in the guest counts its calls.
-/

namespace Pureflow.Wasm

open Std Pureflow.Types Pureflow.Core Pureflow.Lib Pureflow.Rules
open Wit (ConditionNode lowerNode)

section Rebuilding

/-- The scalar of a guest scalar. -/
def scalarOf : Wit.ScalarValue → Rules.ScalarValue
  | .text s => .string s
  | .integer n => .integer n
  | .floatValue x => .float x
  | .boolean b => .boolean b
  | .nullValue => .null

@[simp] lemma scalarOf_ofScalar (s : Rules.ScalarValue) : scalarOf (ofScalar s) = s := by
  cases s <;> rfl

/-- The condition of a node, given the conditions of the nodes it refers to. An identifier that
does not pass its check has none. -/
def conditionOf (child : UInt32 → Option Condition) : ConditionNode → Option Condition
  | .fieldEq p => some (.fieldEq ⟨p.path⟩ (scalarOf p.value))
  | .fieldNeq p => some (.fieldNeq ⟨p.path⟩ (scalarOf p.value))
  | .fieldGt p => some (.fieldGt ⟨p.path⟩ (scalarOf p.value))
  | .fieldLt p => some (.fieldLt ⟨p.path⟩ (scalarOf p.value))
  | .fieldGte p => some (.fieldGte ⟨p.path⟩ (scalarOf p.value))
  | .fieldLte p => some (.fieldLte ⟨p.path⟩ (scalarOf p.value))
  | .fieldIn p => some (.fieldIn ⟨p.path⟩ (p.values.map scalarOf))
  | .fieldExists path => some (.fieldExists ⟨path⟩)
  | .fieldAbsent path => some (.fieldAbsent ⟨path⟩)
  | .fieldMatches p => some (.fieldMatches ⟨p.path⟩ ⟨p.pattern⟩)
  | .tagEq entry => some (.tagEq entry.key (scalarOf entry.value))
  | .tagExists key => some (.tagExists key)
  | .tagAbsent key => some (.tagAbsent key)
  | .sourceNode nodeId => (Identifier.new .node nodeId).toOption.map .sourceNode
  | .arrivedOnPort portId => (Identifier.new .port portId).toOption.map .arrivedOnPort
  | .hopCountGt n => some (.hopCountGt n)
  | .hopCountLte n => some (.hopCountLte n)
  | .workflowIs id => (Identifier.new .workflow id).toOption.map .workflowIs
  | .executionMetadataEq entry => some (.executionMetadataEq entry.key (scalarOf entry.value))
  | .andNode children => (children.mapM child).map .and
  | .orNode children => (children.mapM child).map .or
  | .notNode j => (child j).map .not
  | .always => some .always
  | .never => some .never

/-- The condition under an index of an arena, following at most so many indices down. -/
def rebuild (arena : List ConditionNode) : ℕ → UInt32 → Option Condition
  | 0, _ => none
  | fuel + 1, i => arena[i.toNat]?.bind (conditionOf (rebuild arena fuel))

lemma conditionOf_leafNode {c : Condition} (h : c.isLeaf = true)
    (child : UInt32 → Option Condition) : conditionOf child (leafNode c) = some c := by
  cases c with
  | and _ | or _ | not _ => cases h
  | sourceNode i | arrivedOnPort i | workflowIs i =>
    rw [leafNode, conditionOf, Identifier.new_value]
    rfl
  | _ => simp [leafNode, conditionOf, ofEntry, Function.comp_def]

/-- What can be read can be rebuilt. -/
theorem rebuild_of_reads {arena : List ConditionNode} {c : Condition} {i : UInt32}
    (h : Reads arena c i) {fuel : ℕ} (hfuel : c.nodeCount ≤ fuel) :
    rebuild arena fuel i = some c := by
  have hpos := c.nodeCount_pos
  obtain ⟨n, rfl⟩ : ∃ n, fuel = n + 1 := ⟨fuel - 1, by omega⟩
  induction c using Condition.induction generalizing i n with
  | leaf c hc =>
    rw [rebuild, (reads_leaf hc).mp h]
    exact conditionOf_leafNode hc _
  | and cs ih | or cs ih =>
    simp only [Condition.nodeCount] at hfuel
    obtain ⟨js, hi, hjs⟩ := h
    have hall : js.mapM (rebuild arena n) = some cs := by
      refine Result.mapM_eq_some.mpr (hjs.forall₂ fun c hc j hj => ?_)
      have hle := nodeCount_le_of_mem hc
      have hcpos := c.nodeCount_pos
      obtain ⟨m, rfl⟩ : ∃ m, n = m + 1 := ⟨n - 1, by omega⟩
      exact ih c hc hj hcpos m (by omega)
    simp [rebuild, hi, conditionOf, hall]
  | not c ih =>
    simp only [Condition.nodeCount] at hfuel
    obtain ⟨j, hi, hj⟩ := h
    have hcpos := c.nodeCount_pos
    obtain ⟨m, rfl⟩ : ∃ m, n = m + 1 := ⟨n - 1, by omega⟩
    rw [rebuild, hi, Option.bind_some, conditionOf, ih hj hcpos m (by omega), Option.map_some]

end Rebuilding

section Walking

/-- `eval_node` with a given answer for an index outside the arena. -/
def evalNodeOr (outside : Option Bool) (nodes : List ConditionNode)
    (payload : Option Json.Value) (ctx : Wit.EvalContext) : ℕ → UInt32 → Option Bool
  | 0, _ => none
  | fuel + 1, index =>
    match nodes[index.toNat]? with
    | none => outside
    | some node =>
      Guest.evalNodeBody payload ctx (evalNodeOr outside nodes payload ctx fuel) node

lemma evalNodeOr_false (nodes : List ConditionNode) (payload : Option Json.Value)
    (ctx : Wit.EvalContext) (fuel : ℕ) (index : UInt32) :
    evalNodeOr (some false) nodes payload ctx fuel index =
      Guest.evalNode nodes payload ctx fuel index := by
  induction fuel generalizing index with
  | zero => rfl
  | succ fuel ih =>
    unfold evalNodeOr Guest.evalNode
    cases nodes[index.toNat]? with
    | none => rfl
    | some node =>
      exact congrArg (fun recurse => Guest.evalNodeBody payload ctx recurse node) (funext ih)

lemma exists_evalNodeBody (payload : Option Json.Value) (ctx : Wit.EvalContext)
    (n : ConditionNode) (value : UInt32 → Bool) :
    ∃ b, ∀ f : UInt32 → Option Bool, (∀ j ∈ n.children, f j = some (value j)) →
      Guest.evalNodeBody payload ctx f n = some b := by
  cases n with
  | andNode js => exact ⟨js.all value, fun f hf => Result.allM_eq_some (List.forall₂_same.mpr hf)⟩
  | orNode js => exact ⟨js.any value, fun f hf => Result.anyM_eq_some (List.forall₂_same.mpr hf)⟩
  | notNode j =>
    refine ⟨!value j, fun f hf => ?_⟩
    rw [Guest.evalNodeBody, hf j (List.mem_singleton.mpr rfl), Option.map_some]
  | _ => exact ⟨_, fun _ _ => rfl⟩

/-- **A walk of descending nodes returns** after one call for each of them at most, and what an
index outside the arena would give does not matter to it. -/
theorem exists_evalNodeOr {arena new : List ConditionNode} (h : Descends arena.length new)
    (payload : Option Json.Value) (ctx : Wit.EvalContext) {i : UInt32}
    (hge : arena.length ≤ i.toNat) (hlt : i.toNat < arena.length + new.length) :
    ∃ b, ∀ outside fuel, i.toNat - arena.length < fuel →
      evalNodeOr outside (arena ++ new) payload ctx fuel i = some b := by
  induction hi : i.toNat using Nat.strong_induction_on generalizing i with
  | _ k ih =>
    subst hi
    obtain ⟨n, hn⟩ : ∃ n, new[i.toNat - arena.length]? = some n :=
      ⟨_, List.getElem?_eq_getElem (by omega)⟩
    have hget : (arena ++ new)[i.toNat]? = some n := by
      rw [List.getElem?_append_right hge, hn]
    have hchild (j : UInt32) (hj : j ∈ n.children) : ∃ b, ∀ outside fuel,
        j.toNat - arena.length < fuel →
        evalNodeOr outside (arena ++ new) payload ctx fuel j = some b := by
      have hbounds := h _ n hn j hj
      exact ih j.toNat (by omega) hbounds.1 (by omega) rfl
    choose! value hvalue using hchild
    obtain ⟨b, hb⟩ := exists_evalNodeBody payload ctx n value
    refine ⟨b, fun outside fuel hfuel => ?_⟩
    obtain ⟨m, rfl⟩ : ∃ m, fuel = m + 1 := ⟨fuel - 1, by omega⟩
    rw [evalNodeOr, hget]
    refine hb _ fun j hj => hvalue j hj outside m ?_
    have hbounds := h _ n hn j hj
    omega

end Walking

/-- **A pushed condition is a well formed arena of its own.** The push appends as many nodes as
the condition has and returns the index of the last. The guest sees them as nodes that refer to
smaller indices among them, can rebuild the condition from the index returned, and from there
every walk returns without ever being outside the arena. -/
theorem pushCondition_spec (c : Condition) (nodes : List Val)
    (h : nodes.length + c.nodeCount < 2 ^ 32) :
    ∃ (vals : List Val) (new : List ConditionNode),
      (pushCondition c nodes).2 = nodes ++ vals ∧
      vals.mapM lowerNode = some new ∧
      vals.length = c.nodeCount ∧
      (pushCondition c nodes).1.toNat + 1 = (pushCondition c nodes).2.length ∧
      (∀ k n, new[k]? = some n → ∀ j ∈ n.children,
        nodes.length ≤ j.toNat ∧ j.toNat < nodes.length + k) ∧
      ∀ arena : List ConditionNode, arena.length = nodes.length →
        rebuild (arena ++ new) c.nodeCount (pushCondition c nodes).1 = some c ∧
        ∀ payload ctx, ∃ b, ∀ fuel, c.nodeCount ≤ fuel →
          Guest.evalNode (arena ++ new) payload ctx fuel (pushCondition c nodes).1 = some b ∧
          ∀ outside, evalNodeOr outside (arena ++ new) payload ctx fuel
            (pushCondition c nodes).1 = some b := by
  obtain ⟨new, hpushed⟩ := exists_pushed c nodes (by omega)
  obtain ⟨vals, hafter, hvals⟩ := hpushed.grown.appended
  have hlength : vals.length = c.nodeCount := by
    rw [Result.length_of_mapM hvals, hpushed.length]
  have hindex := hpushed.index
  have hnew := hpushed.length
  refine ⟨vals, new, hafter, hvals, hlength, ?_, hpushed.grown.descends, fun arena harena =>
    ⟨rebuild_of_reads (hpushed.reads arena harena) le_rfl, fun payload ctx => ?_⟩⟩
  · rw [hindex, hafter, List.length_append, hlength]
  · have hdescends := hpushed.grown.descends
    have hpos := c.nodeCount_pos
    rw [← harena] at hdescends hindex
    obtain ⟨b, hb⟩ := exists_evalNodeOr hdescends payload ctx
      (i := (pushCondition c nodes).1) (by omega) (by omega)
    refine ⟨b, fun fuel hfuel => ⟨?_, fun outside => hb outside fuel (by omega)⟩⟩
    rw [← evalNodeOr_false]
    exact hb (some false) fuel (by omega)

/-- A nested condition on top of an arena of one node. -/
theorem pushCondition_spec_nested :
    [Val.variant "never" none].length + (Condition.and [.always, .not .never]).nodeCount < 2 ^ 32 ∧
    ∃ (vals : List Val) (new : List ConditionNode),
      (pushCondition (.and [.always, .not .never]) [.variant "never" none]).2 =
        [.variant "never" none] ++ vals ∧
      vals.mapM lowerNode = some new ∧ vals.length = 4 := by
  have hcount : [Val.variant "never" none].length +
      (Condition.and [.always, .not .never]).nodeCount < 2 ^ 32 := by decide
  obtain ⟨vals, new, hafter, hvals, hlength, -⟩ :=
    pushCondition_spec (.and [.always, .not .never]) [.variant "never" none] hcount
  exact ⟨hcount, vals, new, hafter, hvals, hlength⟩

end Pureflow.Wasm
