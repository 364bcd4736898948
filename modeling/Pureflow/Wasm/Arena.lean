import Pureflow.Wasm.Transport
import Pureflow.Lib.Result

/-!
The condition arena: what the encoder pushes is what the guest reads.

`Reads arena c i` says that the tree under index `i` of the arena is the condition `c`. Pushing
a condition makes it readable at the index returned, and a guest that starts at a readable
index computes the value the native evaluator gives the condition.
-/

namespace Pureflow.Wasm

open Std Pureflow.Types Pureflow.Core Pureflow.Lib Pureflow.Rules
open Wit (ConditionNode ScalarEntry lowerNode lowerScalar lowerEntry lowerPredicate lowerU32
  lowerString lowerList lowerInPredicate lowerMatchPredicate)

/-- The guest's view of a scalar. -/
def ofScalar : Rules.ScalarValue → Wit.ScalarValue
  | .string s => .text s
  | .integer n => .integer n
  | .float x => .floatValue x
  | .boolean b => .boolean b
  | .null => .nullValue

/-- The guest's view of a key with its scalar. -/
def ofEntry (entry : String × Rules.ScalarValue) : ScalarEntry := ⟨entry.1, ofScalar entry.2⟩

@[simp] lemma lowerScalar_scalarToVal (s : Rules.ScalarValue) :
    lowerScalar (scalarToVal s) = some (ofScalar s) := by
  cases s <;> rfl

@[simp] lemma lowerEntry_scalarEntryToVal (key : String) (value : Rules.ScalarValue) :
    lowerEntry (scalarEntryToVal key value) = some (ofEntry (key, value)) := by
  simp [scalarEntryToVal, lowerEntry, lowerString, ofEntry]

@[simp] lemma lowerPredicate_fieldPredicate (path : String) (value : Rules.ScalarValue) :
    lowerPredicate (fieldPredicate path value) = some ⟨path, ofScalar value⟩ := by
  simp [fieldPredicate, lowerPredicate, lowerString]

lemma lowerList_map {α β : Type} {encode : α → Val} {lower : Val → Option β} {view : α → β}
    (h : ∀ a, lower (encode a) = some (view a)) (xs : List α) :
    lowerList lower (.list (xs.map encode)) = some (xs.map view) :=
  Result.mapM_map_of_decodes h xs

@[simp] lemma lowerList_u32 (xs : List UInt32) :
    lowerList lowerU32 (.list (xs.map .u32)) = some xs := by
  rw [lowerList_map (show ∀ n, lowerU32 (.u32 n) = some (id n) from fun _ => rfl), List.map_id]

@[simp] lemma lowerList_scalars (values : List Rules.ScalarValue) :
    lowerList lowerScalar (.list (values.map scalarToVal)) = some (values.map ofScalar) :=
  lowerList_map lowerScalar_scalarToVal values

/-- The guest's node of a leaf condition. -/
def leafNode : Condition → ConditionNode
  | .fieldEq path value => .fieldEq ⟨path.value, ofScalar value⟩
  | .fieldNeq path value => .fieldNeq ⟨path.value, ofScalar value⟩
  | .fieldGt path value => .fieldGt ⟨path.value, ofScalar value⟩
  | .fieldLt path value => .fieldLt ⟨path.value, ofScalar value⟩
  | .fieldGte path value => .fieldGte ⟨path.value, ofScalar value⟩
  | .fieldLte path value => .fieldLte ⟨path.value, ofScalar value⟩
  | .fieldIn path values => .fieldIn ⟨path.value, values.map ofScalar⟩
  | .fieldExists path => .fieldExists path.value
  | .fieldAbsent path => .fieldAbsent path.value
  | .fieldMatches path pattern => .fieldMatches ⟨path.value, pattern.value⟩
  | .tagEq key value => .tagEq (ofEntry (key, value))
  | .tagExists key => .tagExists key
  | .tagAbsent key => .tagAbsent key
  | .sourceNode nodeId => .sourceNode nodeId.value
  | .arrivedOnPort portId => .arrivedOnPort portId.value
  | .hopCountGt n => .hopCountGt n
  | .hopCountLte n => .hopCountLte n
  | .workflowIs workflowId => .workflowIs workflowId.value
  | .executionMetadataEq key value => .executionMetadataEq (ofEntry (key, value))
  | .always => .always
  | _ => .never

/-- The nodes a node refers to, by index. -/
def Wit.ConditionNode.children : ConditionNode → List UInt32
  | .andNode js | .orNode js => js
  | .notNode j => [j]
  | _ => []

lemma children_leafNode (c : Condition) : (leafNode c).children = [] := by
  cases c <;> rfl

mutual

/-- The tree under an index of the arena is the given condition. -/
def Reads (arena : List ConditionNode) : Condition → UInt32 → Prop
  | .and cs, i => ∃ js, arena[i.toNat]? = some (.andNode js) ∧ ReadsAll arena cs js
  | .or cs, i => ∃ js, arena[i.toNat]? = some (.orNode js) ∧ ReadsAll arena cs js
  | .not c, i => ∃ j, arena[i.toNat]? = some (.notNode j) ∧ Reads arena c j
  | c, i => arena[i.toNat]? = some (leafNode c)

def ReadsAll (arena : List ConditionNode) : List Condition → List UInt32 → Prop
  | [], js => js = []
  | c :: cs, js => ∃ j rest, js = j :: rest ∧ Reads arena c j ∧ ReadsAll arena cs rest

end

lemma reads_leaf {arena : List ConditionNode} {c : Condition} (h : c.isLeaf = true) {i : UInt32} :
    Reads arena c i ↔ arena[i.toNat]? = some (leafNode c) := by
  cases c <;> first | rfl | cases h

lemma ReadsAll.imp {arena arena' : List ConditionNode} {cs : List Condition} {js : List UInt32}
    (h : ∀ c ∈ cs, ∀ {j}, Reads arena c j → Reads arena' c j) (hjs : ReadsAll arena cs js) :
    ReadsAll arena' cs js := by
  induction cs generalizing js with
  | nil => exact hjs
  | cons c cs ih =>
    obtain ⟨j, rest, rfl, hj, hrest⟩ := hjs
    exact ⟨j, rest, rfl, h c (by simp) hj, ih (fun d hd => h d (by simp [hd])) hrest⟩

/-- What is readable stays readable when the arena grows. -/
lemma Reads.append {arena : List ConditionNode} (new : List ConditionNode) {c : Condition}
    {i : UInt32} (h : Reads arena c i) : Reads (arena ++ new) c i := by
  have grow {k : ℕ} {n : ConditionNode} (hk : arena[k]? = some n) :
      (arena ++ new)[k]? = some n := by
    rw [List.getElem?_append_left (List.getElem?_eq_some_iff.mp hk).1, hk]
  induction c using Condition.induction generalizing i with
  | leaf c hc => exact (reads_leaf hc).mpr (grow ((reads_leaf hc).mp h))
  | and cs ih =>
    obtain ⟨js, hi, hjs⟩ := h
    exact ⟨js, grow hi, hjs.imp fun c hc => ih c hc⟩
  | or cs ih =>
    obtain ⟨js, hi, hjs⟩ := h
    exact ⟨js, grow hi, hjs.imp fun c hc => ih c hc⟩
  | not c ih =>
    obtain ⟨j, hi, hj⟩ := h
    exact ⟨j, grow hi, ih hj⟩

section Pushing

lemma lowers_payload {α : Type} {lowered : Option α} {a : α} (h : lowered = some a)
    (node : α → ConditionNode) : (do return node (← lowered)) = some (node a) := by
  rw [h]
  rfl

lemma lowerInPredicate_values (path : String) (values : List Rules.ScalarValue) :
    lowerInPredicate (.record [("path", .string path),
      ("values", .list (values.map scalarToVal))]) = some ⟨path, values.map ofScalar⟩ := by
  simp [lowerInPredicate, lowerString]

lemma pushCondition_leaf {c : Condition} (h : c.isLeaf = true) (nodes : List Val) :
    ∃ v, pushCondition c nodes = pushNode v nodes ∧ lowerNode v = some (leafNode c) := by
  cases c with
  | fieldEq path value =>
    exact ⟨_, rfl, lowers_payload (lowerPredicate_fieldPredicate _ value) .fieldEq⟩
  | fieldNeq path value =>
    exact ⟨_, rfl, lowers_payload (lowerPredicate_fieldPredicate _ value) .fieldNeq⟩
  | fieldGt path value =>
    exact ⟨_, rfl, lowers_payload (lowerPredicate_fieldPredicate _ value) .fieldGt⟩
  | fieldLt path value =>
    exact ⟨_, rfl, lowers_payload (lowerPredicate_fieldPredicate _ value) .fieldLt⟩
  | fieldGte path value =>
    exact ⟨_, rfl, lowers_payload (lowerPredicate_fieldPredicate _ value) .fieldGte⟩
  | fieldLte path value =>
    exact ⟨_, rfl, lowers_payload (lowerPredicate_fieldPredicate _ value) .fieldLte⟩
  | fieldIn path values =>
    exact ⟨_, rfl, lowers_payload (lowerInPredicate_values _ values) .fieldIn⟩
  | tagEq key value =>
    exact ⟨_, rfl, lowers_payload (lowerEntry_scalarEntryToVal key value) .tagEq⟩
  | executionMetadataEq key value =>
    exact ⟨_, rfl, lowers_payload (lowerEntry_scalarEntryToVal key value) .executionMetadataEq⟩
  | and cs | or cs | not c => cases h
  | _ => exact ⟨_, rfl, rfl⟩

/-- The nodes of an arena from `base` on refer to earlier ones of them only. -/
def Descends (base : ℕ) (new : List ConditionNode) : Prop :=
  ∀ k n, new[k]? = some n → ∀ j ∈ n.children, base ≤ j.toNat ∧ j.toNat < base + k

lemma Descends.append {base : ℕ} {new more : List ConditionNode} (h : Descends base new)
    (hmore : Descends (base + new.length) more) : Descends base (new ++ more) := by
  intro k n hk j hj
  rcases Nat.lt_or_ge k new.length with hlt | hge
  · rw [List.getElem?_append_left hlt] at hk
    exact h k n hk j hj
  · rw [List.getElem?_append_right hge] at hk
    have := hmore _ n hk j hj
    omega

lemma Descends.push {base : ℕ} {new : List ConditionNode} {n : ConditionNode}
    (h : Descends base new)
    (hn : ∀ j ∈ n.children, base ≤ j.toNat ∧ j.toNat < base + new.length) :
    Descends base (new ++ [n]) := by
  intro k m hk j hj
  rcases Nat.lt_trichotomy k new.length with hlt | rfl | hgt
  · rw [List.getElem?_append_left hlt] at hk
    exact h k m hk j hj
  · rw [List.getElem?_concat_length, Option.some.injEq] at hk
    subst hk
    exact hn j hj
  · rw [List.getElem?_eq_none (by simpa using hgt)] at hk
    cases hk

/-- Nodes were appended to an arena, which the guest sees as `new`. -/
structure Grown (nodes after : List Val) (new : List ConditionNode) : Prop where
  appended : ∃ vals, after = nodes ++ vals ∧ vals.mapM lowerNode = some new
  descends : Descends nodes.length new

lemma Grown.refl (nodes : List Val) : Grown nodes nodes [] :=
  ⟨⟨[], (List.append_nil nodes).symm, rfl⟩, fun k n hk => by cases hk⟩

lemma Grown.length_eq {nodes after : List Val} {new : List ConditionNode}
    (h : Grown nodes after new) : after.length = nodes.length + new.length := by
  obtain ⟨vals, rfl, hvals⟩ := h.appended
  rw [List.length_append, Result.length_of_mapM hvals]

lemma Grown.trans {nodes between after : List Val} {new more : List ConditionNode}
    (h : Grown nodes between new) (hmore : Grown between after more) :
    Grown nodes after (new ++ more) := by
  have hlength := h.length_eq
  have hdescends := hmore.descends
  rw [hlength] at hdescends
  obtain ⟨vals, rfl, hvals⟩ := h.appended
  obtain ⟨rest, rfl, hrest⟩ := hmore.appended
  refine ⟨⟨vals ++ rest, List.append_assoc _ _ _, ?_⟩, h.descends.append hdescends⟩
  simp [List.mapM_append, hvals, hrest]

/-- What a push of a condition leaves: as many nodes as it has, the last of them at the index
returned, where the condition can be read, whatever the earlier nodes are. -/
structure Pushed (c : Condition) (nodes : List Val) (new : List ConditionNode) : Prop where
  grown : Grown nodes (pushCondition c nodes).2 new
  length : new.length = c.nodeCount
  index : (pushCondition c nodes).1.toNat + 1 = nodes.length + c.nodeCount
  reads (arena : List ConditionNode) : arena.length = nodes.length →
    Reads (arena ++ new) c (pushCondition c nodes).1

/-- What pushes of conditions one after the other leave. -/
structure PushedAll (cs : List Condition) (nodes : List Val) (new : List ConditionNode) :
    Prop where
  grown : Grown nodes (pushConditions cs nodes).2 new
  length : new.length = Condition.nodeCounts cs
  indices : ∀ j ∈ (pushConditions cs nodes).1,
    nodes.length ≤ j.toNat ∧ j.toNat < nodes.length + new.length
  reads (arena : List ConditionNode) : arena.length = nodes.length →
    ReadsAll (arena ++ new) cs (pushConditions cs nodes).1

lemma exists_pushedAll {cs : List Condition}
    (hcs : ∀ c ∈ cs, ∀ nodes : List Val, nodes.length + c.nodeCount ≤ 2 ^ 32 →
      ∃ new, Pushed c nodes new) {nodes : List Val}
    (hlt : nodes.length + Condition.nodeCounts cs ≤ 2 ^ 32) : ∃ new, PushedAll cs nodes new := by
  induction cs generalizing nodes with
  | nil =>
    have hindices (j : UInt32) (hj : j ∈ (pushConditions [] nodes).1) :
        nodes.length ≤ j.toNat ∧ j.toNat < nodes.length + 0 := by
      simp [pushConditions] at hj
    exact ⟨[], ⟨.refl nodes, rfl, hindices, fun _ _ => rfl⟩⟩
  | cons c cs ih =>
    simp only [Condition.nodeCounts] at hlt
    obtain ⟨new, hpushed⟩ := hcs c List.mem_cons_self nodes (by omega)
    have hbetween := hpushed.grown.length_eq
    have hlength := hpushed.length
    have hrest : (pushCondition c nodes).2.length + Condition.nodeCounts cs ≤ 2 ^ 32 := by omega
    obtain ⟨more, hmore⟩ := ih (fun d hd => hcs d (List.mem_cons_of_mem _ hd)) hrest
    refine ⟨new ++ more, hpushed.grown.trans hmore.grown, ?_, ?_, ?_⟩
    · rw [List.length_append, hlength, hmore.length, Condition.nodeCounts]
    · have hindex := hpushed.index
      have hpos := c.nodeCount_pos
      rw [List.length_append]
      intro j hj
      rcases List.mem_cons.mp hj with rfl | hj
      · omega
      · have := hmore.indices j hj
        omega
    · intro arena harena
      have hall := hmore.reads (arena ++ new) (by rw [List.length_append, harena, hbetween])
      rw [List.append_assoc] at hall
      refine ⟨_, _, rfl, ?_, hall⟩
      rw [← List.append_assoc]
      exact (hpushed.reads arena harena).append more

lemma pushNode_grown {nodes after : List Val} {new : List ConditionNode} {v : Val}
    {n : ConditionNode} (h : Grown nodes after new) (hv : lowerNode v = some n)
    (hn : ∀ j ∈ n.children, nodes.length ≤ j.toNat ∧ j.toNat < nodes.length + new.length)
    (hlt : nodes.length + (new.length + 1) ≤ 2 ^ 32) :
    Grown nodes (pushNode v after).2 (new ++ [n]) ∧
      (pushNode v after).1.toNat = nodes.length + new.length ∧
      ∀ arena : List ConditionNode, arena.length = nodes.length →
        (arena ++ (new ++ [n]))[(pushNode v after).1.toNat]? = some n := by
  have hindex : (pushNode v after).1.toNat = nodes.length + new.length := by
    rw [pushNode, h.length_eq, UInt32.toNat_ofNat']
    omega
  refine ⟨⟨?_, h.descends.push hn⟩, hindex, fun arena harena => ?_⟩
  · obtain ⟨vals, rfl, hvals⟩ := h.appended
    exact ⟨vals ++ [v], List.append_assoc _ _ _, by simp [List.mapM_append, hvals, hv]⟩
  · rw [hindex, ← List.append_assoc, ← harena, ← List.length_append, List.getElem?_concat_length]

lemma pushCombinator_grown {cs : List Condition} {nodes : List Val} {new : List ConditionNode}
    (h : PushedAll cs nodes new) {v : List UInt32 → Val} {n : List UInt32 → ConditionNode}
    (hv : ∀ js, lowerNode (v js) = some (n js)) (hchildren : ∀ js, (n js).children = js)
    (hlt : nodes.length + (Condition.nodeCounts cs + 1) ≤ 2 ^ 32) :
    let (js, after) := pushConditions cs nodes
    let out := pushNode (v js) after
    Grown nodes out.2 (new ++ [n js]) ∧
      (new ++ [n js]).length = Condition.nodeCounts cs + 1 ∧
      out.1.toNat + 1 = nodes.length + (Condition.nodeCounts cs + 1) ∧
      ∀ arena : List ConditionNode, arena.length = nodes.length →
        (arena ++ (new ++ [n js]))[out.1.toNat]? = some (n js) ∧
        ReadsAll (arena ++ (new ++ [n js])) cs js := by
  have hlength := h.length
  obtain ⟨hgrown, hindex, hget⟩ := pushNode_grown h.grown (hv (pushConditions cs nodes).1)
    (by rw [hchildren]; exact h.indices) (by omega)
  refine ⟨hgrown, by simp [hlength], by rw [hindex]; omega, fun arena harena =>
    ⟨hget arena harena, ?_⟩⟩
  rw [← List.append_assoc]
  exact (h.reads arena harena).imp fun c _ => Reads.append _

/-- **A push appends the nodes of the condition**, children before their parents. -/
theorem exists_pushed (c : Condition) (nodes : List Val)
    (hlt : nodes.length + c.nodeCount ≤ 2 ^ 32) : ∃ new, Pushed c nodes new := by
  induction c using Condition.induction generalizing nodes with
  | leaf c hc =>
    obtain ⟨v, hpush, hv⟩ := pushCondition_leaf hc nodes
    have hcount := Condition.nodeCount_leaf hc
    rw [hcount] at hlt
    obtain ⟨hgrown, hindex, hget⟩ := pushNode_grown (.refl nodes) hv
      (by simp [children_leafNode]) (by simpa using hlt)
    rw [← hpush] at hgrown hindex hget
    refine ⟨[leafNode c], hgrown, hcount.symm, ?_, fun arena harena => ?_⟩
    · rw [hindex, hcount]
      rfl
    · exact (reads_leaf hc).mpr (hget arena harena)
  | and cs ih =>
    have hv (js : List UInt32) : lowerNode (.variant "and-node" (some (.list (js.map .u32)))) =
        some (.andNode js) := lowers_payload (lowerList_u32 js) .andNode
    simp only [Condition.nodeCount] at hlt
    have hchildren : nodes.length + Condition.nodeCounts cs ≤ 2 ^ 32 := by omega
    obtain ⟨new, hall⟩ := exists_pushedAll ih hchildren
    obtain ⟨hgrown, hlength, hindex, hreads⟩ := pushCombinator_grown hall hv (fun _ => rfl) hlt
    exact ⟨_, hgrown, hlength, hindex, fun arena harena => ⟨_, hreads arena harena⟩⟩
  | or cs ih =>
    have hv (js : List UInt32) : lowerNode (.variant "or-node" (some (.list (js.map .u32)))) =
        some (.orNode js) := lowers_payload (lowerList_u32 js) .orNode
    simp only [Condition.nodeCount] at hlt
    have hchildren : nodes.length + Condition.nodeCounts cs ≤ 2 ^ 32 := by omega
    obtain ⟨new, hall⟩ := exists_pushedAll ih hchildren
    obtain ⟨hgrown, hlength, hindex, hreads⟩ := pushCombinator_grown hall hv (fun _ => rfl) hlt
    exact ⟨_, hgrown, hlength, hindex, fun arena harena => ⟨_, hreads arena harena⟩⟩
  | not c ih =>
    simp only [Condition.nodeCount] at hlt
    obtain ⟨new, hpushed⟩ := ih nodes (by omega)
    have hlength := hpushed.length
    have hchild := hpushed.index
    have hpos := c.nodeCount_pos
    have hv (j : UInt32) : lowerNode (.variant "not-node" (some (.u32 j))) = some (.notNode j) :=
      rfl
    obtain ⟨hgrown, hindex, hget⟩ := pushNode_grown hpushed.grown (hv (pushCondition c nodes).1)
      (by
        intro j hj
        obtain rfl := List.mem_singleton.mp hj
        omega) (by omega)
    refine ⟨_, hgrown, by simp [hlength, Condition.nodeCount], ?_, fun arena harena =>
      ⟨_, hget arena harena, ?_⟩⟩
    · rw [Condition.nodeCount, ← hlength, ← Nat.add_assoc, ← hindex]
      rfl
    · rw [← List.append_assoc]
      exact (hpushed.reads arena harena).append _

/-- Pushing the condition appends its nodes and returns the index of the last, where the
condition can be read. -/
def Pushes (c : Condition) : Prop :=
  ∀ {nodes : List Val} {arena : List ConditionNode}, nodes.mapM lowerNode = some arena →
    arena.length + c.nodeCount ≤ 2 ^ 32 →
    ∃ new : List ConditionNode, new.length = c.nodeCount ∧
      (pushCondition c nodes).2.mapM lowerNode = some (arena ++ new) ∧
      (pushCondition c nodes).1.toNat + 1 = arena.length + c.nodeCount ∧
      Reads (arena ++ new) c (pushCondition c nodes).1

/-- **Pushing a condition makes it readable** at the index returned. -/
theorem pushes (c : Condition) : Pushes c := by
  intro nodes arena h hlt
  have harena : nodes.length = arena.length := Result.length_of_mapM h
  rw [← harena] at hlt ⊢
  obtain ⟨new, hpushed⟩ := exists_pushed c nodes hlt
  refine ⟨new, hpushed.length, ?_, hpushed.index, hpushed.reads arena harena.symm⟩
  obtain ⟨vals, hafter, hvals⟩ := hpushed.grown.appended
  rw [hafter]
  simp [List.mapM_append, h, hvals]

end Pushing

/-- The guest's view of a surface. -/
def ofSurface : Rules.ConditionSurface → Wit.ConditionSurface
  | .payload => .payload
  | .tag => .tag
  | .provenance => .provenance
  | .executionContext => .executionContext
  | .combinator => .combinator
  | .constant => .constant

section Evaluating

variable {payload : PacketPayload} {context : Rules.EvalContext}

/-- The payload as the guest sees it once the text is parsed. -/
def guestPayload : PacketPayload → Option Json.Value
  | .control value => some value
  | .bytes _ => none

/-- A guest context that agrees with the native one on every surface but the payload. -/
structure Mirrors (g : Wit.EvalContext) (context : Rules.EvalContext) : Prop where
  tags (key : String) : Guest.tagValue g.tags key = context.tags[key]?.map ofScalar
  sourceNode : g.sourceNode = context.sourceNode.map (·.value)
  arrivalPort : g.arrivalPort = context.arrivalPort.map (·.value)
  hopCount : g.hopCount = context.hopCount
  workflowId : g.workflowId = context.workflowId.value
  executionMetadata (key : String) :
    Guest.tagValue g.executionMetadata key = context.executionMetadata[key]?.map ofScalar

lemma resolve_eq (path : FieldPath) :
    Guest.resolve (guestPayload payload) path.value = resolvePayload payload path := by
  have go (segments : List String) (v : Json.Value) :
      Guest.resolve.go segments v = FieldPath.resolve.go segments v := by
    induction segments generalizing v with
    | nil => rfl
    | cons s rest ih => simp [Guest.resolve.go, FieldPath.resolve.go, funext ih]
  cases payload with
  | bytes b => rfl
  | control v => exact go _ v

@[simp] lemma jsonEq_ofScalar (v : Json.Value) (s : Rules.ScalarValue) :
    Guest.jsonEq v (ofScalar s) = jsonValueEqScalar v s := by
  cases v <;> cases s <;> rfl

@[simp] lemma jsonCmp_ofScalar (v : Json.Value) (s : Rules.ScalarValue) :
    Guest.jsonCmp v (ofScalar s) = jsonValueCmpScalar v s := by
  cases s <;> rfl

@[simp] lemma scalarEq_ofScalar (a b : Rules.ScalarValue) :
    Guest.scalarEq (ofScalar a) (ofScalar b) = Rules.scalarEq a b := by
  cases a <;> cases b <;> rfl

@[simp] lemma globMatch_eq (pattern value : String) :
    Guest.globMatch pattern value = Rules.globMatch pattern value := by
  have inner (p v : List Char) : Guest.globMatchInner p v = Rules.globMatchInner p v := by
    fun_induction Rules.globMatchInner p v <;> rw [Guest.globMatchInner.eq_def] <;> simp_all
  exact inner _ _

lemma tagValue_any {entries : List ScalarEntry} {tags : ExtTreeMap String Rules.ScalarValue}
    {key : String} (h : Guest.tagValue entries key = tags[key]?.map ofScalar)
    (value : Rules.ScalarValue) :
    (Guest.tagValue entries key).any (Guest.scalarEq · (ofScalar value)) =
      tags[key]?.any (Rules.scalarEq · value) := by
  rw [h]
  cases tags[key]? <;> simp

lemma identifier_any {kind : IdentifierKind} (o : Option (Identifier kind)) (i : Identifier kind) :
    (o.map (·.value) == some i.value) = o.any (· == i) := by
  cases o with
  | none => rfl
  | some j => rw [Bool.eq_iff_iff]; simp [Identifier.value_inj]

/-- On a leaf the two evaluators agree, whatever the guest makes of other indices. -/
lemma evalNodeBody_leafNode {g : Wit.EvalContext} (hg : Mirrors g context) {c : Condition}
    (hc : c.isLeaf = true) (evalChild : UInt32 → Option Bool) :
    Guest.evalNodeBody (guestPayload payload) g evalChild (leafNode c) =
      some (evalCondition payload context c) := by
  have hin (values : List Rules.ScalarValue) (v : Json.Value) :
      (values.map ofScalar).any (Guest.jsonEq v) = values.any (jsonValueEqScalar v) := by
    simp [Function.comp_def]
  cases c <;> simp only [leafNode, Guest.evalNodeBody, evalCondition, resolve_eq,
    Result.getD_map_false, Result.getD_map_true, jsonEq_ofScalar, jsonCmp_ofScalar, hin, ofEntry,
    tagValue_any (hg.tags _), tagValue_any (hg.executionMetadata _), hg.sourceNode,
    hg.arrivalPort, identifier_any, hg.hopCount]
  case fieldMatches path pattern =>
    have hglob : Guest.globMatch pattern.value = pattern.matchesText := funext (globMatch_eq _)
    rw [hglob]
  case tagExists key => rw [hg.tags]; simp
  case tagAbsent key =>
    rw [hg.tags, Option.isNone_map, ← ExtTreeMap.isSome_getElem?_eq_contains, Option.not_isSome]
  case workflowIs workflowId =>
    rw [hg.workflowId, Option.some_inj, Bool.eq_iff_iff]
    simp [Identifier.value_inj]
  all_goals cases hc

section Walk

variable {arena : List ConditionNode} {g : Wit.EvalContext}

lemma ReadsAll.forall₂ {P : UInt32 → Condition → Prop} {cs : List Condition} {js : List UInt32}
    (h : ∀ c ∈ cs, ∀ j, Reads arena c j → P j c) (hjs : ReadsAll arena cs js) :
    List.Forall₂ P js cs := by
  induction cs generalizing js with
  | nil =>
    cases hjs
    exact .nil
  | cons c cs ih =>
    obtain ⟨j, rest, rfl, hj, hrest⟩ := hjs
    have hc := h c List.mem_cons_self j hj
    exact .cons hc (ih (fun d hd => h d (List.mem_cons_of_mem c hd)) hrest)

lemma nodeCount_le_of_mem {c : Condition} {cs : List Condition} (h : c ∈ cs) :
    c.nodeCount ≤ Condition.nodeCounts cs := by
  induction cs with
  | nil => cases h
  | cons d cs ih =>
    simp only [Condition.nodeCounts]
    rcases List.mem_cons.mp h with rfl | h
    · omega
    · have := ih h
      omega

/-- **The guest computes what it reads**: started at an index where a condition can be read,
with one call for each node of the condition, it returns the native value. -/
theorem evalNode_of_reads (hg : Mirrors g context) {c : Condition} {i : UInt32}
    (h : Reads arena c i) {fuel : ℕ} (hfuel : c.nodeCount ≤ fuel) :
    Guest.evalNode arena (guestPayload payload) g fuel i =
      some (evalCondition payload context c) := by
  induction c using Condition.induction generalizing i fuel with
  | leaf c hc =>
    obtain ⟨n, rfl⟩ : ∃ n, fuel = n + 1 := ⟨fuel - 1, by have := c.nodeCount_pos; omega⟩
    simp only [Guest.evalNode, (reads_leaf hc).mp h]
    exact evalNodeBody_leafNode hg hc _
  | and cs ih =>
    simp only [Condition.nodeCount] at hfuel
    obtain ⟨n, rfl⟩ : ∃ n, fuel = n + 1 := ⟨fuel - 1, by omega⟩
    obtain ⟨js, hi, hjs⟩ := h
    simp only [Guest.evalNode, hi, Guest.evalNodeBody, evalCondition, evalAll_eq]
    refine Result.allM_eq_some (hjs.forall₂ fun c hc j hj => ih c hc hj ?_)
    have := nodeCount_le_of_mem hc
    omega
  | or cs ih =>
    simp only [Condition.nodeCount] at hfuel
    obtain ⟨n, rfl⟩ : ∃ n, fuel = n + 1 := ⟨fuel - 1, by omega⟩
    obtain ⟨js, hi, hjs⟩ := h
    simp only [Guest.evalNode, hi, Guest.evalNodeBody, evalCondition, evalAny_eq]
    refine Result.anyM_eq_some (hjs.forall₂ fun c hc j hj => ih c hc hj ?_)
    have := nodeCount_le_of_mem hc
    omega
  | not c ih =>
    simp only [Condition.nodeCount] at hfuel
    obtain ⟨n, rfl⟩ : ∃ n, fuel = n + 1 := ⟨fuel - 1, by omega⟩
    obtain ⟨j, hi, hj⟩ := h
    simp only [Guest.evalNode, hi, Guest.evalNodeBody, evalCondition]
    rw [ih hj (by omega), Option.map_some]

lemma surface_of_reads {c : Condition} {i : UInt32} (h : Reads arena c i) :
    ∃ n, arena[i.toNat]? = some n ∧ Guest.surfaceOf n = ofSurface c.surface := by
  cases c with
  | and cs =>
    obtain ⟨js, hi, -⟩ := h
    exact ⟨_, hi, rfl⟩
  | or cs =>
    obtain ⟨js, hi, -⟩ := h
    exact ⟨_, hi, rfl⟩
  | not c =>
    obtain ⟨j, hi, -⟩ := h
    exact ⟨_, hi, rfl⟩
  | _ => exact ⟨_, h, rfl⟩

end Walk

end Evaluating

end Pureflow.Wasm
