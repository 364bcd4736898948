import Pureflow.Rules.Spec
import Pureflow.Wasm.Arena

/-!
Whether a field is there, in both evaluators.

A field exists if it is present and not null, and is absent if it is missing or null: so it is
written beside the two conditions, and they should exclude each other. Both evaluators ask of an
existing field only that its path resolves. A null field is then both, and any other field is
exactly one of the two.
-/

namespace Pureflow.Wasm

open Std Pureflow.Types Pureflow.Core Pureflow.Lib Pureflow.Rules

/-- A condition tree with a hole. -/
inductive Frame
  | hole
  | and (before : List Condition) (frame : Frame) (after : List Condition)
  | or (before : List Condition) (frame : Frame) (after : List Condition)
  | not (frame : Frame)

/-- The tree with a condition in the hole. -/
def Frame.fill (c : Condition) : Frame → Condition
  | .hole => c
  | .and before frame after => .and (before ++ frame.fill c :: after)
  | .or before frame after => .or (before ++ frame.fill c :: after)
  | .not frame => .not (frame.fill c)

/-- The walk of an arena from an index returns, with a value. -/
def Guest.Returns (nodes : List Wit.ConditionNode) (payload : Option Json.Value)
    (ctx : Wit.EvalContext) (index : UInt32) (value : Bool) : Prop :=
  ∃ fuel, Guest.evalNode nodes payload ctx fuel index = some value

section Native

variable {payload : PacketPayload} {context : Rules.EvalContext} {path : FieldPath}

lemma fieldAbsent_eq (h : resolvePayload payload path ≠ some .null) :
    evalCondition payload context (.fieldAbsent path) =
      !evalCondition payload context (.fieldExists path) := by
  unfold evalCondition
  cases hresolved : resolvePayload payload path with
  | none => rfl
  | some v =>
    have hnull : v.isNull = false := by
      cases v with
      | null => exact absurd hresolved h
      | _ => rfl
    simp [hnull]

lemma null_exists_absent (context : Rules.EvalContext)
    (h : resolvePayload payload path = some .null) :
    evalCondition payload context (.fieldExists path) = true ∧
      evalCondition payload context (.fieldAbsent path) = true := by
  simp [evalCondition, h, Json.Value.isNull]

/-- What is put in a hole matters only through its value. -/
lemma evalCondition_fill {c d : Condition}
    (h : evalCondition payload context c = evalCondition payload context d) (frame : Frame) :
    evalCondition payload context (frame.fill c) = evalCondition payload context (frame.fill d) := by
  induction frame with
  | hole => exact h
  | and before frame after ih => simp [Frame.fill, evalCondition, evalAll_eq, ih]
  | or before frame after ih => simp [Frame.fill, evalCondition, evalAny_eq, ih]
  | not frame ih => simp [Frame.fill, evalCondition, ih]

end Native

section Guest

open Guest

variable {payload : Option Json.Value} {ctx : Wit.EvalContext}

lemma allM_mono {f g : UInt32 → Option Bool} (h : ∀ j b, f j = some b → g j = some b)
    {children : List UInt32} {value : Bool} (hvalue : children.allM f = some value) :
    children.allM g = some value := by
  induction children with
  | nil => exact hvalue
  | cons child rest ih =>
    rw [List.allM, Option.bind_eq_bind, Option.bind_eq_some_iff] at hvalue ⊢
    obtain ⟨b, hb, hvalue⟩ := hvalue
    refine ⟨b, h child b hb, ?_⟩
    cases b with
    | true => exact ih hvalue
    | false => exact hvalue

lemma anyM_mono {f g : UInt32 → Option Bool} (h : ∀ j b, f j = some b → g j = some b)
    {children : List UInt32} {value : Bool} (hvalue : children.anyM f = some value) :
    children.anyM g = some value := by
  induction children with
  | nil => exact hvalue
  | cons child rest ih =>
    rw [List.anyM, Option.bind_eq_bind, Option.bind_eq_some_iff] at hvalue ⊢
    obtain ⟨b, hb, hvalue⟩ := hvalue
    refine ⟨b, h child b hb, ?_⟩
    cases b with
    | true => exact hvalue
    | false => exact ih hvalue

lemma evalNodeBody_mono {f g : UInt32 → Option Bool} (h : ∀ j b, f j = some b → g j = some b)
    {node : Wit.ConditionNode} {value : Bool}
    (hvalue : evalNodeBody payload ctx f node = some value) :
    evalNodeBody payload ctx g node = some value := by
  cases node with
  | andNode children => exact allM_mono h hvalue
  | orNode children => exact anyM_mono h hvalue
  | notNode child =>
    obtain ⟨b, hb, rfl⟩ := Option.map_eq_some_iff.mp hvalue
    exact Option.map_eq_some_iff.mpr ⟨b, h child b hb, rfl⟩
  | _ => exact hvalue

lemma evalNode_succ {nodes : List Wit.ConditionNode} {fuel : ℕ} {index : UInt32} {value : Bool}
    (h : evalNode nodes payload ctx fuel index = some value) :
    evalNode nodes payload ctx (fuel + 1) index = some value := by
  induction fuel generalizing index value with
  | zero => cases h
  | succ fuel ih =>
    unfold evalNode at h ⊢
    cases hnode : nodes[index.toNat]? with
    | none => simpa [hnode] using h
    | some node =>
      rw [hnode] at h
      exact evalNodeBody_mono (fun j b => ih) h

lemma evalNode_le {nodes : List Wit.ConditionNode} {fuel more : ℕ} {index : UInt32} {value : Bool}
    (hle : fuel ≤ more) (h : evalNode nodes payload ctx fuel index = some value) :
    evalNode nodes payload ctx more index = some value := by
  induction more, hle using Nat.le_induction with
  | base => exact h
  | succ more _ ih => exact evalNode_succ ih

lemma Guest.Returns.unique {nodes : List Wit.ConditionNode} {index : UInt32} {value value' : Bool}
    (h : Returns nodes payload ctx index value) (h' : Returns nodes payload ctx index value') :
    value = value' := by
  obtain ⟨fuel, hfuel⟩ := h
  obtain ⟨fuel', hfuel'⟩ := h'
  have hmax := evalNode_le (le_max_left fuel fuel') hfuel
  have hmax' := evalNode_le (le_max_right fuel fuel') hfuel'
  exact Option.some.inj (hmax.symm.trans hmax')

variable {nodes : List Wit.ConditionNode} {path : String} {i j : UInt32}

lemma evalNode_exists (hj : nodes[j.toNat]? = some (.fieldExists path)) (fuel : ℕ) :
    evalNode nodes payload ctx (fuel + 1) j = some (resolve payload path).isSome := by
  unfold evalNode
  rw [hj]
  rfl

lemma evalNode_absent (hi : nodes[i.toNat]? = some (.fieldAbsent path)) (fuel : ℕ) :
    evalNode nodes payload ctx (fuel + 1) i =
      some (((resolve payload path).map Json.Value.isNull).getD true) := by
  unfold evalNode
  rw [hi]
  rfl

lemma returns_exists (hj : nodes[j.toNat]? = some (.fieldExists path)) (value : Bool) :
    Returns nodes payload ctx j value ↔ (resolve payload path).isSome = value := by
  have hreturns : Returns nodes payload ctx j (resolve payload path).isSome :=
    ⟨1, evalNode_exists hj 0⟩
  exact ⟨hreturns.unique, fun h => h ▸ hreturns⟩

lemma returns_absent (hi : nodes[i.toNat]? = some (.fieldAbsent path)) (value : Bool) :
    Returns nodes payload ctx i value ↔
      ((resolve payload path).map Json.Value.isNull).getD true = value := by
  have hreturns : Returns nodes payload ctx i
      (((resolve payload path).map Json.Value.isNull).getD true) := ⟨1, evalNode_absent hi 0⟩
  exact ⟨hreturns.unique, fun h => h ▸ hreturns⟩

lemma absent_value (h : resolve payload path ≠ some .null) :
    ((resolve payload path).map Json.Value.isNull).getD true = !(resolve payload path).isSome := by
  cases hresolved : resolve payload path with
  | none => rfl
  | some v =>
    cases v with
    | null => exact absurd hresolved h
    | _ => rfl

/-- With the negated node replaced, the arena gives the same values; only what the negation spent
on its child is spared. -/
lemma returns_set_iff (hi : nodes[i.toNat]? = some (.notNode j))
    (hj : nodes[j.toNat]? = some (.fieldExists path)) (h : resolve payload path ≠ some .null)
    (index : UInt32) (value : Bool) :
    Returns nodes payload ctx index value ↔
      Returns (nodes.set i.toNat (.fieldAbsent path)) payload ctx index value := by
  have hlt : i.toNat < nodes.length := (List.getElem?_eq_some_iff.mp hi).1
  have hset : (nodes.set i.toNat (.fieldAbsent path))[i.toNat]? = some (.fieldAbsent path) :=
    List.getElem?_set_self hlt
  constructor
  · rintro ⟨fuel, hfuel⟩
    refine ⟨fuel, ?_⟩
    induction fuel generalizing index value with
    | zero => cases hfuel
    | succ fuel ih =>
      by_cases hindex : index.toNat = i.toNat
      · obtain rfl : index = i := UInt32.toNat_inj.mp hindex
        rw [evalNode_absent hset, absent_value h]
        unfold evalNode at hfuel
        rw [hi] at hfuel
        obtain ⟨b, hb, rfl⟩ := Option.map_eq_some_iff.mp hfuel
        -- the child was evaluated, so there was fuel for it
        cases fuel with
        | zero => cases hb
        | succ fuel =>
          rw [evalNode_exists hj] at hb
          rw [← Option.some.inj hb]
      · unfold evalNode at hfuel ⊢
        rw [List.getElem?_set_ne (Ne.symm hindex)]
        cases hnode : nodes[index.toNat]? with
        | none => simpa [hnode] using hfuel
        | some node =>
          rw [hnode] at hfuel
          exact evalNodeBody_mono (fun k b => ih k b) hfuel
  · rintro ⟨fuel, hfuel⟩
    refine ⟨fuel + 1, ?_⟩
    induction fuel generalizing index value with
    | zero => cases hfuel
    | succ fuel ih =>
      by_cases hindex : index.toNat = i.toNat
      · obtain rfl : index = i := UInt32.toNat_inj.mp hindex
        rw [evalNode_absent hset, absent_value h] at hfuel
        unfold evalNode
        rw [hi]
        exact Option.map_eq_some_iff.mpr ⟨_, evalNode_exists hj fuel, Option.some.inj hfuel⟩
      · unfold evalNode at hfuel ⊢
        rw [List.getElem?_set_ne (Ne.symm hindex)] at hfuel
        cases hnode : nodes[index.toNat]? with
        | none => simpa [hnode] using hfuel
        | some node =>
          rw [hnode] at hfuel
          exact evalNodeBody_mono (fun k b => ih k b) hfuel

end Guest

section Main

open Guest

lemma xor_of_eq_not {a b : Bool} (h : b = !a) : Xor (a = true) (b = true) := by
  subst h
  cases a with
  | true => exact .inl ⟨rfl, nofun⟩
  | false => exact .inr ⟨rfl, nofun⟩

/-- **When the presence conditions are complementary.** For every payload and every path, exactly
one of the two conditions holds, in either evaluator, if and only if the path does not resolve to a
null. Exactly then a negated existence may be exchanged for an absence wherever it stands, in every
condition tree and in every arena of the guest. -/
theorem presence_complementary_iff (payload : PacketPayload) (path : FieldPath)
    (context : Rules.EvalContext) (ctx : Wit.EvalContext) :
    (Xor (evalCondition payload context (.fieldExists path) = true)
        (evalCondition payload context (.fieldAbsent path) = true) ↔
      resolvePayload payload path ≠ some .null) ∧
    ((∀ (nodes : List Wit.ConditionNode) (i j : UInt32),
        nodes[i.toNat]? = some (.fieldExists path.value) →
        nodes[j.toNat]? = some (.fieldAbsent path.value) →
        Xor (Returns nodes (guestPayload payload) ctx i true)
          (Returns nodes (guestPayload payload) ctx j true)) ↔
      resolvePayload payload path ≠ some .null) ∧
    ((∀ frame : Frame, evalCondition payload context (frame.fill (.not (.fieldExists path))) =
        evalCondition payload context (frame.fill (.fieldAbsent path))) ↔
      resolvePayload payload path ≠ some .null) ∧
    ((∀ (nodes : List Wit.ConditionNode) (i j : UInt32), nodes[i.toNat]? = some (.notNode j) →
        nodes[j.toNat]? = some (.fieldExists path.value) → ∀ index value,
        (Returns nodes (guestPayload payload) ctx index value ↔
          Returns (nodes.set i.toNat (.fieldAbsent path.value)) (guestPayload payload) ctx index
            value)) ↔
      resolvePayload payload path ≠ some .null) := by
  have hresolve : resolve (guestPayload payload) path.value = resolvePayload payload path :=
    resolve_eq path
  refine ⟨⟨?native, ?native'⟩, ⟨?guest, ?guest'⟩, ⟨?frames, ?frames'⟩, ⟨?arenas, ?arenas'⟩⟩
  case native =>
    intro hxor hnull
    obtain ⟨hexists, habsent⟩ := null_exists_absent context hnull
    rcases hxor with ⟨-, h⟩ | ⟨-, h⟩
    · exact h habsent
    · exact h hexists
  case native' =>
    intro h
    exact xor_of_eq_not (fieldAbsent_eq h)
  case guest =>
    intro hxor hnull
    have hxor := hxor [.fieldExists path.value, .fieldAbsent path.value] 0 1 rfl rfl
    rw [returns_exists rfl, returns_absent rfl, hresolve, hnull] at hxor
    rcases hxor with ⟨-, h⟩ | ⟨-, h⟩
    · exact h rfl
    · exact h rfl
  case guest' =>
    intro h nodes i j hi hj
    rw [returns_exists hi, returns_absent hj]
    exact xor_of_eq_not (absent_value (by rwa [hresolve]))
  case frames =>
    intro hfill hnull
    obtain ⟨hexists, habsent⟩ := null_exists_absent context hnull
    have hhole := hfill .hole
    rw [Frame.fill, Frame.fill, habsent, evalCondition, hexists] at hhole
    cases hhole
  case frames' =>
    intro h
    exact evalCondition_fill (fieldAbsent_eq h).symm
  case arenas =>
    intro hset hnull
    have hset := hset [.fieldExists path.value, .notNode 0] 1 0 rfl rfl 1 true
    have habsent : Returns [.fieldExists path.value, .fieldAbsent path.value]
        (guestPayload payload) ctx 1 true :=
      (returns_absent rfl true).mpr (by rw [hresolve, hnull]; rfl)
    have hnegated : Returns [.fieldExists path.value, .notNode 0] (guestPayload payload) ctx 1
        false := by
      refine ⟨2, ?_⟩
      have hchild : evalNode [.fieldExists path.value, .notNode 0] (guestPayload payload) ctx 1 0 =
          some true := by
        rw [evalNode_exists rfl, hresolve, hnull]
        rfl
      unfold evalNode
      exact Option.map_eq_some_iff.mpr ⟨true, hchild, rfl⟩
    cases (hset.mpr habsent).unique hnegated
  case arenas' =>
    intro h nodes i j hi hj
    exact returns_set_iff hi hj (by rwa [hresolve])

/-- **A null field both exists and is absent**, in both evaluators, and negated existence is not
absence. -/
theorem null_field_exists_and_absent :
    let payload : PacketPayload := .control (.object [("a", .null)])
    (evalCondition payload emptyContext (.fieldExists ⟨"a"⟩) = true ∧
      evalCondition payload emptyContext (.fieldAbsent ⟨"a"⟩) = true) ∧
    (∀ ctx, Returns [.fieldExists "a", .fieldAbsent "a"] (guestPayload payload) ctx 0 true ∧
      Returns [.fieldExists "a", .fieldAbsent "a"] (guestPayload payload) ctx 1 true) ∧
    evalCondition payload emptyContext (.not (.fieldExists ⟨"a"⟩)) ≠
      evalCondition payload emptyContext (.fieldAbsent ⟨"a"⟩) := by
  have hsegments : Text.split "a" '.' = ["a"] := by decide
  have hresolve : resolvePayload (.control (.object [("a", .null)])) ⟨"a"⟩ = some .null := by
    simp [resolvePayload, FieldPath.resolve, hsegments, FieldPath.resolve.go, Json.Value.get]
  have hguest : resolve (guestPayload (.control (.object [("a", .null)]))) "a" = some .null :=
    (resolve_eq ⟨"a"⟩).trans hresolve
  obtain ⟨hexists, habsent⟩ := null_exists_absent emptyContext hresolve
  refine ⟨⟨hexists, habsent⟩, fun ctx => ⟨?_, ?_⟩, ?_⟩
  · exact (returns_exists rfl true).mpr (by rw [hguest]; rfl)
  · exact (returns_absent rfl true).mpr (by rw [hguest]; rfl)
  · rw [habsent, evalCondition, hexists]
    decide

end Main

end Pureflow.Wasm
