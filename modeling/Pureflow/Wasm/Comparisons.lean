import Pureflow.Lib.Doubles
import Pureflow.Wasm.Presence

/-!
Integer fields compared with integers, in both evaluators.

Equality compares the integers, but an order is read off the doubles nearest to them. Two different
integers that are rounded to one double are therefore neither below, nor equal to, nor above each
other; all other integers are compared exactly.
-/

namespace Pureflow.Wasm

open Pureflow.Types Pureflow.Core Pureflow.Lib Pureflow.Lib.Rounding Pureflow.Rules

/-- The conditions that compare a field with a scalar. -/
inductive Comparison
  | eq | gt | lt | gte | lte

def Comparison.condition (path : FieldPath) (value : Rules.ScalarValue) : Comparison → Condition
  | .eq => .fieldEq path value
  | .gt => .fieldGt path value
  | .lt => .fieldLt path value
  | .gte => .fieldGte path value
  | .lte => .fieldLte path value

/-- What comparisons of one integer with another should say. -/
structure ExactComparisons (n i : ℤ) (holds : Comparison → Prop) : Prop where
  gt : holds .gt ↔ n > i
  lt : holds .lt ↔ n < i
  gte : holds .gte ↔ n ≥ i
  lte : holds .lte ↔ n ≤ i
  one : holds .lt ∧ ¬ holds .eq ∧ ¬ holds .gt ∨ ¬ holds .lt ∧ holds .eq ∧ ¬ holds .gt ∨
    ¬ holds .lt ∧ ¬ holds .eq ∧ holds .gt
  gte_split : holds .gte ↔ holds .gt ∨ holds .eq

/-- What comparisons say that take equality from the integers and the order from elsewhere. -/
def readOff (n i : ℤ) (order : Ordering) : Comparison → Prop
  | .eq => n = i
  | .gt => order = .gt
  | .lt => order = .lt
  | .gte => order ≠ .lt
  | .lte => order ≠ .gt

/-- **An order read off rounded integers** is theirs unless they are rounded to one. -/
lemma exact_readOff_iff {n i : ℤ} :
    ExactComparisons n i (readOff n i (compare (nearest 53 n) (nearest 53 i))) ↔
      n = i ∨ nearest 53 n ≠ nearest 53 i := by
  constructor
  · intro h
    by_contra hnot
    obtain ⟨hne, hsame⟩ := not_or.mp hnot
    have horder : compare (nearest 53 n) (nearest 53 i) = .eq :=
      compare_eq_iff_eq.mpr (not_not.mp hsame)
    have hlt : ¬ n < i := h.lt.not.mp (by rw [readOff, horder]; exact Ordering.noConfusion)
    have hgt : ¬ n > i := h.gt.not.mp (by rw [readOff, horder]; exact Ordering.noConfusion)
    omega
  · intro h
    rcases lt_trichotomy n i with hlt | rfl | hgt
    · have hle := nearest_mono (show 0 < 53 by omega) hlt.le
      have horder : compare (nearest 53 n) (nearest 53 i) = .lt :=
        compare_lt_iff_lt.mpr (lt_of_le_of_ne hle (h.resolve_left hlt.ne))
      rw [horder]
      constructor <;> simp [readOff] <;> omega
    · have horder : compare (nearest 53 n) (nearest 53 n) = .eq := compare_eq_iff_eq.mpr rfl
      rw [horder]
      constructor <;> simp [readOff]
    · have hle := nearest_mono (show 0 < 53 by omega) (le_of_lt hgt)
      have horder : compare (nearest 53 n) (nearest 53 i) = .gt :=
        compare_gt_iff_gt.mpr (lt_of_le_of_ne hle (h.resolve_left hgt.ne').symm)
      rw [horder]
      constructor <;> simp [readOff] <;> omega

lemma exact_congr {n i : ℤ} {holds holds' : Comparison → Prop} (h : ∀ c, holds c ↔ holds' c) :
    ExactComparisons n i holds ↔ ExactComparisons n i holds' := by
  obtain rfl : holds = holds' := funext fun c => propext (h c)
  rfl

section Evaluators

variable {payload : PacketPayload} {path : FieldPath} {number : Json.Number} {n : Int64}

lemma standsFor_asF64 (hn : number.asI64 = some n) :
    Doubles.StandsFor number.asF64.unpack (nearest 53 n.toInt) := by
  cases number with
  | posInt u =>
    unfold Json.Number.asI64 at hn
    dsimp only at hn
    split_ifs at hn with hsmall
    obtain rfl := Option.some.inj hn
    have hvalue : u.toInt64.toInt = u.toNat :=
      BitVec.toInt_eq_toNat_of_lt (show 2 * u.toNat < 2 ^ 64 by omega)
    rw [hvalue]
    exact Doubles.standsFor_ofUInt64 u
  | negInt m =>
    obtain rfl := Option.some.inj hn
    exact Doubles.standsFor_ofInt64 m
  | float x => cases hn

lemma jsonValueCmpScalar_integer (hn : number.asI64 = some n) (i : Int64) :
    jsonValueCmpScalar (.number number) (.integer i) =
      some (compare (nearest 53 n.toInt) (nearest 53 i.toInt)) :=
  Doubles.compare_standsFor (standsFor_asF64 hn) (Doubles.standsFor_ofInt64 i)

/-- **The native conditions** on an integer field. -/
lemma evalCondition_comparison (hfield : resolvePayload payload path = some (.number number))
    (hn : number.asI64 = some n) (context : Rules.EvalContext) (i : Int64) (c : Comparison) :
    evalCondition payload context (c.condition path (.integer i)) = true ↔
      readOff n.toInt i.toInt (compare (nearest 53 n.toInt) (nearest 53 i.toInt)) c := by
  have hcmp := jsonValueCmpScalar_integer hn i
  cases c with
  | eq => simp [Comparison.condition, evalCondition, hfield, jsonValueEqScalar, hn, readOff,
      Int64.toInt_inj]
  | _ => simp [Comparison.condition, evalCondition, hfield, hcmp, readOff]

/-- **The guest's nodes** for the comparisons say the same, in every arena and context. -/
lemma returns_comparison (context : Rules.EvalContext) (ctx : Wit.EvalContext)
    {nodes : List Wit.ConditionNode} {index : UInt32} {value : Rules.ScalarValue} {c : Comparison}
    (hnode : nodes[index.toNat]? = some (leafNode (c.condition path value))) :
    Guest.Returns nodes (guestPayload payload) ctx index true ↔
      evalCondition payload context (c.condition path value) = true := by
  have hreturns : Guest.Returns nodes (guestPayload payload) ctx index
      (evalCondition payload context (c.condition path value)) := by
    refine ⟨1, ?_⟩
    unfold Guest.evalNode
    rw [hnode]
    cases c <;> simp only [Comparison.condition, leafNode, Guest.evalNodeBody, evalCondition,
      resolve_eq, Result.getD_map_false, jsonEq_ofScalar, jsonCmp_ofScalar]
  constructor
  · intro h
    exact hreturns.unique h
  · intro h
    exact h ▸ hreturns

end Evaluators

/-- **When integers are compared exactly.** For every integer field and every integer, all the
comparisons agree with the order of the two, in either evaluator, if and only if the two are equal
or are not rounded to one double. -/
theorem integer_comparisons_iff (payload : PacketPayload) (context : Rules.EvalContext)
    (ctx : Wit.EvalContext) (path : FieldPath) (number : Json.Number) (n i : Int64)
    (hfield : resolvePayload payload path = some (.number number))
    (hn : number.asI64 = some n) :
    (ExactComparisons n.toInt i.toInt
        (fun c => evalCondition payload context (c.condition path (.integer i)) = true) ↔
      n.toInt = i.toInt ∨ nearest 53 n.toInt ≠ nearest 53 i.toInt) ∧
    ((∀ (nodes : List Wit.ConditionNode) (index : Comparison → UInt32),
        (∀ c, nodes[(index c).toNat]? = some (leafNode (c.condition path (.integer i)))) →
        ExactComparisons n.toInt i.toInt
          (fun c => Guest.Returns nodes (guestPayload payload) ctx (index c) true)) ↔
      n.toInt = i.toInt ∨ nearest 53 n.toInt ≠ nearest 53 i.toInt) := by
  have hnative : ExactComparisons n.toInt i.toInt
      (fun c => evalCondition payload context (c.condition path (.integer i)) = true) ↔
        n.toInt = i.toInt ∨ nearest 53 n.toInt ≠ nearest 53 i.toInt := by
    rw [exact_congr fun c => evalCondition_comparison hfield hn context i c]
    exact exact_readOff_iff
  have hguest (nodes : List Wit.ConditionNode) (index : Comparison → UInt32)
      (hnodes : ∀ c, nodes[(index c).toNat]? = some (leafNode (c.condition path (.integer i)))) :
      ExactComparisons n.toInt i.toInt
          (fun c => Guest.Returns nodes (guestPayload payload) ctx (index c) true) ↔
        n.toInt = i.toInt ∨ nearest 53 n.toInt ≠ nearest 53 i.toInt := by
    rw [exact_congr fun c => returns_comparison context ctx (hnodes c)]
    exact hnative
  refine ⟨hnative, fun h => ?_, fun h nodes index hnodes => (hguest nodes index hnodes).mpr h⟩
  -- an arena that has all the comparisons
  let nodes := [Comparison.eq, .gt, .lt, .gte, .lte].map fun c =>
    leafNode (c.condition path (.integer i))
  let index : Comparison → UInt32
    | .eq => 0
    | .gt => 1
    | .lt => 2
    | .gte => 3
    | .lte => 4
  have hnodes (c : Comparison) :
      nodes[(index c).toNat]? = some (leafNode (c.condition path (.integer i))) := by
    cases c <;> rfl
  exact (hguest nodes index hnodes).mp (h nodes index hnodes)

section Sample

/-- A control payload with one integer field. -/
def amountPayload (n : UInt64) : PacketPayload :=
  .control (.object [("amount", .number (.posInt n))])

lemma resolve_amount (n : UInt64) :
    resolvePayload (amountPayload n) ⟨"amount"⟩ = some (.number (.posInt n)) := by
  have hsegments : Text.split "amount" '.' = ["amount"] := by decide
  simp [amountPayload, resolvePayload, FieldPath.resolve, hsegments, FieldPath.resolve.go,
    Json.Value.get]

theorem integer_comparisons_iff_sample :
    ExactComparisons 120 100 fun c => evalCondition (amountPayload 120) emptyContext
      (c.condition ⟨"amount"⟩ (.integer 100)) = true := by
  have hfar : nearest 53 120 ≠ nearest 53 100 := by decide
  exact (integer_comparisons_iff (amountPayload 120) emptyContext ⟨.bytes [], [], none, none, 0, "w",
    []⟩ ⟨"amount"⟩ (.posInt 120) 120 100 (resolve_amount 120) rfl).1.mpr (.inr hfar)

/-- **A large integer is not above the one before it**: they are rounded to the same double, so the
field is neither below, nor equal to, nor above the scalar, and yet not below it. -/
theorem large_integers_incomparable :
    let n : ℤ := 9007199254740993
    let i : ℤ := 9007199254740992
    let holds (c : Comparison) : Prop :=
      evalCondition (amountPayload 9007199254740993) emptyContext
        (c.condition ⟨"amount"⟩ (.integer 9007199254740992)) = true
    n > i ∧ ¬ holds .lt ∧ ¬ holds .eq ∧ ¬ holds .gt ∧ holds .gte ∧ holds .lte ∧
      ¬ ExactComparisons n i holds := by
  intro n i holds
  have hsame : compare (nearest 53 n) (nearest 53 i) = .eq := by decide
  have hn : (Json.Number.posInt 9007199254740993).asI64 = some 9007199254740993 := by decide
  have hholds (c : Comparison) : holds c ↔ readOff n i .eq c := by
    rw [← hsame]
    exact evalCondition_comparison (resolve_amount _) hn emptyContext _ c
  have hne : n ≠ i := by decide
  have hgt : ¬ holds .gt := (hholds .gt).not.mpr Ordering.noConfusion
  refine ⟨by decide, (hholds .lt).not.mpr Ordering.noConfusion, (hholds .eq).not.mpr hne,
    hgt, (hholds .gte).mpr Ordering.noConfusion, (hholds .lte).mpr Ordering.noConfusion, ?_⟩
  intro h
  exact hgt (h.gt.mpr (by decide))

end Sample

end Pureflow.Wasm
