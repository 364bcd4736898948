import Mathlib

/-!
The part of a list up to the first element with a property, that element included: what a search
looks at.
-/

namespace Pureflow.Lib

section UpTo

variable {α : Type*} {p : α → Bool} {a : α} {l : List α}

/-- The elements up to the first one with the property, with that one. -/
def upTo (p : α → Bool) (l : List α) : List α := l.takeWhile (!p ·) ++ (l.find? p).toList

@[simp] lemma upTo_nil : upTo p [] = [] := rfl

lemma upTo_cons_pos (h : p a = true) (l : List α) : upTo p (a :: l) = [a] := by
  simp [upTo, h]

lemma upTo_cons_neg (h : p a = false) (l : List α) : upTo p (a :: l) = a :: upTo p l := by
  simp [upTo, h]

/-- Either no element has the property, or the last one looked at has it. -/
lemma upTo_cases (p : α → Bool) (l : List α) :
    (l.find? p = none ∧ upTo p l = l) ∨
    ∃ before a after, l = before ++ a :: after ∧ l.find? p = some a ∧ upTo p l = before ++ [a] := by
  cases hfind : l.find? p with
  | none =>
    have hall : ∀ a ∈ l, (!p a) = true := by
      intro a ha
      simpa using List.find?_eq_none.mp hfind a ha
    refine .inl ⟨rfl, ?_⟩
    rw [upTo, hfind, List.takeWhile_eq_self_iff.mpr hall, Option.toList_none, List.append_nil]
  | some a =>
    obtain ⟨hp, before, after, hl, hbefore⟩ := List.find?_eq_some_iff_append.mp hfind
    refine .inr ⟨before, a, after, hl, rfl, ?_⟩
    have htakeWhile : l.takeWhile (!p ·) = before := by
      rw [hl, List.takeWhile_append_of_pos (by simpa using hbefore),
        List.takeWhile_cons_of_neg (by simp [hp]), List.append_nil]
    rw [upTo, hfind, htakeWhile, Option.toList_some]

/-- **The search looks at every element** if and only if none before the last has the property. -/
lemma length_upTo_eq_iff : l.length = (upTo p l).length ↔ ∀ a ∈ l.dropLast, p a = false := by
  induction l with
  | nil => simp
  | cons a l ih =>
    cases hp : p a with
    | true =>
      rw [upTo_cons_pos hp]
      cases l with
      | nil => simp
      | cons b l => simp [hp]
    | false =>
      rw [upTo_cons_neg hp, List.length_cons, List.length_cons, Nat.succ_inj, ih]
      cases l with
      | nil => simp
      | cons b l => simp [hp]

end UpTo

end Pureflow.Lib
