import Mathlib

/-!
Reports on a list: some entries are reported, each at most once, in their order.

A relation says what an entry is reported with. Reports on parts of a list make up a report on the
list, and where an entry has no two reports, neither has the list.
-/

namespace Pureflow.Lib

variable {α β γ : Type*} {R : α → β → Prop} {xs xs' : List α} {ys ys' : List β}

/-- The second list reports on the entries of the first one, in their order; an entry that is
related to nothing is passed over. -/
inductive Reports (R : α → β → Prop) : List α → List β → Prop
  | nil : Reports R [] []
  | report {x : α} {y : β} {xs : List α} {ys : List β} :
      R x y → Reports R xs ys → Reports R (x :: xs) (y :: ys)
  | silent {x : α} {xs : List α} {ys : List β} :
      (∀ y, ¬ R x y) → Reports R xs ys → Reports R (x :: xs) ys

namespace Reports

lemma append (h : Reports R xs ys) (h' : Reports R xs' ys') :
    Reports R (xs ++ xs') (ys ++ ys') := by
  induction h with
  | nil => exact h'
  | report hxy _ ih => exact .report hxy ih
  | silent hx _ ih => exact .silent hx ih

lemma flatMap {cs : List γ} {f : γ → List α} {g : γ → List β}
    (h : ∀ c ∈ cs, Reports R (f c) (g c)) : Reports R (cs.flatMap f) (cs.flatMap g) := by
  induction cs with
  | nil => exact .nil
  | cons c cs ih =>
    rw [List.flatMap_cons, List.flatMap_cons]
    exact (h c List.mem_cons_self).append (ih fun c' hc' => h c' (List.mem_cons_of_mem c hc'))

lemma map {cs : List γ} {f : γ → α} {g : γ → List β} (h : ∀ c ∈ cs, Reports R [f c] (g c)) :
    Reports R (cs.map f) (cs.flatMap g) := by
  rw [List.map_eq_flatMap]
  exact flatMap h

/-- **A list has one report**, if each entry has at most one. -/
lemma unique (hR : Relator.RightUnique R) (h : Reports R xs ys) (h' : Reports R xs ys') :
    ys = ys' := by
  induction h generalizing ys' with
  | nil =>
    cases h'
    rfl
  | report hxy _ ih =>
    cases h' with
    | report hxy' hrest => rw [hR hxy hxy', ih hrest]
    | silent hx _ => exact absurd hxy (hx _)
  | silent hx _ ih =>
    cases h' with
    | report hxy' _ => exact absurd hxy' (hx _)
    | silent _ hrest => exact ih hrest

end Reports

end Pureflow.Lib
