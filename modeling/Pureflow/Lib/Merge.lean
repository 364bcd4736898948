import Mathlib

/-!
Merges of lists: every element of the lists is taken once, and those of one list in its order.

A list whose elements name the list they are from is a merge of the parts with one name each.
-/

namespace Pureflow.Lib

variable {α κ : Type}

/-- The lists can be taken apart, an element at a time off the front of one of them, in this
order. -/
inductive Merge : List (List α) → List α → Prop
  | nil {lists : List (List α)} : (∀ list ∈ lists, list = []) → Merge lists []
  | cons {before after : List (List α)} {a : α} {rest merged : List α} :
    Merge (before ++ rest :: after) merged → Merge (before ++ (a :: rest) :: after) (a :: merged)

lemma Merge.length_eq {lists : List (List α)} {merged : List α} (h : Merge lists merged) :
    merged.length = (lists.map List.length).sum := by
  induction h with
  | @nil lists hall =>
    have hzero : ∀ n ∈ lists.map List.length, n = 0 := by
      intro n hn
      obtain ⟨list, hlist, rfl⟩ := List.mem_map.mp hn
      rw [hall list hlist, List.length_nil]
    exact (List.sum_eq_zero hzero).symm
  | cons _ ih =>
    simp only [List.map_append, List.map_cons, List.sum_append, List.sum_cons,
      List.length_cons] at ih ⊢
    omega

lemma Merge.eq_of_single {list merged : List α} (h : Merge [list] merged) : merged = list := by
  generalize hlists : [list] = lists at h
  induction h generalizing list with
  | nil hall => exact (hall list (hlists ▸ List.mem_singleton_self list)).symm
  | @cons before after a rest merged _ ih =>
    obtain ⟨rfl, rfl, rfl⟩ : before = [] ∧ list = a :: rest ∧ after = [] := by
      rcases before with _ | ⟨first, before⟩
      · obtain ⟨rfl, hafter⟩ := List.cons.inj hlists
        exact ⟨rfl, rfl, hafter.symm⟩
      · obtain ⟨-, hrest⟩ := List.cons.inj hlists
        exact absurd hrest (by simp)
    rw [ih rfl]

lemma Merge.unique_of_single {lists : List (List α)} {merged merged' : List α}
    (hsingle : lists.length ≤ 1) (h : Merge lists merged) (h' : Merge lists merged') :
    merged = merged' := by
  rcases lists with _ | ⟨list, _ | ⟨other, rest⟩⟩
  · rw [List.length_eq_zero_iff.mp h.length_eq, List.length_eq_zero_iff.mp h'.length_eq]
  · rw [h.eq_of_single, h'.eq_of_single]
  · rw [List.length_cons, List.length_cons] at hsingle
    omega

lemma nodup_of_single {list : List α} (hsingle : list.length ≤ 1) : list.Nodup := by
  rcases list with _ | ⟨a, _ | ⟨b, rest⟩⟩
  · exact List.nodup_nil
  · exact List.nodup_singleton a
  · rw [List.length_cons, List.length_cons] at hsingle
    omega

section Keyed

variable [DecidableEq κ]

/-- The elements with this key. -/
def withKey (key : κ) (l : List (κ × α)) : List α := (l.filter (·.1 = key)).map Prod.snd

@[simp] lemma withKey_nil (key : κ) : withKey key ([] : List (κ × α)) = [] := rfl

@[simp] lemma withKey_append (key : κ) (l l' : List (κ × α)) :
    withKey key (l ++ l') = withKey key l ++ withKey key l' := by
  simp [withKey]

@[simp] lemma withKey_cons_self (key : κ) (a : α) (l : List (κ × α)) :
    withKey key ((key, a) :: l) = a :: withKey key l := by
  simp [withKey]

lemma withKey_cons_of_ne {key other : κ} (h : other ≠ key) (a : α) (l : List (κ × α)) :
    withKey key ((other, a) :: l) = withKey key l := by
  simp [withKey, h]

lemma withKey_filter {key : κ} {keys : List κ} (h : key ∈ keys) (l : List (κ × α)) :
    withKey key (l.filter (·.1 ∈ keys)) = withKey key l := by
  rw [withKey, List.filter_filter]
  congr 1
  refine List.filter_congr fun e _ => ?_
  by_cases he : e.1 = key
  · simp [he, h]
  · simp [he]

/-- **A list is the merge of its parts**, one for each key. -/
theorem merge_withKey {keys : List κ} (hnodup : keys.Nodup) {l : List (κ × α)}
    (h : ∀ e ∈ l, e.1 ∈ keys) : Merge (keys.map (withKey · l)) (l.map Prod.snd) := by
  induction l with
  | nil => exact .nil (by simp)
  | cons e rest ih =>
    obtain ⟨key, a⟩ := e
    obtain ⟨hkey, hrest⟩ := List.forall_mem_cons.mp h
    obtain ⟨before, after, rfl⟩ := List.append_of_mem hkey
    have hsame (other : κ) (hother : other ∈ before ∨ other ∈ after) :
        withKey other ((key, a) :: rest) = withKey other rest := by
      refine withKey_cons_of_ne ?_ a rest
      rintro rfl
      rw [List.nodup_middle, List.nodup_cons, List.mem_append] at hnodup
      exact hnodup.1 hother
    have hmerge := ih hrest
    rw [List.map_append, List.map_cons] at hmerge ⊢
    rw [List.map_congr_left fun other hother => hsame other (.inl hother),
      List.map_congr_left (l := after) fun other hother => hsame other (.inr hother),
      withKey_cons_self]
    exact .cons hmerge

end Keyed

end Pureflow.Lib
