import Mathlib

/-!
Grouping by key: values pushed into a map under their keys, and the groups of a list by a key.
-/

namespace Pureflow.Lib.Grouping

open Std

section Push

variable {K V : Type} [Ord K] [TransOrd K] [LawfulEqOrd K] [DecidableEq K]

/-- Push a value onto the group of its key, which starts empty. -/
def push (m : ExtTreeMap K (List V)) (key : K) (value : V) : ExtTreeMap K (List V) :=
  m.insert key (m[key]?.getD [] ++ [value])

lemma push_getD (m : ExtTreeMap K (List V)) (key k : K) (value : V) :
    (push m key value)[k]?.getD [] = m[k]?.getD [] ++ if key = k then [value] else [] := by
  unfold push
  rw [ExtTreeMap.getElem?_insert]
  by_cases h : key = k
  · subst h
    simp
  · simp [h]

lemma foldl_push_getD {α : Type} (key : α → K) (value : α → V) (xs : List α)
    (m : ExtTreeMap K (List V)) (k : K) :
    (xs.foldl (fun m x => push m (key x) (value x)) m)[k]?.getD [] =
      m[k]?.getD [] ++ (xs.filter (key · = k)).map value := by
  induction xs generalizing m with
  | nil => simp
  | cons x xs ih =>
    rw [List.foldl_cons, ih, push_getD, List.append_assoc]
    by_cases h : key x = k
    · simp [h]
    · simp [h]

lemma flatMap_filter_toList (m : ExtTreeMap K (List V)) (k : K) :
    (m.toList.filter (·.1 = k)).flatMap Prod.snd = m[k]?.getD [] := by
  have hdistinct : m.toList.Pairwise fun a b => a.1 ≠ b.1 :=
    ExtTreeMap.distinct_keys_toList.imp fun {a b} h heq => h (Std.compare_eq_iff_eq.mpr heq)
  have hmem (values : List V) : (k, values) ∈ m.toList ↔ m[k]? = some values :=
    ExtTreeMap.mem_toList_iff_getElem?_eq_some
  generalize m.toList = entries at hdistinct hmem
  generalize m[k]? = group at hmem
  induction entries generalizing group with
  | nil =>
    cases group with
    | none => rfl
    | some values => cases (hmem values).mpr rfl
  | cons entry rest ih =>
    obtain ⟨key, values⟩ := entry
    obtain ⟨hfirst, hrest⟩ := List.pairwise_cons.mp hdistinct
    by_cases hkey : key = k
    · -- the one entry of the key is the first one
      subst hkey
      have hnone : rest.filter (·.1 = key) = [] := by
        rw [List.filter_eq_nil_iff]
        intro other hother heq
        exact hfirst other hother (of_decide_eq_true heq).symm
      have hgroup : group = some values := (hmem values).mp List.mem_cons_self
      simp [hnone, hgroup]
    · have hmem' (values' : List V) : (k, values') ∈ rest ↔ group = some values' := by
        rw [← hmem values', List.mem_cons, Prod.mk.injEq]
        simp [Ne.symm hkey]
      simpa [hkey] using ih hrest group hmem'

/-- A map of groups without an empty one. -/
def NoEmpty (m : ExtTreeMap K (List V)) : Prop := ∀ k : K, m[k]? ≠ some []

omit [LawfulEqOrd K] [DecidableEq K] in
lemma noEmpty_empty : NoEmpty (∅ : ExtTreeMap K (List V)) := by
  intro k
  simp

omit [LawfulEqOrd K] [DecidableEq K] in
lemma NoEmpty.push {m : ExtTreeMap K (List V)} (h : NoEmpty m) (key : K) (value : V) :
    NoEmpty (push m key value) := by
  intro k
  unfold Grouping.push
  rw [ExtTreeMap.getElem?_insert]
  split_ifs with hkey
  · simp
  · exact h k

omit [DecidableEq K] in
lemma NoEmpty.ext {m m' : ExtTreeMap K (List V)} (h : NoEmpty m) (h' : NoEmpty m')
    (hgroups : ∀ k : K, m[k]?.getD [] = m'[k]?.getD []) : m = m' := by
  refine ExtTreeMap.ext_getElem? fun {k} => ?_
  have hk := hgroups k
  cases hm : m[k]? with
  | none =>
    rw [hm, Option.getD_none] at hk
    cases hm' : m'[k]? with
    | none => rfl
    | some values =>
      rw [hm', Option.getD_some] at hk
      exact absurd (hk ▸ hm') (h' k)
  | some values =>
    rw [hm, Option.getD_some] at hk
    cases hm' : m'[k]? with
    | none =>
      rw [hm', Option.getD_none] at hk
      exact absurd (hk ▸ hm) (h k)
    | some values' =>
      rw [hm', Option.getD_some] at hk
      rw [hk]

end Push

section Fresh

variable {K : Type} [Ord K] [TransOrd K]

/-- Keys that are distinct and not among those seen: what a loop that rejects repeated keys
accepts. -/
def Fresh (seen : ExtTreeSet K) (keys : List K) : Prop := keys.Nodup ∧ ∀ k ∈ keys, k ∉ seen

lemma fresh_nil (seen : ExtTreeSet K) : Fresh seen [] := by simp [Fresh]

lemma fresh_empty {keys : List K} : Fresh ∅ keys ↔ keys.Nodup := by simp [Fresh]

lemma fresh_cons [LawfulEqOrd K] {seen : ExtTreeSet K} {k : K} {keys : List K} :
    Fresh seen (k :: keys) ↔ k ∉ seen ∧ Fresh (seen.insert k) keys := by
  simp only [Fresh, List.nodup_cons, List.forall_mem_cons, ExtTreeSet.mem_insert,
    Std.compare_eq_iff_eq, not_or]
  constructor
  · rintro ⟨⟨hmem, hnd⟩, hk, hall⟩
    exact ⟨hk, hnd, fun x hx => ⟨fun heq => hmem (heq ▸ hx), hall x hx⟩⟩
  · rintro ⟨hk, hnd, hall⟩
    exact ⟨⟨fun hmem => (hall k hmem).1 rfl, hnd⟩, hk, fun x hx => (hall x hx).2⟩

end Fresh

section Index

variable {K V α : Type} [Ord K] [TransOrd K] [LawfulEqOrd K] [DecidableEq K]

/-- The map of a list of entries; a later entry replaces an earlier one of its key. -/
def ofEntries (entries : List (K × V)) : ExtTreeMap K V :=
  entries.foldl (fun m entry => m.insert entry.1 entry.2) ∅

lemma ofEntries_getElem? (entries : List (K × V)) (k : K) :
    (ofEntries entries)[k]? = (entries.reverse.find? (·.1 = k)).map Prod.snd := by
  have go (m : ExtTreeMap K V) :
      (entries.foldl (fun m entry => m.insert entry.1 entry.2) m)[k]? =
        ((entries.reverse.find? (·.1 = k)).map Prod.snd).or m[k]? := by
    induction entries generalizing m with
    | nil => simp
    | cons entry entries ih =>
      rw [List.foldl_cons, ih, ExtTreeMap.getElem?_insert]
      by_cases h : entry.1 = k
      · simp [h]
      · simp [h]
  simpa [ofEntries] using go ∅

lemma mem_of_ofEntries {entries : List (K × V)} {k : K} {v : V}
    (h : (ofEntries entries)[k]? = some v) : (k, v) ∈ entries := by
  rw [ofEntries_getElem?, Option.map_eq_some_iff] at h
  obtain ⟨⟨k', v'⟩, hfind, rfl⟩ := h
  have hkey : k' = k := by simpa using List.find?_some hfind
  subst hkey
  exact List.mem_reverse.mp (List.mem_of_find?_eq_some hfind)

lemma ofEntries_isSome {entries : List (K × V)} {k : K} {v : V} (h : (k, v) ∈ entries) :
    ∃ v', (ofEntries entries)[k]? = some v' := by
  rw [← Option.isSome_iff_exists, ofEntries_getElem?, Option.isSome_map, List.find?_isSome]
  exact ⟨(k, v), List.mem_reverse.mpr h, by simp⟩

lemma ofEntries_eq_some_iff {entries : List (K × V)} (hnd : (entries.map Prod.fst).Nodup) {k : K}
    {v : V} : (ofEntries entries)[k]? = some v ↔ (k, v) ∈ entries := by
  refine ⟨mem_of_ofEntries, fun h => ?_⟩
  obtain ⟨v', hv'⟩ := ofEntries_isSome h
  have heq : (k, v') = (k, v) := List.inj_on_of_nodup_map hnd (mem_of_ofEntries hv') h rfl
  rw [hv', Prod.mk.inj heq |>.2]

/-- Values by their keys. -/
def index (key : α → K) (xs : List α) : ExtTreeMap K α := ofEntries (xs.map fun x => (key x, x))

omit [Ord K] [TransOrd K] [LawfulEqOrd K] [DecidableEq K] in
lemma mem_index_entries {key : α → K} {xs : List α} {k : K} {x : α} :
    (k, x) ∈ xs.map (fun x => (key x, x)) ↔ x ∈ xs ∧ key x = k := by
  simp only [List.mem_map, Prod.mk.injEq]
  constructor
  · rintro ⟨y, hy, hkey, rfl⟩
    exact ⟨hy, hkey⟩
  · rintro ⟨hx, hkey⟩
    exact ⟨x, hx, hkey, rfl⟩

lemma mem_of_index {key : α → K} {xs : List α} {k : K} {x : α} (h : (index key xs)[k]? = some x) :
    x ∈ xs ∧ key x = k :=
  mem_index_entries.mp (mem_of_ofEntries h)

lemma index_isSome {key : α → K} {xs : List α} {x : α} (h : x ∈ xs) :
    ∃ y, (index key xs)[key x]? = some y :=
  ofEntries_isSome (mem_index_entries.mpr ⟨h, rfl⟩)

lemma index_eq_some_iff {key : α → K} {xs : List α} (hnd : (xs.map key).Nodup) {k : K} {x : α} :
    (index key xs)[k]? = some x ↔ x ∈ xs ∧ key x = k := by
  rw [index, ofEntries_eq_some_iff, mem_index_entries]
  rwa [List.map_map]

end Index

section Groups

variable {K α : Type} [DecidableEq K]

lemma flatMap_filter_perm {keys : List K} (hnd : keys.Nodup) (key : α → K) (xs : List α) :
    (keys.flatMap fun k => xs.filter (key · = k)).Perm (xs.filter (key · ∈ keys)) := by
  induction keys with
  | nil => simp
  | cons k keys ih =>
    obtain ⟨hk, hnd⟩ := List.nodup_cons.mp hnd
    have hfirst : xs.filter (key · = k) =
        (xs.filter (key · ∈ k :: keys)).filter (key · = k) := by
      rw [List.filter_filter]
      refine List.filter_congr fun x _ => ?_
      simp +contextual
    have hrest : xs.filter (key · ∈ keys) =
        (xs.filter (key · ∈ k :: keys)).filter (fun x => !decide (key x = k)) := by
      rw [List.filter_filter]
      refine List.filter_congr fun x _ => ?_
      by_cases hx : key x = k
      · simp [hx, hk]
      · simp [hx]
    calc (k :: keys).flatMap (fun k => xs.filter (key · = k))
        = xs.filter (key · = k) ++ keys.flatMap fun k => xs.filter (key · = k) := by simp
      _ |>.Perm (xs.filter (key · = k) ++ xs.filter (key · ∈ keys)) := (ih hnd).append_left _
      _ |>.Perm (xs.filter (key · ∈ k :: keys)) := by
        rw [hfirst, hrest]
        exact List.filter_append_perm _ _

end Groups

end Pureflow.Lib.Grouping
