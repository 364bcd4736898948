import Mathlib

/-!
Directed graphs given by a list of arcs, repetitions allowed.

A relation is acyclic when no node reaches itself. The arcs that enter a node are counted
with repetition, the predecessors already listed without; the two counts agree exactly when
every predecessor is listed and no arc into the node is repeated. That equality is what a
source-removal sort waits for.
-/

namespace Pureflow.Lib.Digraph

open Relation

variable {α : Type*}

/-- No node reaches itself along one or more arcs. -/
def Acyclic (r : α → α → Prop) : Prop := ∀ v, ¬ TransGen r v v

lemma acyclic_of_rank {r : α → α → Prop} (rank : α → ℕ) (h : ∀ u v, r u v → rank u < rank v) :
    Acyclic r := by
  have hlt : ∀ {u v}, TransGen r u v → rank u < rank v := by
    intro u v huv
    induction huv with
    | single h1 => exact h _ _ h1
    | tail _ h1 ih => exact ih.trans (h _ _ h1)
  exact fun v hv => lt_irrefl _ (hlt hv)

lemma Acyclic.exists_source {r : α → α → Prop} (h : Acyclic r) {s : Set α} (hs : s.Finite)
    (hne : s.Nonempty) : ∃ v ∈ s, ∀ u ∈ s, ¬ r u v := by
  have hstrict : IsStrictOrder α (TransGen r) :=
    { irrefl := h, trans := fun _ _ _ => TransGen.trans }
  have hwf : s.WellFoundedOn (TransGen r) := hs.wellFoundedOn
  obtain ⟨v, hv⟩ := hne
  obtain ⟨w, -, hmin⟩ := WellFounded.has_min hwf Set.univ ⟨⟨v, hv⟩, trivial⟩
  exact ⟨w, w.2, fun u hu hr => hmin ⟨u, hu⟩ trivial (TransGen.single hr)⟩

lemma Acyclic.exists_sink {r : α → α → Prop} (h : Acyclic r) {s : Set α} (hs : s.Finite)
    (hne : s.Nonempty) : ∃ v ∈ s, ∀ u ∈ s, ¬ r v u := by
  have hswap : Acyclic (Function.swap r) := fun v hv => h v (transGen_swap.mp hv)
  exact hswap.exists_source hs hne

/-- **Values along an acyclic graph shrink** if one of them does and only those right behind it
grow: this cannot go on for ever. -/
theorem Acyclic.wellFounded_shrinks [Finite α] {M : Type*} {r : α → α → Prop} (h : Acyclic r)
    {lt : M → M → Prop} (hlt : WellFounded lt) : WellFounded fun f g : α → M =>
      ∃ v, lt (f v) (g v) ∧ ∀ u, u ≠ v → ¬ r v u → f u = g u := by
  have hpartial : IsPartialOrder α (ReflTransGen r) :=
    { refl := fun _ => .refl
      trans := fun _ _ _ => .trans
      antisymm := fun u v huv hvu => by
        rcases reflTransGen_iff_eq_or_transGen.mp huv with heq | huv
        · exact heq.symm
        · exact absurd (huv.trans_left hvu) (h u) }
  obtain ⟨before, hlinear, hbefore⟩ := extend_partialOrder (ReflTransGen r)
  have hstrict : IsStrictTotalOrder α fun u v => before u v ∧ u ≠ v :=
    { irrefl := fun u hu => hu.2 rfl
      trans := fun u v w huv hvw => ⟨hlinear.trans _ _ _ huv.1 hvw.1, fun hsame =>
        hvw.2 (hlinear.antisymm _ _ hvw.1 (hsame ▸ huv.1))⟩
      trichotomous := fun u v hnone hnone' => by
        by_contra hne
        rcases hlinear.total u v with huv | hvu
        · exact hnone ⟨huv, hne⟩
        · exact hnone' ⟨hvu, Ne.symm hne⟩ }
  refine (Pi.Lex.wellFounded (fun u v => before u v ∧ u ≠ v) fun _ : α => hlt).mono ?_
  rintro f g ⟨v, hless, hsame⟩
  refine ⟨v, fun u hu => hsame u hu.2 fun huv => ?_, hless⟩
  exact hu.2 (hlinear.antisymm _ _ hu.1 (hbefore _ _ (.single huv)))
/-- Below a node of a cycle one may go down for ever, within any set that holds the cycles. -/
lemma not_cyclic_of_acc {r : α → α → Prop} {s : Set α} (hs : ∀ v, TransGen r v v → v ∈ s) {v : α}
    (h : Acc (fun w v => r v w ∧ w ∈ s) v) : ¬ TransGen r v v := by
  induction h with
  | intro v _ ih =>
    intro hv
    obtain ⟨w, hvw, hwv⟩ := TransGen.head'_iff.mp hv
    have hw : TransGen r w w := TransGen.tail' hwv hvw
    exact ih w ⟨hvw, hs w hw⟩ hw

variable [DecidableEq α] (arcs : List (α × α))

/-- How many arcs enter a node, repeated arcs counted each time. -/
def indegree (v : α) : ℕ := arcs.countP (fun p => p.2 = v)

/-- How many of the listed nodes have an arc to a node. -/
def listedPreds (order : List α) (v : α) : ℕ := order.countP (fun u => (u, v) ∈ arcs)

/-- The predecessors of a node, once for every arc. -/
def preds (v : α) : List α := (arcs.filter (fun p => p.2 = v)).map Prod.fst

@[simp] lemma mem_preds {u v : α} : u ∈ preds arcs v ↔ (u, v) ∈ arcs := by
  simp [preds]

lemma length_preds (v : α) : (preds arcs v).length = indegree arcs v := by
  simp [preds, indegree, List.countP_eq_length_filter]

lemma count_preds (u v : α) : (preds arcs v).count u = arcs.count (u, v) := by
  rw [List.count, List.count, preds, List.countP_map, List.countP_filter]
  refine List.countP_congr fun p _ => ?_
  simp [Prod.ext_iff]

lemma nodup_arcs : arcs.Nodup ↔ ∀ v, (preds arcs v).Nodup := by
  simp only [List.nodup_iff_count_le_one, count_preds]
  exact ⟨fun h v u => h (u, v), fun h p => h p.2 p.1⟩

variable {arcs} {order : List α} {v : α}

lemma listedPreds_eq_card (ho : order.Nodup) :
    listedPreds arcs order v = (order.toFinset ∩ (preds arcs v).toFinset).card := by
  unfold listedPreds
  rw [List.countP_eq_length_filter, ← List.toFinset_card_of_nodup (ho.filter _)]
  congr 1
  ext u
  simp

lemma card_preds_le : (preds arcs v).toFinset.card ≤ indegree arcs v := by
  rw [← length_preds]
  exact List.toFinset_card_le _

lemma listedPreds_le (ho : order.Nodup) : listedPreds arcs order v ≤ indegree arcs v := by
  rw [listedPreds_eq_card ho]
  exact (Finset.card_le_card Finset.inter_subset_right).trans card_preds_le

/-- **When a node becomes ready.** Its arcs are all accounted for by listed predecessors
exactly when no arc into it is repeated and every predecessor is listed. -/
theorem indegree_eq_listedPreds (ho : order.Nodup) :
    indegree arcs v = listedPreds arcs order v ↔
      (preds arcs v).Nodup ∧ ∀ u, (u, v) ∈ arcs → u ∈ order := by
  have hinter : order.toFinset ∩ (preds arcs v).toFinset ⊆ (preds arcs v).toFinset :=
    Finset.inter_subset_right
  rw [listedPreds_eq_card ho]
  constructor
  · intro h
    have h1 := Finset.card_le_card hinter
    have h2 : (preds arcs v).toFinset.card ≤ indegree arcs v := card_preds_le
    have heq := Finset.eq_of_subset_of_card_le hinter (by omega)
    refine ⟨?_, fun u hu => ?_⟩
    · rw [← Multiset.coe_nodup, ← Multiset.toFinset_card_eq_card_iff_nodup]
      change (preds arcs v).toFinset.card = (preds arcs v).length
      rw [length_preds]; omega
    · have hmem : u ∈ (preds arcs v).toFinset := by simpa using hu
      rw [← heq] at hmem
      simpa using (Finset.mem_inter.mp hmem).1
  · rintro ⟨hnd, hall⟩
    rw [Finset.inter_eq_right.mpr, List.toFinset_card_of_nodup hnd, length_preds]
    intro u hu
    have : (u, v) ∈ arcs := by simpa using hu
    simpa using hall u this

@[simp] lemma listedPreds_append_singleton (u : α) :
    listedPreds arcs (order ++ [u]) v =
      listedPreds arcs order v + if (u, v) ∈ arcs then 1 else 0 := by
  simp [listedPreds, List.countP_append, List.countP_cons]

end Pureflow.Lib.Digraph
