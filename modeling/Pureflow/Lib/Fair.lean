import Mathlib.Data.Nat.Find
import Mathlib.Order.WellFounded

/-!
Fair runs.

A run is a sequence of states. It is fair to some of its steps if it takes one of them whenever they
stay enabled. Where each of them lowers a rank and no other step changes it, the run cannot stay.
-/

namespace Pureflow.Lib

/-- Steps that stay enabled are taken. -/
def Fair {σ : Type} (enabled : σ → Prop) (takes : σ → σ → Prop) (run : ℕ → σ) : Prop :=
  ∀ k, (∀ l, k ≤ l → enabled (run l)) → ∃ l, k ≤ l ∧ takes (run l) (run (l + 1))

section Ranks

variable {σ β : Type} {enabled : σ → Prop} {takes : σ → σ → Prop} {run : ℕ → σ}
  {r : β → β → Prop} {P : β → ℕ → Prop}

lemma lasts_until_taken {b : β}
    (hrest : ∀ k, P b k → ¬ takes (run k) (run (k + 1)) → P b (k + 1)) {k : ℕ} (h : P b k) (n : ℕ)
    (hnone : ∀ l, k ≤ l → l < k + n → ¬ takes (run l) (run (l + 1))) : P b (k + n) := by
  induction n with
  | zero => exact h
  | succ n ih =>
    refine hrest (k + n) (ih fun l hle hlt => hnone l hle (by omega)) ?_
    exact hnone (k + n) (Nat.le_add_right k n) (by omega)

/-- **A fair run does not stay** where every step it takes lowers a rank. -/
theorem Fair.not_ranked (hfair : Fair enabled takes run) (hwf : WellFounded r)
    (henabled : ∀ b k, P b k → enabled (run k))
    (hrest : ∀ b k, P b k → ¬ takes (run k) (run (k + 1)) → P b (k + 1))
    (htakes : ∀ b k, P b k → takes (run k) (run (k + 1)) → ∃ b', r b' b ∧ P b' (k + 1)) (b : β)
    (k : ℕ) : ¬ P b k := by
  induction b using hwf.induction generalizing k with
  | h b ih =>
    intro h
    by_cases hsome : ∃ n, takes (run (k + n)) (run (k + n + 1))
    · classical
      -- the first of the steps taken from here on
      have hfirst := Nat.find_spec hsome
      have hbefore : P b (k + Nat.find hsome) := by
        refine lasts_until_taken (hrest b) h _ fun l hle hlt htake => ?_
        refine Nat.find_min hsome (show l - k < Nat.find hsome by omega) ?_
        rwa [Nat.add_sub_of_le hle]
      obtain ⟨b', hless, hafter⟩ := htakes b _ hbefore hfirst
      exact ih b' hless _ hafter
    · have hnone : ∀ l, k ≤ l → ¬ takes (run l) (run (l + 1)) := by
        intro l hle htake
        refine hsome ⟨l - k, ?_⟩
        rwa [Nat.add_sub_of_le hle]
      obtain ⟨l, hle, htake⟩ := hfair k fun l hle => by
        have hlasts := lasts_until_taken (hrest b) h (l - k) fun i hi _ => hnone i hi
        rw [Nat.add_sub_of_le hle] at hlasts
        exact henabled b l hlasts
      exact hnone l hle htake

end Ranks

end Pureflow.Lib
