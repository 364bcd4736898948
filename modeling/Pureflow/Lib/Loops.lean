import Mathlib

/-!
Loops given by one round: a round returns, or it goes on with another state.

A loop ends if some finite number of rounds leads to a return. It ends in one way only, it ends
from everywhere if its rounds use something up, and what its rounds keep bears on what it returns.
-/

namespace Pureflow.Lib.Loop

variable {σ β : Type*} {step : σ → β ⊕ σ} {s : σ} {b : β}

/-- From this state the loop returns this value. -/
inductive Ends (step : σ → β ⊕ σ) : σ → β → Prop
  | ret {s : σ} {b : β} : step s = .inl b → Ends step s b
  | round {s s' : σ} {b : β} : step s = .inr s' → Ends step s' b → Ends step s b

lemma Ends.unique {b' : β} (h : Ends step s b) (h' : Ends step s b') : b = b' := by
  induction h with
  | ret hret =>
    cases h' with
    | ret hret' => exact Sum.inl.inj (hret.symm.trans hret')
    | round hround' => cases hret.symm.trans hround'
  | round hround _ ih =>
    cases h' with
    | ret hret' => cases hround.symm.trans hret'
    | round hround' hrest =>
      obtain rfl := Sum.inr.inj (hround.symm.trans hround')
      exact ih hrest

/-- **The rule of invariants**: what holds at the start and is kept by every round holds at the
return. -/
lemma Ends.invariant {I : σ → Prop} (hkept : ∀ s s', I s → step s = .inr s' → I s')
    (h : Ends step s b) (hs : I s) : ∃ last, I last ∧ step last = .inl b := by
  induction h with
  | ret hret => exact ⟨_, hs, hret⟩
  | round hround _ ih => exact ih (hkept _ _ hs hround)

/-- The rounds of a loop, up to a number of them. -/
def run (step : σ → β ⊕ σ) : ℕ → σ → β ⊕ σ
  | 0, s => .inr s
  | rounds + 1, s =>
    match step s with
    | .inl b => .inl b
    | .inr s' => run step rounds s'

/-- **Termination**: a loop whose rounds use up a number ends within that many rounds. -/
lemma exists_ends {size : σ → ℕ} (hless : ∀ s s', step s = .inr s' → size s' < size s)
    {rounds : ℕ} (hs : size s < rounds) :
    ∃ b, Ends step s b ∧ run step rounds s = .inl b := by
  induction rounds generalizing s with
  | zero => omega
  | succ rounds ih =>
    unfold run
    cases hstep : step s with
    | inl b => exact ⟨b, .ret hstep, rfl⟩
    | inr s' =>
      have hsize := hless s s' hstep
      obtain ⟨b, hends, hrun⟩ := ih (show size s' < rounds by omega)
      exact ⟨b, .round hstep hends, hrun⟩

end Pureflow.Lib.Loop
