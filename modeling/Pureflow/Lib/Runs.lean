import Mathlib

/-!
Runs of a partial step function over a list of events.
-/

namespace Pureflow.Lib

variable {σ ε : Type}

/-- The events lead from one state to the other, each of them possible where it comes. -/
def Reaches (step : σ → ε → Option σ) (start : σ) (events : List ε) (s : σ) : Prop :=
  events.foldlM step start = some s

namespace Reaches

variable {step : σ → ε → Option σ} {start s : σ}

@[simp] lemma nil : Reaches step start [] s ↔ start = s := by
  simp [Reaches]

lemma append {before after : List ε} :
    Reaches step start (before ++ after) s ↔
      ∃ mid, Reaches step start before mid ∧ Reaches step mid after s := by
  simp [Reaches, List.foldlM_append, Option.bind_eq_some_iff]

lemma cons {ev : ε} {rest : List ε} :
    Reaches step start (ev :: rest) s ↔
      ∃ mid, step start ev = some mid ∧ Reaches step mid rest s := by
  simp [Reaches, Option.bind_eq_some_iff]

lemma concat {before : List ε} {ev : ε} {mid : σ} (h : Reaches step start before mid)
    (hstep : step mid ev = some s) : Reaches step start (before ++ [ev]) s :=
  append.mpr ⟨mid, h, cons.mpr ⟨s, hstep, nil.mpr rfl⟩⟩

/-- **Invariants along runs**: what holds at the start, of no events, and is kept by every step,
with its event, holds at the end of every run, of its events. -/
lemma invariant {P : List ε → σ → Prop} {events : List ε} (h : Reaches step start events s)
    (hstart : P [] start)
    (hstep : ∀ before ev mid s', P before mid → step mid ev = some s' → P (before ++ [ev]) s') :
    P events s := by
  induction events using List.reverseRecOn generalizing s with
  | nil => exact nil.mp h ▸ hstart
  | append_singleton before ev ih =>
    obtain ⟨mid, hmid, hlast⟩ := append.mp h
    obtain ⟨s', hs', hend⟩ := cons.mp hlast
    rw [nil] at hend
    exact hstep before ev mid s (ih hmid) (hend ▸ hs')

end Reaches

end Pureflow.Lib
