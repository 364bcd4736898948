import Mathlib

/-!
Programs that talk to their environment: a program is done, or it calls an operation and goes
on with the answer.

What others do between two calls is in the answers, so a fact about one program over all
answers holds in every interleaving. Such facts are stated over a ghost state that the calls
update: `Wp` says that every call is allowed where it is made and that the program can only end
where the postcondition holds.
-/

namespace Pureflow.Lib

/-- A program over operations `Op`, each with its type of answers. -/
inductive Prog (Op : Type) (Answer : Op → Type) (α : Type)
  | ret (a : α)
  | call (op : Op) (k : Answer op → Prog Op Answer α)

namespace Prog

variable {Op : Type} {Answer : Op → Type} {α β : Type}

def bind : Prog Op Answer α → (α → Prog Op Answer β) → Prog Op Answer β
  | .ret a, f => f a
  | .call op k, f => .call op fun r => bind (k r) f

instance : Monad (Prog Op Answer) where
  pure := .ret
  bind := bind

/-- Call one operation and return its answer. -/
def perform (op : Op) : Prog Op Answer (Answer op) := .call op .ret

@[simp] lemma pure_def (a : α) : (pure a : Prog Op Answer α) = .ret a := rfl

@[simp] lemma ret_bind (a : α) (f : α → Prog Op Answer β) : (.ret a >>= f) = f a := rfl

@[simp] lemma call_bind (op : Op) (k : Answer op → Prog Op Answer α)
    (f : α → Prog Op Answer β) : (.call op k >>= f) = .call op fun r => k r >>= f := rfl

/-- Whatever is answered, the program ends where `Q` holds. -/
def Ends (Q : α → Prop) : Prog Op Answer α → Prop
  | .ret a => Q a
  | .call _ k => ∀ r, Ends Q (k r)

@[simp] lemma ends_ret {Q : α → Prop} {a : α} : (.ret a : Prog Op Answer α).Ends Q ↔ Q a := Iff.rfl

/-- **Sequencing**, whatever is answered. -/
@[simp] lemma ends_bind {p : Prog Op Answer α} {f : α → Prog Op Answer β} {Q : β → Prop} :
    (p >>= f).Ends Q ↔ p.Ends fun a => (f a).Ends Q := by
  induction p with
  | ret a => rfl
  | call op k ih => exact forall_congr' fun r => ih r

lemma Ends.mono {p : Prog Op Answer α} {Q R : α → Prop} (h : ∀ a, Q a → R a) (hp : p.Ends Q) :
    p.Ends R := by
  induction p with
  | ret a => exact h a hp
  | call op k ih => exact fun r => ih r (hp r)

lemma Ends.and {p : Prog Op Answer α} {Q R : α → Prop} (hQ : p.Ends Q) (hR : p.Ends R) :
    p.Ends fun a => Q a ∧ R a := by
  induction p with
  | ret a => exact ⟨hQ, hR⟩
  | call op k ih => exact fun r => ih r (hQ r) (hR r)

lemma ends_of_forall {Q : α → Prop} (h : ∀ a, Q a) (p : Prog Op Answer α) : p.Ends Q := by
  induction p with
  | ret a => exact h a
  | call op k ih => exact fun r => ih r

/-- Every call the program can make is one of `P`. -/
def Calls (P : Op → Prop) : Prog Op Answer α → Prop
  | .ret _ => True
  | .call op k => P op ∧ ∀ r, Calls P (k r)

@[simp] lemma calls_ret {P : Op → Prop} {a : α} : (.ret a : Prog Op Answer α).Calls P := trivial

lemma Calls.mono {P Q : Op → Prop} {p : Prog Op Answer α} (h : ∀ op, P op → Q op)
    (hp : p.Calls P) : p.Calls Q := by
  induction p with
  | ret a => exact trivial
  | call op k ih => exact ⟨h op hp.1, fun r => ih r (hp.2 r)⟩

lemma calls_bind {P : Op → Prop} {p : Prog Op Answer α} {f : α → Prog Op Answer β}
    (hp : p.Calls P) (hf : ∀ a, (f a).Calls P) : (p >>= f).Calls P := by
  induction p with
  | ret a => exact hf a
  | call op k ih => exact ⟨hp.1, fun r => ih r (hp.2 r)⟩

lemma calls_bind_ends {P : Op → Prop} {Q : α → Prop} {p : Prog Op Answer α}
    {f : α → Prog Op Answer β} (hp : p.Calls P) (hends : p.Ends Q)
    (hf : ∀ a, Q a → (f a).Calls P) : (p >>= f).Calls P := by
  induction p with
  | ret a => exact hf a hends
  | call op k ih => exact ⟨hp.1, fun r => ih r (hp.2 r) (hends r)⟩

lemma calls_perform {P : Op → Prop} {op : Op} (h : P op) :
    (perform op : Prog Op Answer (Answer op)).Calls P :=
  ⟨h, fun _ => trivial⟩

/-- What is left of a program once it has made one call. -/
def Next (q p : Prog Op Answer α) : Prop := ∃ op k r, p = .call op k ∧ q = k r

/-- A program makes finitely many calls, whatever is answered. -/
lemma next_wf : WellFounded (Next : Prog Op Answer α → Prog Op Answer α → Prop) := by
  refine ⟨fun p => ?_⟩
  induction p with
  | ret a =>
    refine ⟨_, ?_⟩
    rintro _ ⟨op, k, r, h, -⟩
    cases h
  | call op k ih =>
    refine ⟨_, ?_⟩
    rintro _ ⟨_, _, r, h, rfl⟩
    cases h
    exact ih r

/-- **Endless runs take turns**: where every step is a call of the program in progress or begins a
turn with another program, turns begin again and again. -/
theorem turns_unbounded (progs : ℕ → Prog Op Answer α) (turns : ℕ → ℕ)
    (h : ∀ k, (turns (k + 1) = turns k ∧ Next (progs (k + 1)) (progs k)) ∨
      turns (k + 1) = turns k + 1) (n : ℕ) : ∃ k, n ≤ turns k := by
  have hnext (p : Prog Op Answer α) : ∀ k, progs k = p → ∃ l, turns l = turns k + 1 := by
    induction p using next_wf.induction with
    | h p ih =>
      rintro k rfl
      rcases h k with ⟨hturns, hcall⟩ | hturns
      · obtain ⟨l, hl⟩ := ih _ hcall (k + 1) rfl
        exact ⟨l, by omega⟩
      · exact ⟨k + 1, hturns⟩
  induction n with
  | zero => exact ⟨0, Nat.zero_le _⟩
  | succ n ih =>
    obtain ⟨k, hk⟩ := ih
    obtain ⟨l, hl⟩ := hnext _ k rfl
    exact ⟨l, by omega⟩

/-- How calls bear on a ghost state: when one may be made, which answers it can get, and what
it leaves. -/
structure Ghost (Op : Type) (Answer : Op → Type) (G : Type) where
  pre : Op → G → Prop
  can : (op : Op) → Answer op → G → Prop
  post : (op : Op) → Answer op → G → G

variable {G : Type} {gh : Ghost Op Answer G} {p : Prog Op Answer α}

/-- Every call is allowed where it is made, and the program ends only where `Q` holds. -/
def Wp (gh : Ghost Op Answer G) : Prog Op Answer α → (α → G → Prop) → G → Prop
  | .ret a, Q, g => Q a g
  | .call op k, Q, g => gh.pre op g ∧ ∀ r, gh.can op r g → Wp gh (k r) Q (gh.post op r g)

@[simp] lemma wp_ret {a : α} {Q : α → G → Prop} {g : G} :
    Wp gh (.ret a : Prog Op Answer α) Q g ↔ Q a g := Iff.rfl

@[simp] lemma wp_perform {op : Op} {Q : Answer op → G → Prop} {g : G} :
    Wp gh (perform op) Q g ↔ gh.pre op g ∧ ∀ r, gh.can op r g → Q r (gh.post op r g) := Iff.rfl

/-- **Sequencing**: the first part must end where the second can start. -/
@[simp] lemma wp_bind {f : α → Prog Op Answer β} {Q : β → G → Prop} {g : G} :
    Wp gh (p >>= f) Q g ↔ Wp gh p (fun a g' => Wp gh (f a) Q g') g := by
  induction p generalizing g with
  | ret a => rfl
  | call op k ih =>
    show _ ∧ _ ↔ _ ∧ _
    exact and_congr_right fun _ => forall₂_congr fun r _ => ih r

/-- **Consequence**. -/
lemma Wp.mono {Q R : α → G → Prop} (h : ∀ a g, Q a g → R a g) {g : G} (hp : Wp gh p Q g) :
    Wp gh p R g := by
  induction p generalizing g with
  | ret a => exact h a g hp
  | call op k ih => exact ⟨hp.1, fun r hr => ih r (hp.2 r hr)⟩

/-- The same environment, in which every call may be made. -/
def Ghost.free (gh : Ghost Op Answer G) : Ghost Op Answer G := { gh with pre := fun _ _ => True }

lemma wp_free {Q : α → G → Prop} (h : ∀ a g, Q a g) (p : Prog Op Answer α) (g : G) :
    Wp gh.free p Q g := by
  induction p generalizing g with
  | ret a => exact h a g
  | call op k ih => exact ⟨trivial, fun r _ => ih r _⟩

/-- **Conjunction**: that the calls may be made need be shown once. -/
lemma Wp.and {Q R : α → G → Prop} {g : G} (hQ : Wp gh p Q g) (hR : Wp gh.free p R g) :
    Wp gh p (fun a g => Q a g ∧ R a g) g := by
  induction p generalizing g with
  | ret a => exact ⟨hQ, hR⟩
  | call op k ih => exact ⟨hQ.1, fun r hr => ih r (hQ.2 r hr) (hR.2 r hr)⟩

lemma Wp.and_ends {Q : α → G → Prop} {R : α → Prop} {g : G} (hQ : Wp gh p Q g) (hR : p.Ends R) :
    Wp gh p (fun a g => Q a g ∧ R a) g := by
  induction p generalizing g with
  | ret a => exact ⟨hQ, hR⟩
  | call op k ih => exact ⟨hQ.1, fun r hr => ih r (hQ.2 r hr) (hR r)⟩

/-- **Fewer answers**: what holds for all answers of one environment holds for another one with
the same bookkeeping that gives no others. -/
lemma Wp.restrict {gh' : Ghost Op Answer G} (hpre : gh'.pre = gh.pre) (hpost : gh'.post = gh.post)
    (hcan : ∀ op r g, gh'.can op r g → gh.can op r g) {Q : α → G → Prop} {g : G}
    (hp : Wp gh p Q g) : Wp gh' p Q g := by
  induction p generalizing g with
  | ret a => exact hp
  | call op k ih =>
    refine ⟨hpre ▸ hp.1, fun r hr => ?_⟩
    rw [hpost]
    exact ih r (hp.2 r (hcan op r g hr))

end Prog

end Pureflow.Lib
