import Pureflow.Lib.Prog

/-!
Traces of programs, and futures that are run turn by turn.

A trace lists the calls one run of a program makes, with their answers. A future goes from stage
to stage; what it does at a stage is a program that ends in the next stage, and such a turn is
never left half done.
-/

namespace Pureflow.Lib.Prog

variable {Op : Type} {Answer : Op → Type} {α β σ : Type}

/-- A call with its answer. -/
abbrev Event (Answer : Op → Type) := (op : Op) × Answer op

/-- The program makes these calls, which are answered so, and ends in this value. -/
inductive Yields : Prog Op Answer α → List (Event Answer) → α → Prop
  | ret {a : α} : Yields (.ret a) [] a
  | call {op : Op} {k : Answer op → Prog Op Answer α} {answer : Answer op}
      {events : List (Event Answer)} {a : α} :
    Yields (k answer) events a → Yields (.call op k) (⟨op, answer⟩ :: events) a

section Traces

variable {p : Prog Op Answer α} {f : α → Prog Op Answer β} {events : List (Event Answer)} {a b : α}

@[simp] lemma yields_ret : (.ret a : Prog Op Answer α).Yields events b ↔ events = [] ∧ b = a := by
  constructor
  · rintro ⟨⟩
    exact ⟨rfl, rfl⟩
  · rintro ⟨rfl, rfl⟩
    exact .ret

@[simp] lemma yields_call {op : Op} {k : Answer op → Prog Op Answer α} :
    (.call op k : Prog Op Answer α).Yields events a ↔
      ∃ answer rest, events = ⟨op, answer⟩ :: rest ∧ (k answer).Yields rest a := by
  constructor
  · intro h
    cases h with
    | call h => exact ⟨_, _, rfl, h⟩
  · rintro ⟨answer, rest, rfl, h⟩
    exact .call h

/-- **Sequencing**: the trace is that of the first part and then that of the second. -/
lemma yields_bind {c : β} : (p >>= f).Yields events c ↔
    ∃ a before after, events = before ++ after ∧ p.Yields before a ∧ (f a).Yields after c := by
  induction p generalizing events with
  | ret a =>
    constructor
    · exact fun h => ⟨a, [], events, rfl, .ret, h⟩
    · rintro ⟨a', before, after, rfl, h, hrest⟩
      obtain ⟨rfl, rfl⟩ := yields_ret.mp h
      exact hrest
  | call op k ih =>
    rw [call_bind, yields_call]
    constructor
    · rintro ⟨answer, rest, rfl, h⟩
      obtain ⟨a, before, after, rfl, hbefore, hafter⟩ := (ih answer).mp h
      exact ⟨a, ⟨op, answer⟩ :: before, after, rfl, .call hbefore, hafter⟩
    · rintro ⟨a, before, after, rfl, hbefore, hafter⟩
      obtain ⟨answer, rest, rfl, hrest⟩ := yields_call.mp hbefore
      exact ⟨answer, rest ++ after, rfl, (ih answer).mpr ⟨a, rest, after, rfl, hrest, hafter⟩⟩

lemma exists_yields [∀ op, Nonempty (Answer op)] (p : Prog Op Answer α) :
    ∃ events a, p.Yields events a := by
  induction p with
  | ret a => exact ⟨[], a, .ret⟩
  | call op k ih =>
    obtain ⟨answer⟩ := ‹∀ op, Nonempty (Answer op)› op
    obtain ⟨events, a, h⟩ := ih answer
    exact ⟨_, a, .call h⟩

namespace Yields

lemma bind {before after : List (Event Answer)} {c : β} (h : p.Yields before a)
    (hf : (f a).Yields after c) : (p >>= f).Yields (before ++ after) c :=
  yields_bind.mpr ⟨a, before, after, rfl, h, hf⟩

lemma ends {Q : α → Prop} (h : p.Yields events a) (hp : p.Ends Q) : Q a := by
  induction h with
  | ret => exact hp
  | call _ ih => exact ih (hp _)

lemma calls {P : Op → Prop} (h : p.Yields events a) (hp : p.Calls P) : ∀ e ∈ events, P e.1 := by
  induction h with
  | ret => exact List.forall_mem_nil _
  | call _ ih => exact List.forall_mem_cons.mpr ⟨hp.1, ih (hp.2 _)⟩

lemma unique (h : p.Yields events a) (h' : p.Yields events b) : a = b := by
  induction h with
  | ret => exact (yields_ret.mp h').2.symm
  | call _ ih =>
    cases h' with
    | call h' => exact ih h'

/-- What calls leave of a ghost state. -/
def after {G : Type} (gh : Ghost Op Answer G) (events : List (Event Answer)) (g : G) : G :=
  events.foldl (fun g e => gh.post e.1 e.2 g) g

/-- **A run ends where the postcondition holds**, where every answer is possible. -/
lemma wp {G : Type} {gh : Ghost Op Answer G} {Q : α → G → Prop} {g : G} (h : p.Yields events a)
    (hcan : ∀ op answer g, gh.can op answer g) (hp : Wp gh p Q g) : Q a (after gh events g) := by
  induction h generalizing g with
  | ret => exact hp
  | call _ ih => exact ih (hp.2 _ (hcan _ _ g))

end Yields

end Traces

/-- A turn of a future: the stage it begins at, its calls, and the stage it ends at. -/
structure Turn (Answer : Op → Type) (σ : Type) where
  stage : σ
  events : List (Event Answer)
  next : σ

/-- From one stage to another by these turns. -/
inductive Runs (step : σ → Prog Op Answer σ) : σ → List (Turn Answer σ) → σ → Prop
  | refl {s : σ} : Runs step s [] s
  | turn {s s' s'' : σ} {turns : List (Turn Answer σ)} {events : List (Event Answer)} :
    Runs step s turns s' → (step s').Yields events s'' →
    Runs step s (turns ++ [⟨s', events, s''⟩]) s''

/-- All calls of a run, in order. -/
def trace (turns : List (Turn Answer σ)) : List (Event Answer) := turns.flatMap (·.events)

section Futures

variable {step : σ → Prog Op Answer σ} {s s' : σ} {turns : List (Turn Answer σ)}

@[simp] lemma trace_append (more : List (Turn Answer σ)) :
    trace (turns ++ more) = trace turns ++ trace more := List.flatMap_append

@[simp] lemma trace_singleton (turn : Turn Answer σ) : trace [turn] = turn.events := by
  simp [trace]

/-- **Invariants along runs**: what holds at the start and is kept by every turn holds at the end
of every run. -/
lemma Runs.invariant {P : List (Turn Answer σ) → σ → Prop} (h : Runs step s turns s')
    (hstart : P [] s)
    (hturn : ∀ turns s' events s'', P turns s' → (step s').Yields events s'' →
      P (turns ++ [⟨s', events, s''⟩]) s'') : P turns s' := by
  induction h with
  | refl => exact hstart
  | turn _ hyields ih => exact hturn _ _ _ _ ih hyields

lemma Runs.last {turn : Turn Answer σ} (h : Runs step s (turns ++ [turn]) s') :
    Runs step s turns turn.stage ∧ (step turn.stage).Yields turn.events turn.next ∧
      turn.next = s' := by
  generalize hall : turns ++ [turn] = all at h
  cases h with
  | refl => simp at hall
  | turn hrun hyields =>
    obtain ⟨rfl, hlast⟩ := List.append_inj' hall rfl
    obtain rfl := List.singleton_inj.mp hlast
    exact ⟨hrun, hyields, rfl⟩

end Futures

end Pureflow.Lib.Prog
