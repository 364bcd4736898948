import Pureflow.Lib.Prog
import Pureflow.Lib.Runs

/-!
A resource behind a lock, used by threads.

A thread asks for the lock with a request. Once it holds the lock it runs the program of the
request on the resource, call after call, and the other threads take their steps between two
calls. In whatever order the steps come, the resource goes through whole programs, in the order in
which the lock was taken.
-/

namespace Pureflow.Lib.Mutex

variable {T R Op σ α : Type} {Answer : Op → Type}

/-- What the resource answers to an operation, and what it is after that. -/
abbrev Device (Op σ : Type) (Answer : Op → Type) := (op : Op) → σ → Answer op × σ

/-- Run a program with the resource to itself. -/
def run (device : Device Op σ Answer) : Prog Op Answer α → σ → α × σ
  | .ret a, s => (a, s)
  | .call op k, s => run device (k (device op s).1) (device op s).2

@[simp] lemma run_ret (device : Device Op σ Answer) (a : α) (s : σ) :
    run device (.ret a) s = (a, s) := rfl

lemma run_call (device : Device Op σ Answer) (op : Op) (k : Answer op → Prog Op Answer α) (s : σ) :
    run device (.call op k) s = run device (k (device op s).1) (device op s).2 := rfl

/-- **Sequencing**: the second program starts where the first one has left the resource. -/
lemma run_bind {β : Type} (device : Device Op σ Answer) (p : Prog Op Answer α)
    (f : α → Prog Op Answer β) (s : σ) :
    run device (p >>= f) s = run device (f (run device p s).1) (run device p s).2 := by
  induction p generalizing s with
  | ret a => rfl
  | call op k ih => exact ih (device op s).1 (device op s).2

/-- The thread that holds the lock, with what is left of its program. -/
structure Holder (T R Op : Type) (Answer : Op → Type) (α : Type) where
  thread : T
  request : R
  rest : Prog Op Answer α

structure State (T R Op σ : Type) (Answer : Op → Type) (α : Type) where
  resource : σ
  holder : Option (Holder T R Op Answer α)
  waiting : T → Option R

inductive Event (T R : Type)
  | ask (t : T) (request : R)
  | enter (t : T)
  | act
  | leave

def State.start (resource : σ) : State T R Op σ Answer α := ⟨resource, none, fun _ => none⟩

variable [DecidableEq T]

/-- The thread neither waits for the lock nor holds it. -/
def State.Free (s : State T R Op σ Answer α) (t : T) : Prop :=
  s.waiting t = none ∧ ∀ h ∈ s.holder, h.thread ≠ t

instance (s : State T R Op σ Answer α) (t : T) : Decidable (s.Free t) :=
  inferInstanceAs (Decidable (s.waiting t = none ∧ ∀ h ∈ s.holder, h.thread ≠ t))

variable (device : Device Op σ Answer) (body : R → Prog Op Answer α)

def step (s : State T R Op σ Answer α) : Event T R → Option (State T R Op σ Answer α)
  | .ask t request =>
    if s.Free t then some { s with waiting := Function.update s.waiting t (some request) } else none
  | .enter t =>
    match s.holder, s.waiting t with
    | none, some request => some { s with
        holder := some ⟨t, request, body request⟩
        waiting := Function.update s.waiting t none }
    | _, _ => none
  | .act =>
    match s.holder with
    | some ⟨t, request, .call op k⟩ => some { s with
        resource := (device op s.resource).2
        holder := some ⟨t, request, k (device op s.resource).1⟩ }
    | _ => none
  | .leave =>
    match s.holder with
    | some ⟨_, _, .ret _⟩ => some { s with holder := none }
    | _ => none

/-- The requests of a thread, in order. -/
def asked (t : T) (events : List (Event T R)) : List R :=
  events.filterMap fun
    | .ask u request => if u = t then some request else none
    | _ => none

/-- The resource after whole programs, one for each request. -/
def after (start : σ) (order : List (T × R)) : σ :=
  order.foldl (fun s p => (run device (body p.2) s).2) start

omit [DecidableEq T] in
@[simp] lemma after_append (start : σ) (order more : List (T × R)) :
    after device body start (order ++ more) = after device body (after device body start order) more :=
  List.foldl_append

/-- The requests of a thread among those that were served. -/
def servedOf (t : T) (order : List (T × R)) : List R := (order.filter (·.1 = t)).map Prod.snd

/-- The resource is where the served requests have brought it, but for what is left of the program
of the last one while its thread holds the lock. -/
structure Serves (start : σ) (s : State T R Op σ Answer α) (order : List (T × R)) : Prop where
  free : s.holder = none → s.resource = after device body start order
  held : ∀ h, s.holder = some h → ∃ before, order = before ++ [(h.thread, h.request)] ∧
    run device h.rest s.resource = run device (body h.request) (after device body start before)

/-- What is known after any steps: some order of the requests, those of each thread as it asked
for them, and the resource served in that order. -/
def Serial (start : σ) (events : List (Event T R)) (s : State T R Op σ Answer α) : Prop :=
  ∃ order, Serves device body start s order ∧
    ∀ t, asked t events = servedOf t order ++ (s.waiting t).toList

section Invariant

variable {device body} {start : σ} {s s' : State T R Op σ Answer α} {events : List (Event T R)}
  {order : List (T × R)}

lemma asked_append (t : T) (events more : List (Event T R)) :
    asked t (events ++ more) = asked t events ++ asked t more := List.filterMap_append

lemma servedOf_append (t : T) (order more : List (T × R)) :
    servedOf t (order ++ more) = servedOf t order ++ servedOf t more := by
  simp [servedOf]

lemma serial_ask {t : T} {request : R} (h : Serial device body start events s) (hfree : s.Free t) :
    Serial device body start (events ++ [.ask t request])
      { s with waiting := Function.update s.waiting t (some request) } := by
  obtain ⟨order, hserves, hasked⟩ := h
  refine ⟨order, ⟨hserves.free, hserves.held⟩, fun u => ?_⟩
  rw [asked_append, hasked]
  by_cases htu : t = u
  · subst htu
    simp [asked, hfree.1]
  · simp [asked, htu, Function.update_of_ne (Ne.symm htu)]

lemma serial_enter {t : T} {request : R} (h : Serial device body start events s)
    (hnone : s.holder = none) (hwaiting : s.waiting t = some request) :
    Serial device body start (events ++ [.enter t])
      { s with
        holder := some ⟨t, request, body request⟩
        waiting := Function.update s.waiting t none } := by
  obtain ⟨order, hserves, hasked⟩ := h
  refine ⟨order ++ [(t, request)], ⟨fun hfree => ?_, fun holder hholder => ?_⟩, fun u => ?_⟩
  · cases hfree
  · obtain rfl := Option.some.inj hholder
    exact ⟨order, rfl, congrArg _ (hserves.free hnone)⟩
  · rw [asked_append, hasked, servedOf_append]
    by_cases htu : t = u
    · subst htu
      simp [asked, servedOf, hwaiting]
    · simp [asked, servedOf, htu, Function.update_of_ne (Ne.symm htu)]

lemma serial_act {t : T} {request : R} {op : Op} {k : Answer op → Prog Op Answer α}
    (h : Serial device body start events s) (hholder : s.holder = some ⟨t, request, .call op k⟩) :
    Serial device body start (events ++ [.act])
      { s with
        resource := (device op s.resource).2
        holder := some ⟨t, request, k (device op s.resource).1⟩ } := by
  obtain ⟨order, hserves, hasked⟩ := h
  obtain ⟨before, rfl, hrun⟩ := hserves.held _ hholder
  refine ⟨before ++ [(t, request)], ⟨fun hfree => ?_, fun holder hnext => ?_⟩, fun u => ?_⟩
  · cases hfree
  · obtain rfl := Option.some.inj hnext
    exact ⟨before, rfl, (run_call ..).symm.trans hrun⟩
  · rw [asked_append, hasked]
    simp [asked]

lemma serial_leave {t : T} {request : R} {a : α} (h : Serial device body start events s)
    (hholder : s.holder = some ⟨t, request, .ret a⟩) :
    Serial device body start (events ++ [.leave]) { s with holder := none } := by
  obtain ⟨order, hserves, hasked⟩ := h
  obtain ⟨before, rfl, hrun⟩ := hserves.held _ hholder
  refine ⟨before ++ [(t, request)], ⟨fun _ => ?_, fun holder hnext => ?_⟩, fun u => ?_⟩
  · rw [after_append]
    exact congrArg Prod.snd hrun
  · cases hnext
  · rw [asked_append, hasked]
    simp [asked]

lemma serial_step {ev : Event T R} (h : Serial device body start events s)
    (hstep : step device body s ev = some s') : Serial device body start (events ++ [ev]) s' := by
  cases ev with
  | ask t request =>
    rw [step] at hstep
    split_ifs at hstep with hfree
    cases hstep
    exact serial_ask h hfree
  | enter t =>
    rw [step] at hstep
    split at hstep
    · next request hnone hwaiting =>
      cases hstep
      exact serial_enter h hnone hwaiting
    · cases hstep
  | act =>
    rw [step] at hstep
    split at hstep
    · next t request op k hholder =>
      cases hstep
      exact serial_act h hholder
    · cases hstep
  | leave =>
    rw [step] at hstep
    split at hstep
    · next t request a hholder =>
      cases hstep
      exact serial_leave h hholder
    · cases hstep

/-- **Programs behind a lock run one after the other**, whatever the interleaving of the threads. -/
theorem serial_of_reaches (h : Reaches (step device body) (State.start start) events s) :
    Serial device body start events s :=
  h.invariant ⟨[], ⟨fun _ => rfl, fun _ hholder => by cases hholder⟩, fun _ => rfl⟩
    fun _ _ _ _ => serial_step

end Invariant

end Pureflow.Lib.Mutex
